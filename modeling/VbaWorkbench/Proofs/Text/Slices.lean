import Mathlib.Data.List.Infix
import VbaWorkbench.Text.Bytes

namespace VbaWorkbench.Text

/-- A character begins at this byte, or the text ends there. -/
def Boundary (t : Text) (offset : Nat) : Prop :=
  offset ∈ byteOffsets 0 t

instance (t : Text) (offset : Nat) : Decidable (Boundary t offset) :=
  inferInstanceAs (Decidable (offset ∈ byteOffsets 0 t))

/-- The text between two byte offsets, if they are in order and neither of them cuts a character. -/
def slice? (start stop : Nat) (t : Text) : Option Text :=
  if start ≤ stop ∧ Boundary t start ∧ Boundary t stop then
    some (takeBytes (stop - start) (dropBytes start t))
  else none

variable {t : Text} {start stop i j : Nat}

theorem byteLength_pos (h : t ≠ []) : 0 < byteLength t := by
  cases t with
  | nil => exact absurd rfl h
  | cons c t => exact Nat.add_pos_left (Char.utf8Size_pos c) _

theorem takeBytes_append (a b : Text) : takeBytes (byteLength a) (a ++ b) = a := by
  induction a with
  | nil =>
    cases b with
    | nil => rfl
    | cons c b => exact if_neg (Nat.not_le_of_lt (Char.utf8Size_pos c))
  | cons c a ih =>
    rw [List.cons_append, byteLength, takeBytes, if_pos (Nat.le_add_right _ _),
      Nat.add_sub_cancel_left, ih]

theorem dropBytes_append (a b : Text) : dropBytes (byteLength a) (a ++ b) = b := by
  induction a with
  | nil =>
    cases b with
    | nil => rfl
    | cons c b => exact if_neg (Nat.not_le_of_lt (Char.utf8Size_pos c))
  | cons c a ih =>
    rw [List.cons_append, byteLength, dropBytes, if_pos (Nat.le_add_right _ _),
      Nat.add_sub_cancel_left, ih]

theorem byteOffsets_get (first : Nat) (h : i ≤ t.length) :
    (byteOffsets first t)[i]? = some (first + byteLength (t.take i)) := by
  induction i generalizing first t with
  | zero => cases t <;> rfl
  | succ i ih =>
    cases t with
    | nil => cases h
    | cons c t =>
      rw [byteOffsets, List.getElem?_cons_succ, ih _ (Nat.le_of_succ_le_succ h),
        List.take_succ_cons, byteLength, Nat.add_assoc]

theorem length_byteOffsets (first : Nat) (t : Text) :
    (byteOffsets first t).length = t.length + 1 := by
  induction t generalizing first with
  | nil => rfl
  | cons c t ih => rw [byteOffsets, List.length_cons, ih, List.length_cons]

/-- The boundaries are the offsets of the character positions. -/
theorem boundary_iff {offset : Nat} :
    Boundary t offset ↔ ∃ i ≤ t.length, byteLength (t.take i) = offset := by
  rw [Boundary, List.mem_iff_getElem?]
  constructor
  · rintro ⟨i, hi⟩
    have hle : i ≤ t.length := by
      have hlt := (List.getElem?_eq_some_iff.mp hi).1
      rw [length_byteOffsets] at hlt
      omega
    rw [byteOffsets_get 0 hle, Nat.zero_add] at hi
    exact ⟨i, hle, Option.some.inj hi⟩
  · rintro ⟨i, hle, rfl⟩
    exact ⟨i, by rw [byteOffsets_get 0 hle, Nat.zero_add]⟩

theorem boundary_append (before after : Text) :
    Boundary (before ++ after) (byteLength before) :=
  boundary_iff.mpr ⟨before.length, by simp, by rw [List.take_left]⟩

theorem boundary_zero (t : Text) : Boundary t 0 :=
  boundary_append [] t

/-- Two positions cut a text in three. -/
theorem take_drop_drop (h : i ≤ j) : t.take i ++ (t.take j).drop i = t.take j := by
  have hi : (t.take j).take i = t.take i := by rw [List.take_take, Nat.min_eq_left h]
  rw [← hi, List.take_append_drop]

theorem byteLength_take_le (h : i ≤ j) : byteLength (t.take i) ≤ byteLength (t.take j) := by
  rw [← take_drop_drop h, byteLength_append]
  exact Nat.le_add_right _ _

theorem byteLength_take_lt (h : i < j) (hj : j ≤ t.length) :
    byteLength (t.take i) < byteLength (t.take j) := by
  have hne : (t.take j).drop i ≠ [] := by
    rw [← List.length_pos_iff, List.length_drop, List.length_take]
    omega
  rw [← take_drop_drop (Nat.le_of_lt h), byteLength_append]
  exact Nat.lt_add_of_pos_right (byteLength_pos hne)

/-- Two boundaries in order cut the text in three. -/
theorem exists_cuts (h : start ≤ stop) (hstart : Boundary t start) (hstop : Boundary t stop) :
    ∃ before between after, t = before ++ between ++ after ∧ byteLength before = start ∧
      byteLength (before ++ between) = stop := by
  obtain ⟨i, hi, rfl⟩ := boundary_iff.mp hstart
  obtain ⟨j, hj, rfl⟩ := boundary_iff.mp hstop
  have hij : i ≤ j := by
    by_contra hlt
    exact Nat.not_lt_of_le h (byteLength_take_lt (Nat.lt_of_not_le hlt) hi)
  exact ⟨t.take i, (t.take j).drop i, t.drop j,
    by rw [take_drop_drop hij, List.take_append_drop], rfl, by rw [take_drop_drop hij]⟩

theorem slice?_append (before between after : Text) :
    slice? (byteLength before) (byteLength (before ++ between)) (before ++ between ++ after) =
      some between := by
  have hstart : Boundary (before ++ between ++ after) (byteLength before) := by
    rw [List.append_assoc]
    exact boundary_append before _
  have hle : byteLength before ≤ byteLength (before ++ between) := by
    rw [byteLength_append]
    exact Nat.le_add_right _ _
  rw [slice?, if_pos ⟨hle, hstart, boundary_append _ _⟩, byteLength_append,
    Nat.add_sub_cancel_left, List.append_assoc, dropBytes_append, takeBytes_append]

/-- The text between two positions is the slice between their offsets. -/
theorem slice?_take (h : i ≤ j) :
    slice? (byteLength (t.take i)) (byteLength (t.take j)) t = some ((t.take j).drop i) := by
  have hslice := slice?_append (t.take i) ((t.take j).drop i) (t.drop j)
  rwa [take_drop_drop h, List.take_append_drop] at hslice

theorem slice?_zero (h : Boundary t stop) : slice? 0 stop t = some (takeBytes stop t) := by
  have hdrop : dropBytes 0 t = t := dropBytes_append [] t
  rw [slice?, if_pos ⟨Nat.zero_le _, boundary_zero t, h⟩, hdrop, Nat.sub_zero]

/-- The slice up to the end is what comes after. -/
theorem slice?_end (h : Boundary t start) :
    slice? start (byteLength t) t = some (dropBytes start t) := by
  obtain ⟨i, -, rfl⟩ := boundary_iff.mp h
  have hslice := slice?_append (t.take i) (t.drop i) []
  have hdrop := dropBytes_append (t.take i) (t.drop i)
  rw [List.append_nil, List.take_append_drop] at hslice
  rw [List.take_append_drop] at hdrop
  rw [hslice, hdrop]

theorem dropBytes_dropBytes (h : start ≤ stop) (hstart : Boundary t start)
    (hstop : Boundary t stop) :
    dropBytes (stop - start) (dropBytes start t) = dropBytes stop t := by
  obtain ⟨before, between, after, rfl, rfl, rfl⟩ := exists_cuts h hstart hstop
  rw [dropBytes_append (before ++ between), List.append_assoc, dropBytes_append before,
    byteLength_append, Nat.add_sub_cancel_left, dropBytes_append]

end VbaWorkbench.Text
