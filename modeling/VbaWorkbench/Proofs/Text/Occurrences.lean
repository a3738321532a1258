import Mathlib.Data.List.Infix
import Mathlib.Data.Nat.Find
import VbaWorkbench.Text.Basic

namespace VbaWorkbench

/-- The text stands in another one at this position. -/
def OccursAt (needle hay : Text) (pos : Nat) : Prop :=
  needle <+: hay.drop pos

/-- The positions from left to right where a text stands in another one, without overlap: each is
the first from the end of the one before it on. -/
inductive Occurrences (needle hay : Text) : (start : Nat) → List Nat → Prop
  | nil {start : Nat} : (∀ pos, start ≤ pos → ¬OccursAt needle hay pos) →
      Occurrences needle hay start []
  | cons {start pos : Nat} {positions : List Nat} : start ≤ pos → OccursAt needle hay pos →
      (∀ earlier, start ≤ earlier → earlier < pos → ¬OccursAt needle hay earlier) →
      Occurrences needle hay (pos + needle.length) positions →
      Occurrences needle hay start (pos :: positions)

instance (needle hay : Text) (pos : Nat) : Decidable (OccursAt needle hay pos) :=
  inferInstanceAs (Decidable (needle <+: hay.drop pos))

section Occurrences

variable {needle hay : Text} {pos start : Nat}

theorem occursAt_cons_iff {c : Char} : OccursAt (c :: needle) hay pos ↔
    hay[pos]? = some c ∧ OccursAt needle hay (pos + 1) := by
  unfold OccursAt
  rw [← List.drop_drop, ← List.head?_drop]
  cases hay.drop pos with
  | nil => simp
  | cons d rest => simp [List.cons_prefix_cons, eq_comm]

theorem OccursAt.take_drop (h : OccursAt needle hay pos) :
    (hay.drop pos).take needle.length = needle :=
  (List.prefix_iff_eq_take.mp h).symm

theorem OccursAt.le_length (h : OccursAt needle hay pos) (hne : needle ≠ []) :
    pos + needle.length ≤ hay.length := by
  have hlength := h.length_le
  have hpos := List.length_pos_iff.mpr hne
  rw [List.length_drop] at hlength
  omega

theorem exists_occurrences (hne : needle ≠ []) (hay : Text) (start : Nat) :
    ∃ positions, Occurrences needle hay start positions := by
  induction hn : hay.length + 1 - start using Nat.strongRecOn generalizing start with
  | ind n ih =>
    by_cases hnone : ∀ pos, start ≤ pos → ¬OccursAt needle hay pos
    · exact ⟨[], .nil hnone⟩
    · have hsome : ∃ pos, start ≤ pos ∧ OccursAt needle hay pos := by simpa using hnone
      classical
      obtain ⟨first, ⟨hle, hoccurs⟩, hfirst⟩ :
          ∃ first, (start ≤ first ∧ OccursAt needle hay first) ∧
            ∀ earlier, earlier < first → ¬(start ≤ earlier ∧ OccursAt needle hay earlier) :=
        ⟨Nat.find hsome, Nat.find_spec hsome, fun _ => Nat.find_min hsome⟩
      have hlength := hoccurs.le_length hne
      have hpos := List.length_pos_iff.mpr hne
      obtain ⟨positions, hrest⟩ := ih _ (by omega) (first + needle.length) rfl
      exact ⟨first :: positions, .cons hle hoccurs
        (fun earlier hle hlt hearlier => hfirst earlier hlt ⟨hle, hearlier⟩) hrest⟩

/-- There is one way to go through the occurrences. -/
theorem Occurrences.unique {positions positions' : List Nat}
    (h : Occurrences needle hay start positions) (h' : Occurrences needle hay start positions') :
    positions = positions' := by
  induction h generalizing positions' with
  | nil hnone =>
    cases h' with
    | nil => rfl
    | cons hle hoccurs => exact absurd hoccurs (hnone _ hle)
  | @cons start pos positions hle hoccurs hfirst _ ih =>
    cases h' with
    | nil hnone => exact absurd hoccurs (hnone pos hle)
    | @cons _ pos' positions' hle' hoccurs' hfirst' hrest' =>
      rcases Nat.lt_trichotomy pos pos' with hlt | rfl | hlt
      · exact absurd hoccurs (hfirst' pos hle hlt)
      · rw [ih hrest']
      · exact absurd hoccurs' (hfirst pos' hle' hlt)

theorem Occurrences.mem {positions : List Nat} (h : Occurrences needle hay start positions) :
    ∀ pos ∈ positions, OccursAt needle hay pos := by
  induction h with
  | nil => simp
  | cons _ hoccurs _ _ ih => exact List.forall_mem_cons.mpr ⟨hoccurs, ih⟩

end Occurrences

end VbaWorkbench
