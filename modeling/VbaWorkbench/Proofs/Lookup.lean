import Mathlib.Data.List.Basic

namespace VbaWorkbench

/-- The elements have different keys. -/
def Keyed {α κ : Type} (key : α → κ) (xs : List α) : Prop :=
  xs.Pairwise fun x y => key x ≠ key y

section Keyed

variable {α κ : Type} {key : α → κ} {xs ys : List α}

theorem Keyed.perm (h : Keyed key xs) (hp : xs.Perm ys) : Keyed key ys :=
  (hp.pairwise_iff fun hne => hne.symm).mp h

variable [BEq κ] [LawfulBEq κ]

/-- An element is found under its key. -/
theorem Keyed.find?_eq_some (h : Keyed key xs) {k : κ} {x : α} :
    xs.find? (key · == k) = some x ↔ x ∈ xs ∧ key x = k := by
  induction xs with
  | nil => simp
  | cons y ys ih =>
    obtain ⟨hy, hys⟩ := List.pairwise_cons.mp h
    by_cases hk : key y = k
    · rw [List.find?_cons_of_pos (by simpa using hk), List.mem_cons]
      constructor
      · intro he
        obtain rfl := Option.some.inj he
        exact ⟨.inl rfl, hk⟩
      · rintro ⟨rfl | hx, hkey⟩
        · rfl
        · exact absurd (hk.trans hkey.symm) (hy x hx)
    · rw [List.find?_cons_of_neg (by simpa using hk), ih hys, List.mem_cons]
      constructor
      · exact fun hx => ⟨.inr hx.1, hx.2⟩
      · rintro ⟨rfl | hx, hkey⟩
        · exact absurd hkey hk
        · exact ⟨hx, hkey⟩

/-- What is found does not depend on the order. -/
theorem Keyed.find?_perm (h : Keyed key xs) (hp : xs.Perm ys) (k : κ) :
    xs.find? (key · == k) = ys.find? (key · == k) := by
  refine Option.ext fun x => ?_
  rw [h.find?_eq_some, (h.perm hp).find?_eq_some, hp.mem_iff]

end Keyed

end VbaWorkbench
