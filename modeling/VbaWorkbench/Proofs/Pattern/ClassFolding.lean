import VbaWorkbench.Pattern.Machine
import VbaWorkbench.Proofs.Character.Folding

namespace VbaWorkbench.Pattern

namespace CharClass

/-- A class that names the characters of some ranges. -/
def ofRanges (ranges : List (Char × Char)) : CharClass :=
  ⟨false, ranges.map fun r => .range r.1 r.2⟩

variable {ranges : List (Char × Char)} {c : Char}

theorem hasItemFor_ofRanges :
    (ofRanges ranges).hasItemFor c = true ↔ ∃ r ∈ ranges, r.1 ≤ c ∧ c ≤ r.2 := by
  simp [hasItemFor, ofRanges, ClassItem.contains]

/-- Ignoring case, a class of ranges tries three characters. -/
theorem accepts_ofRanges : (ofRanges ranges).accepts true c = true ↔
    ∃ d, (∃ r ∈ ranges, r.1 ≤ d ∧ d ≤ r.2) ∧
      (d = c ∨ d = Character.fold c ∨ d = Character.unfold c) := by
  have haccepts : (ofRanges ranges).accepts true c =
      ((ofRanges ranges).hasItemFor c || ((ofRanges ranges).hasItemFor (Character.fold c) ||
        (ofRanges ranges).hasItemFor (Character.unfold c))) := by
    rw [accepts, Bool.true_and]
    exact Bool.bne_false _
  rw [haccepts, Bool.or_eq_true, Bool.or_eq_true, hasItemFor_ofRanges, hasItemFor_ofRanges,
    hasItemFor_ofRanges]
  constructor
  · rintro (h | h | h)
    · exact ⟨c, h, .inl rfl⟩
    · exact ⟨_, h, .inr (.inl rfl)⟩
    · exact ⟨_, h, .inr (.inr rfl)⟩
  · rintro ⟨d, h, rfl | rfl | rfl⟩
    · exact .inl h
    · exact .inr (.inl h)
    · exact .inr (.inr h)

end CharClass

theorem Machine.same_iff {m : Machine} (hm : m.ignoreCase = true) {c d : Char} :
    m.same c d = true ↔ Character.fold c = Character.fold d := by
  rw [Machine.same, hm, Bool.true_and, Bool.or_eq_true, beq_iff_eq, beq_iff_eq]
  constructor
  · rintro (rfl | h)
    · rfl
    · exact h
  · exact .inr

/-- Ignoring case, a class of ranges accepts a character exactly if one of the characters it names
is the same to the machine, except for two lists of pairs: in the first ones the class does not see
that they are the same, and in the second ones they are not the same and it takes one for the
other. -/
theorem accepts_iff_same {m : Machine} (hm : m.ignoreCase = true) :
    (∀ ranges c, (CharClass.ofRanges ranges).accepts m.ignoreCase c = true ↔
      ∃ d, (∃ r ∈ ranges, r.1 ≤ d ∧ d ≤ r.2) ∧
        (m.same c d = true ∧ (c.toNat, d.toNat) ∉ Character.overlooked ∨
          (c.toNat, d.toNat) ∈ Character.conflated)) ∧
    (∀ c d, (c.toNat, d.toNat) ∈ Character.overlooked → m.same c d = true) ∧
    ∀ c d, (c.toNat, d.toNat) ∈ Character.conflated → m.same c d = false := by
  refine ⟨fun ranges c => ?_, fun c d hpair => ?_, fun c d hpair => ?_⟩
  · rw [hm, CharClass.accepts_ofRanges]
    refine exists_congr fun d => and_congr_right' ?_
    rw [Machine.same_iff hm]
    exact Character.named_iff c d
  · exact (Machine.same_iff hm).mpr (Character.overlooked_apart hpair).1
  · refine Bool.eq_false_iff.mpr fun hsame => ?_
    exact (Character.conflated_apart hpair).2 ((Machine.same_iff hm).mp hsame)

/-- The Kelvin sign is the same as `k`, but a class that names it does not accept `k`. The final
sigma is not the same as the capital, but the class of the capital accepts it. -/
theorem accepts_iff_same_kelvin :
    let m : Machine := ⟨⟨#[], 0, 0⟩, #[], true, false⟩
    m.same 'k' '\u212a' = true ∧
      (CharClass.ofRanges [('\u212a', '\u212a')]).accepts m.ignoreCase 'k' = false ∧
      m.same 'ς' 'Σ' = false ∧
      (CharClass.ofRanges [('Σ', 'Σ')]).accepts m.ignoreCase 'ς' = true := by
  intro m
  obtain ⟨haccepts, hoverlooked, hconflated⟩ := accepts_iff_same (show m.ignoreCase = true from rfl)
  have hkelvin : (('k').toNat, ('\u212a').toNat) ∈ Character.overlooked := by decide
  have hsigma : (('ς').toNat, ('Σ').toNat) ∈ Character.conflated := by decide
  refine ⟨hoverlooked _ _ hkelvin, Bool.eq_false_iff.mpr fun hk => ?_, hconflated _ _ hsigma, ?_⟩
  · obtain ⟨d, ⟨r, hr, hlow, hhigh⟩, hpair⟩ := (haccepts _ _).mp hk
    obtain rfl := List.mem_singleton.mp hr
    obtain rfl : d = '\u212a' := Char.le_antisymm hhigh hlow
    rcases hpair with ⟨-, hnot⟩ | hmem
    · exact hnot hkelvin
    · exact absurd hmem (by decide)
  · exact (haccepts _ _).mpr ⟨'Σ', ⟨_, List.mem_singleton_self _, Nat.le_refl _, Nat.le_refl _⟩,
      .inr hsigma⟩

end VbaWorkbench.Pattern
