import Mathlib.Data.List.Chain
import VbaWorkbench.Character.Fold
import VbaWorkbench.Proofs.Character.Mapping

namespace VbaWorkbench.Character

/-- Runs in increasing order. -/
def Run.Before (run other : Run) : Prop :=
  run.first ≤ run.last ∧ run.last < other.first

instance (run other : Run) : Decidable (run.Before other) :=
  inferInstanceAs (Decidable (_ ∧ _))

instance : Trans Run.Before Run.Before Run.Before where
  trans h h' := ⟨h.1, Nat.lt_of_lt_of_le h.2 (Nat.le_trans h'.1 (Nat.le_of_lt h'.2))⟩

/-- What the tables map a character to, if it is one character. -/
def simple (shifts : List Shift) (expansions : List (Nat × List Nat)) (c : Char) : Char :=
  match mapped shifts expansions c with
  | [d] => d
  | _ => c

theorem fold_eq (c : Char) : fold c = simple lowerShifts lowerExpansions c :=
  rfl

theorem unfold_eq (c : Char) : unfold c = simple upperShifts upperExpansions c :=
  rfl

/-- Tables without overlaps, whose shifts lead to code points of characters. -/
structure Orderly (shifts : List Shift) (expansions : List (Nat × List Nat)) : Prop where
  ordered : (shifts.map Shift.run).IsChain Run.Before
  apart : (expansions.all fun e => shifts.all fun s =>
    Nat.blt e.1 s.run.first || Nat.blt s.run.last e.1 || !s.run.contains e.1) = true
  several : (expansions.all fun e => Nat.ble 2 e.2.length) = true
  valid : (shifts.all fun s => decide (0 ≤ s.run.first + s.offset) &&
    ((s.run.last + s.offset).toNat.blt 0xd800 ||
      (Nat.ble 0xe000 (s.run.first + s.offset).toNat &&
        (s.run.last + s.offset).toNat.blt 0x110000))) = true

section Tables

variable {shifts : List Shift} {expansions : List (Nat × List Nat)} {s r : Shift} {code : Nat}

theorem shifted_of_ordered (hordered : (shifts.map Shift.run).Pairwise Run.Before)
    (hs : s ∈ shifts) (hcode : s.run.contains code = true) :
    shifted shifts code = (code + s.offset).toNat := by
  have hbounds := hcode
  simp only [Run.contains, Bool.and_eq_true, decide_eq_true_eq] at hbounds
  induction shifts with
  | nil => cases hs
  | cons other shifts ih =>
    obtain ⟨hother, hshifts⟩ := List.pairwise_cons.mp hordered
    rw [shifted]
    rcases List.mem_cons.mp hs with rfl | hs
    · rw [if_neg (Nat.not_lt.mpr hbounds.1.1), if_pos hcode]
    · have hbefore : other.run.Before s.run := hother s.run (List.mem_map_of_mem hs)
      have hpast : other.run.contains code = false := by
        simp only [Run.contains, Bool.and_eq_false_iff, decide_eq_false_iff_not]
        exact .inl (.inr (Nat.not_le.mpr (Nat.lt_of_lt_of_le hbefore.2 hbounds.1.1)))
      have hfirst : other.run.first ≤ code :=
        Nat.le_trans hbefore.1 (Nat.le_trans (Nat.le_of_lt hbefore.2) hbounds.1.1)
      rw [if_neg (Nat.not_lt.mpr hfirst), if_neg (Bool.eq_false_iff.mp hpast)]
      exact ih hshifts hs

namespace Orderly

variable (h : Orderly shifts expansions)
include h

theorem shifted_of_mem (hs : s ∈ shifts) (hcode : s.run.contains code = true) :
    shifted shifts code = (code + s.offset).toNat :=
  shifted_of_ordered (List.isChain_iff_pairwise.mp h.ordered) hs hcode

theorem lookup_of_mem (hs : s ∈ shifts) (hcode : s.run.contains code = true) :
    expansions.lookup code = none := by
  refine List.lookup_eq_none_iff.mpr fun e he => ?_
  have hapart := List.all_eq_true.mp (List.all_eq_true.mp h.apart e he) s hs
  have hbounds := hcode
  simp only [Run.contains, Bool.and_eq_true, decide_eq_true_eq] at hbounds
  simp only [Bool.or_eq_true, Nat.blt_eq, Bool.not_eq_true'] at hapart
  have hne : e.1 ≠ code := by
    rintro rfl
    rcases hapart with (hlow | hhigh) | hout
    · omega
    · omega
    · rw [hcode] at hout
      cases hout
  simpa using hne.symm

/-- What a shift leads to is a character. -/
theorem toNat_ofNat_of_mem (hs : s ∈ shifts) (hcode : s.run.contains code = true) :
    (Char.ofNat (code + s.offset).toNat).toNat = (code + s.offset).toNat := by
  have hvalid := List.all_eq_true.mp h.valid s hs
  simp only [Run.contains, Bool.and_eq_true, decide_eq_true_eq] at hcode
  simp only [Bool.and_eq_true, Bool.or_eq_true, decide_eq_true_eq, Nat.blt_eq, Nat.ble_eq] at hvalid
  have hcharacter : (code + s.offset).toNat.isValidChar := by
    rcases hvalid.2 with hlast | ⟨hfirst, hlast⟩
    · exact .inl (by omega)
    · exact .inr ⟨by omega, by omega⟩
  have hofNat : Char.ofNat (code + s.offset).toNat = Char.ofNatAux _ hcharacter :=
    dif_pos hcharacter
  rw [hofNat]
  rfl

theorem toNat_simple {c : Char} (hs : s ∈ shifts) (hcode : s.run.contains c.toNat = true) :
    ((simple shifts expansions c).toNat : Int) = c.toNat + s.offset := by
  have hmapped : mapped shifts expansions c = [Char.ofNat (c.toNat + s.offset).toNat] := by
    rw [mapped, h.lookup_of_mem hs hcode, h.shifted_of_mem hs hcode]
  have hvalid := List.all_eq_true.mp h.valid s hs
  simp only [Bool.and_eq_true, decide_eq_true_eq] at hvalid
  rw [simple, hmapped]
  simp only [h.toNat_ofNat_of_mem hs hcode]
  simp only [Run.contains, Bool.and_eq_true, decide_eq_true_eq] at hcode
  omega

/-- A character stays as it is, or a shift moves it. -/
theorem simple_cases (c : Char) : simple shifts expansions c = c ∨
    ∃ s ∈ shifts, s.run.contains c.toNat = true ∧
      ((simple shifts expansions c).toNat : Int) = c.toNat + s.offset := by
  cases hlookup : expansions.lookup c.toNat with
  | some codes =>
    obtain ⟨before, after, hsplit, -⟩ := List.lookup_eq_some_iff.mp hlookup
    have hseveral := List.all_eq_true.mp h.several (c.toNat, codes) (by simp [hsplit])
    left
    rw [simple, mapped, hlookup]
    obtain _ | ⟨first, _ | ⟨second, rest⟩⟩ := codes
    · cases hseveral
    · cases hseveral
    · rfl
  | none =>
    rcases shifted_cases shifts c.toNat with hsame | ⟨s, hs, hcode, -⟩
    · left
      rw [simple, mapped, hlookup, hsame]
      exact Char.ofNat_toNat c
    · exact .inr ⟨s, hs, hcode, h.toNat_simple hs hcode⟩

end Orderly

/-- The second shift leads back from where the first one leads. -/
def Shift.undoneBy (s r : Shift) : Bool :=
  (s.run.first + s.offset).toNat.beq r.run.first && decide (r.offset = -s.offset) &&
    decide (0 ≤ s.run.first + s.offset) && decide (s.run.last + s.offset ≤ r.run.last) &&
    r.run.step.beq s.run.step

theorem contains_of_undoneBy {target : Nat} (h : s.undoneBy r = true)
    (hcode : s.run.contains code = true) (htarget : (target : Int) = code + s.offset) :
    r.run.contains target = true := by
  simp only [Shift.undoneBy, Bool.and_eq_true, decide_eq_true_eq] at h
  obtain ⟨⟨⟨⟨hfirst, -⟩, hpositive⟩, hlast⟩, hstep⟩ := h
  replace hfirst := Nat.eq_of_beq_eq_true hfirst
  simp only [Run.contains, Bool.and_eq_true, decide_eq_true_eq, beq_iff_eq] at hcode ⊢
  rw [Nat.eq_of_beq_eq_true hstep, show target - r.run.first = code - s.run.first by omega]
  exact ⟨⟨by omega, by omega⟩, hcode.2⟩

/-- What one table does, the other one undoes. -/
theorem Orderly.simple_of_undoneBy (h : Orderly shifts expansions) (hr : r ∈ shifts)
    (hundone : s.undoneBy r = true) {c d : Char} (hcode : s.run.contains c.toNat = true)
    (hd : (d.toNat : Int) = c.toNat + s.offset) : simple shifts expansions d = c := by
  have hback := h.toNat_simple hr (contains_of_undoneBy hundone hcode hd)
  simp only [Shift.undoneBy, Bool.and_eq_true, decide_eq_true_eq] at hundone
  refine Char.toNat_inj.mp ?_
  omega

end Tables

theorem orderly_lower : Orderly lowerShifts lowerExpansions where
  ordered := by decide +kernel
  apart := by decide +kernel
  several := by decide +kernel
  valid := by decide +kernel

theorem orderly_upper : Orderly upperShifts upperExpansions where
  ordered := by decide +kernel
  apart := by decide +kernel
  several := by decide +kernel
  valid := by decide +kernel


theorem fold_fold (c : Char) : fold (fold c) = fold c := by
  have hsettled : ∀ l, lower c = [l] → fold l = l := by
    intro l hl
    have hlower : lower l = [l] := lower_of_mem_lower (by rw [hl]; exact List.mem_singleton_self l)
    rw [fold, hlower]
  by_cases hone : ∃ l, lower c = [l]
  · obtain ⟨l, hl⟩ := hone
    have hfold : fold c = l := by rw [fold, hl]
    rw [hfold, hsettled l hl]
  · have hsame : fold c = c := by
      unfold fold
      split
      · rename_i l hl
        exact absurd ⟨l, hl⟩ hone
      · rfl
    rw [hsame, hsame]

/-- Pairs of characters with one fold of which the second is neither the fold nor the simple upper
case of the first, by their code points. -/
def overlooked : List (Nat × Nat) :=
  [(0x4b, 0x212a), (0x6b, 0x212a), (0x212a, 0x4b), (0xc5, 0x212b), (0xe5, 0x212b), (0x212b, 0xc5),
    (0xdf, 0x1e9e), (0x1c4, 0x1c5), (0x1c6, 0x1c5), (0x1c7, 0x1c8), (0x1c9, 0x1c8), (0x1ca, 0x1cb),
    (0x1cc, 0x1cb), (0x1f1, 0x1f2), (0x1f3, 0x1f2), (0x398, 0x3f4), (0x3b8, 0x3f4), (0x3f4, 0x398),
    (0x3a9, 0x2126), (0x3c9, 0x2126), (0x2126, 0x3a9), (0x1fb3, 0x1fbc), (0x1fc3, 0x1fcc),
    (0x1ff3, 0x1ffc), (0x1f80, 0x1f88), (0x1f81, 0x1f89), (0x1f82, 0x1f8a), (0x1f83, 0x1f8b),
    (0x1f84, 0x1f8c), (0x1f85, 0x1f8d), (0x1f86, 0x1f8e), (0x1f87, 0x1f8f), (0x1f90, 0x1f98),
    (0x1f91, 0x1f99), (0x1f92, 0x1f9a), (0x1f93, 0x1f9b), (0x1f94, 0x1f9c), (0x1f95, 0x1f9d),
    (0x1f96, 0x1f9e), (0x1f97, 0x1f9f), (0x1fa0, 0x1fa8), (0x1fa1, 0x1fa9), (0x1fa2, 0x1faa),
    (0x1fa3, 0x1fab), (0x1fa4, 0x1fac), (0x1fa5, 0x1fad), (0x1fa6, 0x1fae), (0x1fa7, 0x1faf)]

/-- Characters with a simple upper case of another fold, and that upper case, by their code
points. -/
def conflated : List (Nat × Nat) :=
  [(0xb5, 0x39c), (0x131, 0x49), (0x17f, 0x53), (0x345, 0x399), (0x3c2, 0x3a3), (0x3d0, 0x392),
    (0x3d1, 0x398), (0x3d5, 0x3a6), (0x3d6, 0x3a0), (0x3f0, 0x39a), (0x3f1, 0x3a1), (0x3f5, 0x395),
    (0x1c80, 0x412), (0x1c81, 0x414), (0x1c82, 0x41e), (0x1c83, 0x421), (0x1c84, 0x422),
    (0x1c85, 0x422), (0x1c86, 0x42a), (0x1c87, 0x462), (0x1c88, 0xa64a), (0x1e9b, 0x1e60),
    (0x1fbe, 0x399)]

theorem overlooked_chars : (overlooked.all fun p =>
    let l := (fold (Char.ofNat p.1)).toNat
    l.beq (fold (Char.ofNat p.2)).toNat && !p.2.beq p.1 && !p.2.beq l &&
      !p.2.beq (unfold (Char.ofNat p.1)).toNat) = true := by
  decide +kernel

theorem conflated_chars : (conflated.all fun p =>
    p.2.beq (unfold (Char.ofNat p.1)).toNat &&
      !(fold (Char.ofNat p.1)).toNat.beq (fold (Char.ofNat p.2)).toNat) = true := by
  decide +kernel

section Pairs

variable {c d : Char}

theorem overlooked_apart (h : (c.toNat, d.toNat) ∈ overlooked) :
    fold c = fold d ∧ d ≠ c ∧ d ≠ fold c ∧ d ≠ unfold c := by
  have hpair := List.all_eq_true.mp overlooked_chars _ h
  simp only [Char.ofNat_toNat, Bool.and_eq_true, Bool.not_eq_true'] at hpair
  obtain ⟨⟨⟨hfold, hself⟩, hlower⟩, hupper⟩ := hpair
  refine ⟨Char.toNat_inj.mp (Nat.eq_of_beq_eq_true hfold), ?_, ?_, ?_⟩
  · exact fun heq => Nat.ne_of_beq_eq_false hself (congrArg Char.toNat heq)
  · exact fun heq => Nat.ne_of_beq_eq_false hlower (congrArg Char.toNat heq)
  · exact fun heq => Nat.ne_of_beq_eq_false hupper (congrArg Char.toNat heq)

theorem conflated_apart (h : (c.toNat, d.toNat) ∈ conflated) : d = unfold c ∧ fold c ≠ fold d := by
  have hpair := List.all_eq_true.mp conflated_chars _ h
  simp only [Char.ofNat_toNat, Bool.and_eq_true, Bool.not_eq_true'] at hpair
  obtain ⟨hupper, hfold⟩ := hpair
  refine ⟨Char.toNat_inj.mp (Nat.eq_of_beq_eq_true hupper), ?_⟩
  exact fun heq => Nat.ne_of_beq_eq_false hfold (congrArg Char.toNat heq)

end Pairs

/-- A shift is undone by one of the others, or it moves few code points, which are checked one by
one. -/
def Shift.undoneIn (others : List Shift) (check : Nat → Nat → Bool) (s : Shift) : Bool :=
  others.any (s.undoneBy ·) || s.run.codes.all fun code => check code (code + s.offset).toNat

section Inverses

variable {shifts shifts' : List Shift} {expansions expansions' : List (Nat × List Nat)}

/-- Where one table does not undo the other one, the check has been made. -/
theorem Orderly.simple_simple (h : Orderly shifts expansions) (h' : Orderly shifts' expansions')
    {check : Nat → Nat → Bool} (hchecked : shifts.all (Shift.undoneIn shifts' check) = true)
    (c : Char) :
    simple shifts expansions c = c ∨
      simple shifts' expansions' (simple shifts expansions c) = c ∨
      check c.toNat (simple shifts expansions c).toNat = true := by
  rcases h.simple_cases c with hsame | ⟨s, hs, hcode, hmoved⟩
  · exact .inl hsame
  · right
    rcases (Bool.or_eq_true _ _).mp (List.all_eq_true.mp hchecked s hs) with hundone | hcodes
    · obtain ⟨r, hr, hundone⟩ := List.any_eq_true.mp hundone
      exact .inl (h'.simple_of_undoneBy hr hundone hcode hmoved)
    · right
      have hone := List.all_eq_true.mp hcodes c.toNat (Run.mem_codes hcode)
      rwa [← hmoved, Int.toNat_natCast] at hone

end Inverses

/-- The simple upper case of a character has the fold of the character, but for a few old letter
forms. -/
theorem fold_unfold (c : Char) :
    fold (unfold c) = fold c ∨ (c.toNat, (unfold c).toNat) ∈ conflated := by
  have hchecked : upperShifts.all (Shift.undoneIn lowerShifts fun code target =>
      conflated.contains (code, target) ||
        (fold (Char.ofNat target)).toNat.beq (fold (Char.ofNat code)).toNat) = true := by
    decide +kernel
  rcases orderly_upper.simple_simple orderly_lower hchecked c with hsame | hback | hcheck
  · left
    rw [unfold_eq, hsame]
  · left
    have hfold : fold (unfold c) = c := hback
    rw [← fold_fold (unfold c), hfold]
  · simp only [← unfold_eq, Char.ofNat_toNat, Bool.or_eq_true, List.contains_iff_mem,
      Nat.beq_eq] at hcheck
    exact hcheck.symm.imp_left Char.toNat_inj.mp

/-- A character is its fold or the simple upper case of its fold, but for a few symbols and title
cases. -/
theorem unfold_fold (c : Char) :
    fold c = c ∨ unfold (fold c) = c ∨ ((fold c).toNat, c.toNat) ∈ overlooked := by
  have hchecked : lowerShifts.all (Shift.undoneIn upperShifts fun code target =>
      overlooked.contains (target, code) ||
        (unfold (Char.ofNat target)).toNat.beq code) = true := by
    decide +kernel
  rcases orderly_lower.simple_simple orderly_upper hchecked c with hsame | hback | hcheck
  · exact .inl hsame
  · exact .inr (.inl hback)
  · simp only [← fold_eq, Char.ofNat_toNat, Bool.or_eq_true, List.contains_iff_mem,
      Nat.beq_eq] at hcheck
    exact .inr (hcheck.symm.imp_left Char.toNat_inj.mp)

/-- The code points other than `code` whose simple lower case it is. -/
def capitals (code : Nat) : List Nat :=
  lowerShifts.filterMap fun s =>
    let before := ((code : Int) - s.offset).toNat
    if s.run.contains before then some before else none

theorem mem_capitals {c : Char} (h : fold c ≠ c) : c.toNat ∈ capitals (fold c).toNat := by
  rcases orderly_lower.simple_cases c with hsame | ⟨s, hs, hcode, hmoved⟩
  · exact absurd hsame h
  · have hbefore : (((fold c).toNat : Int) - s.offset).toNat = c.toNat := by
      rw [fold_eq, hmoved]
      omega
    refine List.mem_filterMap.mpr ⟨s, hs, ?_⟩
    simp only [hbefore, hcode, if_true]

/-- Two characters with another fold in common, of which one has been overlooked. -/
theorem overlooked_capitals {c d : Char} (hfold : fold c = fold d) (hc : fold c ≠ c)
    (hd : fold d ≠ d) {code : Nat} (h : ((fold c).toNat, code) ∈ overlooked) :
    d = c ∨ d = unfold c ∨ (c.toNat, d.toNat) ∈ overlooked := by
  have hchecked : (overlooked.all fun p => (capitals p.1).all fun c => (capitals p.1).all fun d =>
      d.beq c || overlooked.contains (c, d) || d.beq (unfold (Char.ofNat c)).toNat) = true := by
    decide +kernel
  have hpair := List.all_eq_true.mp hchecked _ h
  have hpair := List.all_eq_true.mp hpair c.toNat (mem_capitals hc)
  have hpair := List.all_eq_true.mp hpair d.toNat (hfold ▸ mem_capitals hd)
  simp only [Char.ofNat_toNat, Bool.or_eq_true, List.contains_iff_mem, Nat.beq_eq] at hpair
  rcases hpair with (hsame | hmem) | hupper
  · exact .inl (Char.toNat_inj.mp hsame)
  · exact .inr (.inr hmem)
  · exact .inr (.inl (Char.toNat_inj.mp hupper))

/-- The characters that one fold makes the same, and those that are tried in its place. -/
theorem named_iff (c d : Char) : (d = c ∨ d = fold c ∨ d = unfold c) ↔
    (fold c = fold d ∧ (c.toNat, d.toNat) ∉ overlooked) ∨ (c.toNat, d.toNat) ∈ conflated := by
  constructor
  · intro hnamed
    have hnot : (c.toNat, d.toNat) ∉ overlooked := by
      intro hmem
      obtain ⟨-, hself, hlower, hupper⟩ := overlooked_apart hmem
      rcases hnamed with h | h | h
      · exact hself h
      · exact hlower h
      · exact hupper h
    rcases hnamed with rfl | rfl | rfl
    · exact .inl ⟨rfl, hnot⟩
    · exact .inl ⟨(fold_fold c).symm, hnot⟩
    · exact (fold_unfold c).imp_left fun hfold => ⟨hfold.symm, hnot⟩
  · rintro (⟨hfold, hnot⟩ | hmem)
    · by_cases hlower : d = fold c
      · exact .inr (.inl hlower)
      have hd : fold d ≠ d := fun hsame => hlower (hsame.symm.trans hfold.symm)
      by_cases hc : fold c = c
      · rcases unfold_fold d with hsame | hback | hmem
        · exact absurd hsame hd
        · rw [← hfold, hc] at hback
          exact .inr (.inr hback.symm)
        · rw [← hfold, hc] at hmem
          exact absurd hmem hnot
      -- Neither is its own fold, so one of the two is not the upper case of that.
      have hcapitals : ∀ {code : Nat}, ((fold c).toNat, code) ∈ overlooked →
          d = c ∨ d = fold c ∨ d = unfold c := by
        intro code hmem
        rcases overlooked_capitals hfold hc hd hmem with hsame | hupper | hmem
        · exact .inl hsame
        · exact .inr (.inr hupper)
        · exact absurd hmem hnot
      rcases unfold_fold c with hsame | hback | hmem
      · exact absurd hsame hc
      · rcases unfold_fold d with hsame | hback' | hmem
        · exact absurd hsame hd
        · rw [← hfold] at hback'
          exact .inl (hback'.symm.trans hback)
        · rw [← hfold] at hmem
          exact hcapitals hmem
      · exact hcapitals hmem
    · exact .inr (.inr (conflated_apart hmem).1)

end VbaWorkbench.Character
