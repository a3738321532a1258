import VbaWorkbench.Character.LetterCase
import VbaWorkbench.Proofs.Text.CaseMapping

namespace VbaWorkbench.Character

namespace Run

/-- The code points of a run, one by one. -/
def codes (run : Run) : List Nat :=
  (List.range ((run.last - run.first) / run.step + 1)).map fun i => run.first + run.step * i

theorem mem_codes {run : Run} {code : Nat} (h : run.contains code = true) : code ∈ run.codes := by
  simp only [contains, Bool.and_eq_true, decide_eq_true_eq, beq_iff_eq] at h
  obtain ⟨⟨hfirst, hlast⟩, hstep⟩ := h
  refine List.mem_map.mpr ⟨(code - run.first) / run.step, List.mem_range.mpr ?_, ?_⟩
  · exact Nat.lt_succ_of_le (Nat.div_le_div_right (Nat.sub_le_sub_right hlast _))
  · rw [Nat.mul_div_cancel' (Nat.dvd_of_mod_eq_zero hstep)]
    omega

/-- No code point of `run` that is moved by `offset` comes to be in `other`. The code points are looked
at one by one only if the runs lie across each other. -/
def apart (offset : Int) (run other : Run) : Bool :=
  Nat.blt (run.last + offset).toNat other.first || Nat.blt other.last (run.first + offset).toNat ||
    run.codes.all fun code => !other.contains (code + offset).toNat

theorem contains_of_apart {offset : Int} {run other : Run} {code : Nat}
    (h : apart offset run other = true) (hcode : run.contains code = true) :
    other.contains (code + offset).toNat = false := by
  have hbounds := hcode
  simp only [contains, Bool.and_eq_true, decide_eq_true_eq] at hbounds
  simp only [apart, Bool.or_eq_true, Nat.blt_eq] at h
  rcases h with (h | h) | h
  · simp only [contains, Bool.and_eq_false_iff, decide_eq_false_iff_not]
    omega
  · simp only [contains, Bool.and_eq_false_iff, decide_eq_false_iff_not]
    omega
  · simpa using List.all_eq_true.mp h code (mem_codes hcode)

end Run

theorem exists_of_contains {runs : Runs} {code : Nat} (h : runs.contains code = true) :
    ∃ run ∈ runs, run.contains code = true := by
  induction runs with
  | nil => cases h
  | cons run runs ih =>
    rw [Runs.contains] at h
    split at h
    · cases h
    · rcases (Bool.or_eq_true _ _).mp h with h | h
      · exact ⟨run, List.mem_cons_self, h⟩
      · obtain ⟨other, hother, h⟩ := ih h
        exact ⟨other, List.mem_cons_of_mem _ hother, h⟩

/-- No code point of the run is in any of the others. -/
def Run.avoids (run : Run) (runs : Runs) : Bool :=
  runs.all fun other => run.apart 0 other

theorem Run.not_contains_of_avoids {run : Run} {runs : Runs} {code : Nat}
    (h : run.avoids runs = true) (hcode : run.contains code = true) : runs.contains code = false := by
  refine Bool.eq_false_iff.mpr fun hin => ?_
  obtain ⟨other, hother, hin⟩ := exists_of_contains hin
  have hout := contains_of_apart (List.all_eq_true.mp h other hother) hcode
  rw [Int.add_zero, Int.toNat_natCast, hin] at hout
  cases hout

theorem shifted_cases (shifts : List Shift) (code : Nat) :
    shifted shifts code = code ∨
      ∃ s ∈ shifts, s.run.contains code = true ∧ shifted shifts code = (code + s.offset).toNat := by
  induction shifts with
  | nil => exact .inl rfl
  | cons s shifts ih =>
    rw [shifted]
    split
    · exact .inl rfl
    split
    · rename_i hrun
      exact .inr ⟨s, List.mem_cons_self, hrun, rfl⟩
    · rcases ih with h | ⟨s', hs', hcode, h⟩
      · exact .inl h
      · exact .inr ⟨s', List.mem_cons_of_mem _ hs', hcode, h⟩

section Tables

variable {shifts : List Shift} {expansions : List (Nat × List Nat)}

/-- What holds of every entry of the tables, and of the characters that stay as they are, holds of the
whole mapping. -/
theorem mapped_forall {P : Char → List Char → Prop}
    (hexpansions : ∀ e ∈ expansions, ∀ c : Char, c.toNat = e.1 → P c (e.2.map Char.ofNat))
    (hshifts : ∀ s ∈ shifts, ∀ c : Char, s.run.contains c.toNat = true →
      P c [Char.ofNat (c.toNat + s.offset).toNat])
    (hsame : ∀ c, mapped shifts expansions c = [c] → P c [c]) (c : Char) :
    P c (mapped shifts expansions c) := by
  cases hlookup : expansions.lookup c.toNat with
  | some codes =>
    obtain ⟨before, after, hsplit, -⟩ := List.lookup_eq_some_iff.mp hlookup
    rw [mapped, hlookup]
    exact hexpansions (c.toNat, codes) (by simp [hsplit]) c rfl
  | none =>
    have hmapped : mapped shifts expansions c = [Char.ofNat (shifted shifts c.toNat)] := by
      rw [mapped, hlookup]
    rcases shifted_cases shifts c.toNat with h | ⟨s, hs, hcode, h⟩
    · rw [h, Char.ofNat_toNat] at hmapped
      rw [hmapped]
      exact hsame c hmapped
    · rw [hmapped, h]
      exact hshifts s hs c hcode

/-- No entry of the tables is about the code point. -/
def unmoved (shifts : List Shift) (expansions : List (Nat × List Nat)) (code : Nat) : Bool :=
  (shifts.all fun s => !s.run.contains code) && expansions.all fun e => !e.1.beq code

theorem mapped_of_unmoved {c : Char} (h : unmoved shifts expansions c.toNat = true) :
    mapped shifts expansions c = [c] := by
  simp only [unmoved, Bool.and_eq_true, List.all_eq_true, Bool.not_eq_true'] at h
  obtain ⟨hshifts, hexpansions⟩ := h
  have hlookup : expansions.lookup c.toNat = none := by
    refine List.lookup_eq_none_iff.mpr fun e he => ?_
    have hne := Nat.ne_of_beq_eq_false (hexpansions e he)
    simpa using Ne.symm hne
  rcases shifted_cases shifts c.toNat with hsame | ⟨s, hs, hcode, -⟩
  · rw [mapped, hlookup, hsame]
    exact congrArg (fun c => [c]) (Char.ofNat_toNat c)
  · rw [hshifts s hs] at hcode
    cases hcode

/-- What the tables map to stays as it is when it is mapped again. -/
structure Settled (shifts : List Shift) (expansions : List (Nat × List Nat)) : Prop where
  zero : unmoved shifts expansions 0 = true
  shifted : (shifts.all fun s => shifts.all fun other => s.run.apart s.offset other.run) = true
  expanded : (shifts.all fun s => expansions.all fun e => s.run.apart s.offset ⟨e.1, e.1, 1⟩) = true
  expansion : (expansions.all fun e => e.2.all (unmoved shifts expansions)) = true

theorem Settled.unmoved_of_shift (h : Settled shifts expansions) {s : Shift} (hs : s ∈ shifts)
    {code : Nat} (hcode : s.run.contains code = true) :
    unmoved shifts expansions (code + s.offset).toNat = true := by
  simp only [unmoved, Bool.and_eq_true, List.all_eq_true, Bool.not_eq_true']
  refine ⟨fun other hother => ?_, fun e he => ?_⟩
  · have hapart := List.all_eq_true.mp (List.all_eq_true.mp h.shifted s hs) other hother
    exact Run.contains_of_apart hapart hcode
  · have hapart := List.all_eq_true.mp (List.all_eq_true.mp h.expanded s hs) e he
    refine Bool.eq_false_iff.mpr fun heq => ?_
    have hsingle := Run.contains_of_apart hapart hcode
    rw [← Nat.eq_of_beq_eq_true heq] at hsingle
    simp [Run.contains] at hsingle

theorem Settled.mapped_of_mem (h : Settled shifts expansions) {c d : Char}
    (hd : d ∈ mapped shifts expansions c) : mapped shifts expansions d = [d] := by
  have hcode : ∀ code, unmoved shifts expansions code = true →
      mapped shifts expansions (Char.ofNat code) = [Char.ofNat code] := by
    intro code hcode
    refine mapped_of_unmoved ?_
    rcases toNat_ofNat code with heq | heq
    · rwa [heq]
    · rw [heq]
      exact h.zero
  refine mapped_forall (P := fun _ cs => ∀ d ∈ cs, mapped shifts expansions d = [d]) ?_ ?_ ?_ c d hd
  · intro e he c hc d hd
    obtain ⟨code, hmem, rfl⟩ := List.mem_map.mp hd
    exact hcode code (List.all_eq_true.mp (List.all_eq_true.mp h.expansion e he) code hmem)
  · intro s hs c hc
    exact List.forall_mem_singleton.mpr (hcode _ (h.unmoved_of_shift hs hc))
  · exact fun c hc => List.forall_mem_singleton.mpr hc

end Tables

theorem settled_lower : Settled lowerShifts lowerExpansions where
  zero := by decide +kernel
  shifted := by decide +kernel
  expanded := by decide +kernel
  expansion := by decide +kernel

theorem settled_upper : Settled upperShifts upperExpansions where
  zero := by decide +kernel
  shifted := by decide +kernel
  expanded := by decide +kernel
  expansion := by decide +kernel

theorem lower_ne_nil (c : Char) : lower c ≠ [] := by
  have hexpansions : ∀ e ∈ lowerExpansions, e.2.map Char.ofNat ≠ [] := by decide
  exact mapped_forall (P := fun _ cs => cs ≠ []) (fun e he _ _ => hexpansions e he) (by simp)
    (by simp) c

theorem upper_ne_nil (c : Char) : upper c ≠ [] := by
  have hexpansions : ∀ e ∈ upperExpansions, e.2.map Char.ofNat ≠ [] := by decide
  exact mapped_forall (P := fun _ cs => cs ≠ []) (fun e he _ _ => hexpansions e he) (by simp)
    (by simp) c

theorem lower_of_mem_lower {c d : Char} (h : d ∈ lower c) : lower d = [d] :=
  settled_lower.mapped_of_mem h

theorem upper_of_mem_upper {c d : Char} (h : d ∈ upper c) : upper d = [d] :=
  settled_upper.mapped_of_mem h

/-- A capital is its own upper case. -/
theorem upper_of_isUppercase {c : Char} (h : isUppercase c = true) : upper c = [c] := by
  have hshifts : (upperShifts.all fun s => s.run.avoids uppercaseRuns) = true := by decide +kernel
  have hexpansions : (upperExpansions.all fun e => !uppercaseRuns.contains e.1) = true := by
    decide +kernel
  have hcontains : uppercaseRuns.contains c.toNat = true := h
  refine mapped_of_unmoved ?_
  simp only [unmoved, Bool.and_eq_true, List.all_eq_true, Bool.not_eq_true']
  refine ⟨fun s hs => Bool.eq_false_iff.mpr fun hrun => ?_, fun e he => Bool.eq_false_iff.mpr fun heq => ?_⟩
  · rw [Run.not_contains_of_avoids (List.all_eq_true.mp hshifts s hs) hrun] at hcontains
    cases hcontains
  · have hexpansion := List.all_eq_true.mp hexpansions e he
    rw [Nat.eq_of_beq_eq_true heq, hcontains] at hexpansion
    cases hexpansion

end VbaWorkbench.Character
