import Mathlib.Data.List.Chain
import VbaWorkbench.Character.Letter
import VbaWorkbench.Character.Number
import VbaWorkbench.Proofs.Character.Mapping

namespace VbaWorkbench.Character

namespace Runs

/-- One run holds all code points from `first` to `last`. -/
def covers (runs : Runs) (first last : Nat) : Bool :=
  runs.any fun run => last.ble run.last && run.first.ble first && run.step.beq 1

/-- Runs in order, of code points that are characters. -/
structure Proper (runs : Runs) : Prop where
  ordered : (runs.map Run.first).IsChain (· ≤ ·)
  valid : (runs.all fun run =>
    run.last.blt 0xd800 || (Nat.ble 0xe000 run.first && run.last.blt 0x110000)) = true

namespace Proper

variable {runs : Runs} {code : Nat}

theorem contains_of_mem (h : Proper runs) {run : Run} (hrun : run ∈ runs)
    (hcode : run.contains code = true) : runs.contains code = true := by
  have hordered := List.pairwise_map.mp (List.isChain_iff_pairwise.mp h.ordered)
  clear h
  induction runs with
  | nil => cases hrun
  | cons other runs ih =>
    obtain ⟨hother, hruns⟩ := List.pairwise_cons.mp hordered
    have hfirst : other.first ≤ code := by
      have hle : run.first ≤ code := by
        simp only [Run.contains, Bool.and_eq_true, decide_eq_true_eq] at hcode
        exact hcode.1.1
      rcases List.mem_cons.mp hrun with rfl | hrun
      · exact hle
      · exact Nat.le_trans (hother run hrun) hle
    rw [contains, if_neg (Nat.not_lt.mpr hfirst), Bool.or_eq_true]
    rcases List.mem_cons.mp hrun with rfl | hrun
    · exact .inl hcode
    · exact .inr (ih hrun hruns)

theorem contains_of_covers (h : Proper runs) {first last : Nat}
    (hcovers : runs.covers first last = true) (hfirst : first ≤ code) (hlast : code ≤ last) :
    runs.contains code = true := by
  obtain ⟨run, hrun, hbounds⟩ := List.any_eq_true.mp hcovers
  simp only [Bool.and_eq_true] at hbounds
  obtain ⟨⟨hhigh, hlow⟩, hstep⟩ := hbounds
  refine h.contains_of_mem hrun ?_
  simp only [Run.contains, Nat.eq_of_beq_eq_true hstep, Nat.mod_one, Bool.and_eq_true,
    decide_eq_true_eq, beq_self_eq_true, and_true]
  exact ⟨Nat.le_trans (Nat.le_of_ble_eq_true hlow) hfirst,
    Nat.le_trans hlast (Nat.le_of_ble_eq_true hhigh)⟩

/-- The code points of the runs are those of characters. -/
theorem holds_ofNat (h : Proper runs) (hcode : runs.contains code = true) :
    runs.holds (Char.ofNat code) = true := by
  obtain ⟨run, hrun, hin⟩ := exists_of_contains hcode
  have hvalid := List.all_eq_true.mp h.valid run hrun
  simp only [Bool.or_eq_true, Bool.and_eq_true, Nat.blt_eq, Nat.ble_eq] at hvalid
  simp only [Run.contains, Bool.and_eq_true, decide_eq_true_eq] at hin
  have hcharacter : code.isValidChar := by
    rcases hvalid with hlast | ⟨hfirst, hlast⟩
    · exact .inl (by omega)
    · exact .inr ⟨by omega, by omega⟩
  have htoNat : (Char.ofNat code).toNat = code := by
    have hofNat : Char.ofNat code = Char.ofNatAux code hcharacter := dif_pos hcharacter
    rw [hofNat]
    rfl
  rw [holds, htoNat, hcode]

end Proper

end Runs

theorem proper_letterRuns : Runs.Proper letterRuns where
  ordered := by decide +kernel
  valid := by decide +kernel

theorem proper_numberRuns : Runs.Proper numberRuns where
  ordered := by decide +kernel
  valid := by decide +kernel

section Tables

variable {except : List Nat} {shifts : List Shift} {expansions : List (Nat × List Nat)}

/-- The tables take letters to letters and numbers to numbers, except for some code points. -/
structure Keeps (except : List Nat) (shifts : List Shift) (expansions : List (Nat × List Nat)) :
    Prop where
  shifted : (shifts.all fun s =>
    letterRuns.covers (s.run.first + s.offset).toNat (s.run.last + s.offset).toNat ||
      (s.run.avoids letterRuns && s.run.avoids numberRuns) ||
      s.run.codes.all fun code => except.contains code ||
        ((!letterRuns.contains code || letterRuns.contains (code + s.offset).toNat) &&
          (!numberRuns.contains code || numberRuns.contains (code + s.offset).toNat))) = true
  expanded : (expansions.all fun e => except.contains e.1 || e.2.all letterRuns.contains) = true

/-- A number may become a letter, and a letter stays one. -/
theorem Keeps.mapped (h : Keeps except shifts expansions) {c d : Char} (hc : c.toNat ∉ except)
    (hd : d ∈ Character.mapped shifts expansions c) :
    (isLetter c = true → isLetter d = true) ∧
      (isNumber c = true → isLetter d = true ∨ isNumber d = true) := by
  have hletter : ∀ {c d : Char}, isLetter d = true → (isLetter c = true → isLetter d = true) ∧
      (isNumber c = true → isLetter d = true ∨ isNumber d = true) :=
    fun hd => ⟨fun _ => hd, fun _ => .inl hd⟩
  refine mapped_forall (P := fun c cs => c.toNat ∉ except → ∀ d ∈ cs,
    (isLetter c = true → isLetter d = true) ∧
      (isNumber c = true → isLetter d = true ∨ isNumber d = true)) ?_ ?_ ?_ c hc d hd
  · intro e he c hc hexcept d hd
    obtain ⟨code, hmem, rfl⟩ := List.mem_map.mp hd
    rcases (Bool.or_eq_true _ _).mp (List.all_eq_true.mp h.expanded e he) with he | hcodes
    · exact absurd (List.contains_iff_mem.mp he) (hc ▸ hexcept)
    · exact hletter (proper_letterRuns.holds_ofNat (List.all_eq_true.mp hcodes code hmem))
  · intro s hs c hcode hexcept
    refine List.forall_mem_singleton.mpr ?_
    have hshift := List.all_eq_true.mp h.shifted s hs
    simp only [Bool.or_eq_true, Bool.and_eq_true] at hshift
    rcases hshift with (hcovers | ⟨hletters, hnumbers⟩) | hcodes
    · have hbounds := hcode
      simp only [Run.contains, Bool.and_eq_true, decide_eq_true_eq] at hbounds
      exact hletter (proper_letterRuns.holds_ofNat
        (proper_letterRuns.contains_of_covers hcovers (by omega) (by omega)))
    · refine ⟨fun hl => ?_, fun hn => ?_⟩
      · rw [isLetter, Runs.holds, Run.not_contains_of_avoids hletters hcode] at hl
        cases hl
      · rw [isNumber, Runs.holds, Run.not_contains_of_avoids hnumbers hcode] at hn
        cases hn
    · have hcase := List.all_eq_true.mp hcodes c.toNat (Run.mem_codes hcode)
      simp only [Bool.or_eq_true, Bool.and_eq_true, Bool.not_eq_true', List.contains_iff_mem,
        hexcept, false_or] at hcase
      refine ⟨fun hl => proper_letterRuns.holds_ofNat (hcase.1.resolve_left ?_),
        fun hn => .inr (proper_numberRuns.holds_ofNat (hcase.2.resolve_left ?_))⟩
      · rw [show letterRuns.contains c.toNat = true from hl]
        exact Bool.noConfusion
      · rw [show numberRuns.contains c.toNat = true from hn]
        exact Bool.noConfusion
  · exact fun c _ _ => List.forall_mem_singleton.mpr ⟨id, .inr⟩

end Tables

/-- Small letters whose capital is no letter or is written with a mark that is none. -/
def uncapitalized : List Nat := [
  0x1f0, 0x390, 0x3b0, 0x1e96, 0x1e97, 0x1e98, 0x1e99, 0x1f50, 0x1f52, 0x1f54, 0x1f56, 0x1fb6,
  0x1fb7, 0x1fc6, 0x1fc7, 0x1fd2, 0x1fd3, 0x1fd6, 0x1fd7, 0x1fe2, 0x1fe3, 0x1fe4, 0x1fe6, 0x1fe7,
  0x1ff6, 0x1ff7, 0xa7d3, 0xa7d5]

theorem keeps_upper : Keeps uncapitalized upperShifts upperExpansions where
  shifted := by decide +kernel
  expanded := by decide +kernel

/-- A capital I with a dot is the only letter whose small form is written with a mark. -/
theorem keeps_lower : Keeps [0x130] lowerShifts lowerExpansions where
  shifted := by decide +kernel
  expanded := by decide +kernel

/-- What the capital of such a letter is written with. -/
theorem exists_mark_of_uncapitalized {c : Char} (h : c.toNat ∈ uncapitalized) :
    ∃ d ∈ upper c, isLetter d = false ∧ isNumber d = false ∧ d ≠ '_' := by
  have hall : (uncapitalized.all fun code => (upper (Char.ofNat code)).any fun d =>
      !isLetter d && !isNumber d && d != '_') = true := by decide +kernel
  have hmark := List.all_eq_true.mp hall c.toNat h
  rw [Char.ofNat_toNat] at hmark
  simpa [and_assoc] using hmark

end VbaWorkbench.Character
