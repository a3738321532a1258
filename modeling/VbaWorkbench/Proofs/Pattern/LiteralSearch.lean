import VbaWorkbench.Proofs.Pattern.LiteralCode
import VbaWorkbench.Proofs.Pattern.Records
import VbaWorkbench.Proofs.Text.Occurrences

namespace VbaWorkbench

namespace Pattern

/-- The machine looks for a text and takes the case of letters as it is. -/
structure Machine.Literal (m : Machine) (needle : Text) : Prop where
  program : m.program = .literal needle
  ignoreCase : m.ignoreCase = false

namespace Machine.Literal

variable {m : Machine} {needle : Text}

theorem inst_char (h : m.Literal needle) {pc : Nat} {c : Char} (hc : needle[pc]? = some c) :
    m.program.insts[pc]? = some (.char c) := by
  have hlt : pc < (needle.map Inst.char).length := by
    rw [List.length_map]
    exact (List.getElem?_eq_some_iff.mp hc).1
  rw [h.program, Program.literal, List.getElem?_toArray, List.getElem?_append_left hlt,
    List.getElem?_map, hc]
  rfl

theorem inst_accept (h : m.Literal needle) : m.program.insts[needle.length]? = some .accept := by
  rw [h.program, Program.literal, List.getElem?_toArray,
    List.getElem?_append_right (by rw [List.length_map]), List.length_map, Nat.sub_self]
  rfl

theorem step_char (h : m.Literal needle) {c : Config} {d : Char} (hd : needle[c.pc]? = some d)
    (hstack : c.stack = []) :
    m.step c = if m.input.toList[c.pos]? = some d then
      .running { c with pc := c.pc + 1, pos := c.pos + 1 } else .failed := by
  have hsame : ∀ a, m.same a d = (a == d) := by
    intro a
    rw [Machine.same, h.ignoreCase, Bool.false_and, Bool.or_false]
  rw [Machine.step, h.inst_char hd]
  simp only [Machine.consume, hsame, Array.getElem?_toList]
  rw [Config.fail, hstack, Config.backtrack]
  cases m.input[c.pos]? with
  | none => simp
  | some a => simp

/-- The rest of the text is there, and the run takes a step for each of its characters. -/
theorem run_hit (h : m.Literal needle) {rest : Text} {c : Config} (hrest : rest = needle.drop c.pc)
    (hpc : c.pc ≤ needle.length) (hstack : c.stack = [])
    (hoccurs : OccursAt rest m.input.toList c.pos) (budget : Nat) :
    m.run (budget + (rest.length + 1)) c =
      (.accepted { c with pc := needle.length, pos := c.pos + rest.length }, budget) := by
  induction rest generalizing c with
  | nil =>
    have hend : c.pc = needle.length := by
      have := List.drop_eq_nil_iff.mp hrest.symm
      omega
    rw [List.length_nil, Nat.zero_add, Machine.run, Machine.step, hend, h.inst_accept]
    simp only [← hend, Nat.add_zero]
  | cons d rest ih =>
    have hd : needle[c.pc]? = some d := by rw [← List.head?_drop, ← hrest, List.head?_cons]
    obtain ⟨hhere, hlater⟩ := occursAt_cons_iff.mp hoccurs
    have hnext : rest = needle.drop (c.pc + 1) := by rw [← List.drop_drop, ← hrest]; rfl
    have hlt := (List.getElem?_eq_some_iff.mp hd).1
    rw [List.length_cons, ← Nat.add_assoc, Machine.run, h.step_char hd hstack, if_pos hhere]
    simp only
    rw [ih (c := { c with pc := c.pc + 1, pos := c.pos + 1 }) hnext hlt hstack hlater]
    simp only [Nat.add_assoc, Nat.add_comm 1]

/-- The rest of the text is not there, and the run notices in time. -/
theorem run_miss (h : m.Literal needle) {rest : Text} {c : Config} (hrest : rest = needle.drop c.pc)
    (hpc : c.pc ≤ needle.length) (hstack : c.stack = [])
    (habsent : ¬OccursAt rest m.input.toList c.pos) (budget : Nat) :
    ∃ left, budget ≤ left ∧ m.run (budget + (rest.length + 1)) c = (.failed, left) := by
  induction rest generalizing c with
  | nil => exact absurd (List.nil_prefix) habsent
  | cons d rest ih =>
    have hd : needle[c.pc]? = some d := by rw [← List.head?_drop, ← hrest, List.head?_cons]
    have hnext : rest = needle.drop (c.pc + 1) := by rw [← List.drop_drop, ← hrest]; rfl
    have hlt := (List.getElem?_eq_some_iff.mp hd).1
    rw [List.length_cons, ← Nat.add_assoc, Machine.run, h.step_char hd hstack]
    by_cases hhere : m.input.toList[c.pos]? = some d
    · rw [if_pos hhere]
      refine ih (c := { c with pc := c.pc + 1, pos := c.pos + 1 }) hnext hlt hstack ?_
      intro hlater
      exact habsent (occursAt_cons_iff.mpr ⟨hhere, hlater⟩)
    · rw [if_neg hhere]
      exact ⟨budget + (rest.length + 1), Nat.le_add_right _ _, rfl⟩

section Search

variable {start pos n budget total : Nat}

theorem starting_hit (h : m.Literal needle) (hoccurs : OccursAt needle m.input.toList start)
    (marks : Array Nat) (htotal : budget + (needle.length + 1) ≤ total) :
    ∃ c left, budget ≤ left ∧ m.run total (.starting m.program marks start) = (.accepted c, left) ∧
      m.found start c = ⟨start, start + needle.length, []⟩ := by
  obtain ⟨more, rfl⟩ := Nat.exists_eq_add_of_le htotal
  have hrun := h.run_hit (c := .starting m.program marks start) List.drop_zero.symm
    (Nat.zero_le _) rfl hoccurs (budget + more)
  rw [Nat.add_right_comm] at hrun
  refine ⟨_, budget + more, Nat.le_add_right _ _, hrun, ?_⟩
  rw [Machine.found, h.program]
  rfl

theorem starting_miss (h : m.Literal needle) (habsent : ¬OccursAt needle m.input.toList start)
    (marks : Array Nat) (htotal : budget + (needle.length + 1) ≤ total) :
    ∃ left, budget ≤ left ∧ m.run total (.starting m.program marks start) = (.failed, left) := by
  obtain ⟨more, rfl⟩ := Nat.exists_eq_add_of_le htotal
  obtain ⟨left, hleft, hrun⟩ := h.run_miss (c := .starting m.program marks start)
    List.drop_zero.symm (Nat.zero_le _) rfl habsent (budget + more)
  refine ⟨left, by omega, ?_⟩
  rw [← hrun, Nat.add_right_comm]

theorem searchFrom_absent (h : m.Literal needle)
    (habsent : ∀ pos, start ≤ pos → pos < start + n → ¬OccursAt needle m.input.toList pos)
    (marks : Array Nat) (htotal : budget + n * (needle.length + 1) ≤ total) :
    ∃ left, budget ≤ left ∧ m.searchFrom marks start total n = (.absent, left) := by
  induction n generalizing start total with
  | zero => exact ⟨total, by omega, rfl⟩
  | succ n ih =>
    rw [Nat.succ_mul, ← Nat.add_assoc] at htotal
    obtain ⟨left, hleft, hrun⟩ :=
      h.starting_miss (habsent start (Nat.le_refl start) (by omega)) marks htotal
    rw [searchFrom_succ, hrun]
    refine ih ?_ hleft
    intro pos hle hlt
    exact habsent pos (by omega) (by omega)

theorem searchFrom_found (h : m.Literal needle) (hle : start ≤ pos) (hlt : pos < start + n)
    (hoccurs : OccursAt needle m.input.toList pos)
    (hfirst : ∀ earlier, start ≤ earlier → earlier < pos → ¬OccursAt needle m.input.toList earlier)
    (marks : Array Nat) (htotal : budget + (pos + 1 - start) * (needle.length + 1) ≤ total) :
    ∃ marks' left, budget ≤ left ∧ m.searchFrom marks start total n =
      (.found ⟨pos, pos + needle.length, []⟩ marks', left) := by
  induction n generalizing start total with
  | zero => omega
  | succ n ih =>
    rw [show pos + 1 - start = (pos - start) + 1 by omega, Nat.succ_mul, ← Nat.add_assoc] at htotal
    rw [searchFrom_succ]
    rcases Nat.eq_or_lt_of_le hle with rfl | hless
    · obtain ⟨c, left, hleft, hrun, hfound⟩ := h.starting_hit hoccurs marks htotal
      rw [hrun, Machine.judge, hfound]
      exact ⟨c.marks, left, by omega, rfl⟩
    · obtain ⟨left, hleft, hrun⟩ :=
        h.starting_miss (hfirst start (Nat.le_refl start) hless) marks htotal
      rw [hrun, Machine.judge]
      refine ih hless (by omega) ?_ ?_
      · intro earlier hle' hlt'
        exact hfirst earlier (by omega) hlt'
      · rwa [show pos + 1 - (start + 1) = pos - start by omega]

/-- The matches are the occurrences, one after the other. -/
theorem findFrom_occurrences (h : m.Literal needle) (hne : needle ≠ []) {positions : List Nat}
    (hoccurrences : Occurrences needle m.input.toList start positions) (marks : Array Nat)
    (hn : m.input.size + 1 - start ≤ n)
    (htotal : (m.input.size + 1 - start) * (needle.length + 1) ≤ total) :
    (m.findFrom marks start total n).1 =
      some (positions.map fun pos => ⟨pos, pos + needle.length, []⟩) := by
  induction hoccurrences generalizing marks n total with
  | @nil start hnone =>
    cases n with
    | zero => rfl
    | succ n =>
      have hall : 0 + (m.input.size + 1 - start) * (needle.length + 1) ≤ total := by omega
      obtain ⟨left, -, hsearch⟩ := h.searchFrom_absent (fun pos hle _ => hnone pos hle) marks hall
      rw [findFrom_succ, Machine.search, hsearch]
      rfl
  | @cons start pos positions hle hoccurs hfirst _ ih =>
    have hinside : pos + needle.length ≤ m.input.size := hoccurs.le_length hne
    have hpos := List.length_pos_iff.mpr hne
    obtain ⟨n, rfl⟩ := Nat.exists_eq_succ_of_ne_zero (show n ≠ 0 by omega)
    have hsplit : m.input.size + 1 - start = (m.input.size - pos) + (pos + 1 - start) := by omega
    rw [hsplit, Nat.add_mul] at htotal
    obtain ⟨marks', left, hleft, hsearch⟩ := h.searchFrom_found hle
      (show pos < start + (m.input.size + 1 - start) by omega) hoccurs hfirst marks htotal
    have hresume : (Found.mk pos (pos + needle.length) []).resume = pos + needle.length :=
      if_neg (by simp only; omega)
    have hrest : (m.input.size + 1 - (pos + needle.length)) * (needle.length + 1) ≤ left :=
      Nat.le_trans (Nat.mul_le_mul_right _ (by omega)) hleft
    rw [findFrom_succ, Machine.search, hsearch, Machine.follow, hresume, ih marks' (by omega) hrest]
    rfl

end Search

end Machine.Literal

/-- The match of a text at a position of its subject. -/
def occurrence (needle hay : Text) (pos : Nat) : MatchRecord :=
  ⟨needle, Text.byteLength (hay.take pos), Text.byteLength (hay.take (pos + needle.length)), []⟩

theorem recordIn_occurrence {needle hay : Text} {pos : Nat} (h : OccursAt needle hay pos)
    (hinside : pos + needle.length ≤ hay.length) :
    recordIn hay ⟨pos, pos + needle.length, []⟩ = occurrence needle hay pos := by
  have htext : (hay.toArray.extract pos (pos + needle.length)).toList = needle := by
    rw [Array.toList_extract, List.extract_eq_take_drop, Nat.add_sub_cancel_left]
    exact h.take_drop
  have hstart : pos ≤ hay.length := by omega
  simp only [recordIn, record, htext, offset_get hinside, offset_get hstart]
  rfl

/-- A text without operators is a pattern whose matches are the occurrences of that text, from left
to right and without overlap. A step for each of its characters and one more, at each position of
the subject, is enough to find them all. -/
theorem evaluate_literal {needle hay : Text} {options : MatchOptions} (hne : needle ≠ [])
    (hplain : ∀ c ∈ needle, isOperator c = false) (hglobal : options.global = true)
    (hcase : options.ignoreCase = false)
    (hlimit : (hay.length + 1) * (needle.length + 1) ≤ options.stepLimit) :
    ∃ p positions, compile needle = .ok p ∧ p.warnings = [] ∧
      (∀ positions', Occurrences needle hay 0 positions' ↔ positions' = positions) ∧
      p.evaluate hay options = .ok (positions.map (occurrence needle hay)) := by
  obtain ⟨positions, hoccurrences⟩ := exists_occurrences hne hay 0
  let p : Pattern := ⟨.literal needle, []⟩
  refine ⟨p, positions, compile_literal hplain, rfl, ?_, ?_⟩
  · intro positions'
    constructor
    · intro h
      exact h.unique hoccurrences
    · rintro rfl
      exact hoccurrences
  · have hm : (p.machine hay options).Literal needle := ⟨rfl, hcase⟩
    have hfind := hm.findFrom_occurrences hne hoccurrences (p.machine hay options).newMarks
      (Nat.le_refl _) hlimit
    refine evaluate_ok_iff.mpr ⟨positions.map fun pos => ⟨pos, pos + needle.length, []⟩, ?_, ?_⟩
    · rw [hglobal]
      exact hfind
    · rw [List.map_map]
      refine List.map_congr_left ?_
      intro pos hpos
      have hoccurs := hoccurrences.mem pos hpos
      exact recordIn_occurrence hoccurs (hoccurs.le_length hne)

/-- The second of the overlapping occurrences is passed over, with a limit of just so many steps. -/
theorem evaluate_literal_overlapping :
    let needle := "aa".toList
    let hay := "éaaa-aa".toList
    let options : MatchOptions := ⟨true, false, false, 24⟩
    needle ≠ [] ∧ (∀ c ∈ needle, isOperator c = false) ∧ options.global = true ∧
      options.ignoreCase = false ∧
      (hay.length + 1) * (needle.length + 1) ≤ options.stepLimit ∧
      ∃ p, compile needle = .ok p ∧ p.warnings = [] ∧
        p.evaluate hay options = .ok [⟨needle, 2, 4, []⟩, ⟨needle, 6, 8, []⟩] := by
  intro needle hay options
  have hplain : ∀ c ∈ needle, isOperator c = false := by simp [needle, isOperator]
  obtain ⟨p, positions, hcompile, hwarnings, hiff, hevaluate⟩ :=
    @evaluate_literal needle hay options (by decide) hplain rfl rfl (by decide)
  have hwhere : ∀ pos, OccursAt needle hay pos → pos = 1 ∨ pos = 2 ∨ pos = 5 := by
    intro pos hoccurs
    have hinside : pos + 2 ≤ 7 := hoccurs.le_length (by decide)
    have hall : ∀ pos < 6, OccursAt needle hay pos → pos = 1 ∨ pos = 2 ∨ pos = 5 := by decide
    exact hall pos (by omega) hoccurs
  have hoccurrences : Occurrences needle hay 0 [1, 5] := by
    refine .cons (by decide) (by decide) ?_ (.cons (by decide) (by decide) ?_ (.nil ?_))
    · intro earlier _ hlt hoccurs
      have := hwhere earlier hoccurs
      omega
    · intro earlier (hle : 3 ≤ earlier) hlt hoccurs
      have := hwhere earlier hoccurs
      omega
    · intro pos (hle : 7 ≤ pos) hoccurs
      have := hwhere pos hoccurs
      omega
  obtain rfl := (hiff [1, 5]).mp hoccurrences
  exact ⟨by decide, hplain, rfl, rfl, by decide, p, hcompile, hwarnings, hevaluate⟩

end Pattern
end VbaWorkbench
