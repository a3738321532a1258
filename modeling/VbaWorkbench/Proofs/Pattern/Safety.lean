import VbaWorkbench.Proofs.Pattern.CheckedRun
import VbaWorkbench.Proofs.Pattern.CheckedSlices

namespace VbaWorkbench.Pattern

/-- The records of at most `n` matches from `start` on, unless an index or a slice is out of range.
Each match is recorded before the next search. -/
def recordsFrom? (m : Machine) (subject : Text) (marks : Array Nat) (start budget : Nat) :
    (n : Nat) → Option (Option (List MatchRecord) × Nat)
  | 0 => some (some [], budget)
  | n + 1 => do
    match ← m.search? marks start budget with
    | (.found f marks, budget) =>
      let r ← record? subject (Text.byteOffsets 0 subject).toArray f
      let (rest, budget) ← recordsFrom? m subject marks f.resume budget n
      some (rest.map (r :: ·), budget)
    | (.absent, budget) => some (some [], budget)
    | (.exhausted, budget) => some (none, budget)

/-- An evaluation that gives up where an index or a slice is out of range. -/
def evaluate? (p : Pattern) (subject : Text) (options : MatchOptions) :
    Option (Except Error (List MatchRecord)) := do
  let m := p.machine subject options
  let wanted := if options.global then m.input.size + 1 else 1
  match ← recordsFrom? m subject m.newMarks 0 options.stepLimit wanted with
  | (some records, _) => some (.ok records)
  | (none, left) => some (.error (.timeout (options.stepLimit - left + 1)))

def test? (p : Pattern) (subject : Text) (options : MatchOptions) : Option (Except Error Bool) :=
  (p.evaluate? subject { options with global := false }).map (Except.map (!·.isEmpty))

/-- A replacement that gives up where an index or a slice is out of range. -/
def replace? (p : Pattern) (subject replacement : Text) (options : MatchOptions) :
    Option (Except Error Replaced) := do
  match ← p.evaluate? subject options with
  | .ok records => some (.ok ⟨← splice? subject replacement 0 records, records.length⟩)
  | .error e => some (.error e)

section Checks

variable {p : Pattern} {node : Node} {subject : Text}

theorem recordsFrom?_eq {m : Machine} (hp : m.program.Realizes node)
    (hin : m.input = subject.toArray) {marks : Array Nat} (hm : marks.size = m.program.marks)
    {start : Nat} (hs : start ≤ m.input.size + 1) (budget n : Nat) :
    recordsFrom? m subject marks start budget n =
      some ((m.findFrom marks start budget n).1.map (List.map (recordIn subject)),
        (m.findFrom marks start budget n).2) := by
  induction n generalizing marks start budget with
  | zero => rfl
  | succ n ih =>
    rw [recordsFrom?, search?_eq hp hm hs, Machine.findFrom]
    cases hsearch : m.search marks start budget with
    | mk result left =>
      cases result with
      | found f marks' =>
        obtain ⟨hlies, hm'⟩ := search_found hp hm hsearch
        simp only [Option.bind_eq_bind, Option.bind_some, record?_eq hin hlies,
          ih hm' hlies.resume_le, Option.map_map]
        rfl
      | absent => rfl
      | exhausted => rfl

theorem evaluate?_eq (hp : p.program.Realizes node) (subject : Text) (options : MatchOptions) :
    p.evaluate? subject options = some (p.evaluate subject options) := by
  let m := p.machine subject options
  have hrecords := recordsFrom?_eq (show m.program.Realizes node from hp) rfl m.size_newMarks
    (Nat.zero_le _) options.stepLimit (if options.global then m.input.size + 1 else 1)
  rw [evaluate_eq, Machine.find]
  unfold evaluate?
  dsimp only
  rw [hrecords]
  cases m.findFrom m.newMarks 0 options.stepLimit
      (if options.global then m.input.size + 1 else 1) with
  | mk found? left => cases found? <;> rfl

theorem replace?_eq (hp : p.program.Realizes node) (subject replacement : Text)
    (options : MatchOptions) :
    p.replace? subject replacement options = some (p.replace subject replacement options) := by
  rw [replace?, evaluate?_eq hp, replace]
  cases hrecords : p.evaluate subject options with
  | error e => rfl
  | ok records =>
    obtain ⟨hslices, hordered⟩ := evaluate_records hp hrecords
    have hsplice := splice?_eq replacement (Text.boundary_zero subject) hslices
      (fun r _ => Nat.zero_le _) (hordered.imp And.left)
    have hall : Text.dropBytes 0 subject = subject := Text.dropBytes_append [] subject
    rw [hall] at hsplice
    simp only [Option.bind_eq_bind, Option.bind_some, hsplice]
    rfl

end Checks

/-- No index and no slice of an evaluation is out of range, and what is found lies in the text. -/
theorem evaluation_in_range {pattern : Text} {parsed : Parsed} {p : Pattern}
    (hparse : parse pattern = .ok parsed) (hcompile : compile pattern = .ok p)
    (subject replacement : Text) (options : MatchOptions) :
    let m := p.machine subject options
    (∀ c, m.Visits c → c.Safe m) ∧
    (∀ (marks : Array Nat) (start budget : Nat) (f : Found) (marks' : Array Nat) (left : Nat),
      marks.size = p.program.marks → m.search marks start budget = (.found f marks', left) →
      f.Lies m parsed.node) ∧
    p.evaluate? subject options = some (p.evaluate subject options) ∧
    p.test? subject options = some (p.test subject options) ∧
    p.replace? subject replacement options = some (p.replace subject replacement options) := by
  obtain ⟨parsed', hparse', hp⟩ := compile_realizes hcompile
  obtain rfl : parsed = parsed' := Except.ok.inj (hparse.symm.trans hparse')
  refine ⟨fun c hc => ?_, fun marks start budget f marks' left hm hsearch => ?_,
    evaluate?_eq hp subject options, ?_, replace?_eq hp subject replacement options⟩
  · have hb := visits_bounded (show (p.machine subject options).program.Realizes _ from hp) hc
    exact safe_of_bounded hp hb
  · exact (search_found (m := p.machine subject options) hp hm hsearch).1
  · rw [test?, evaluate?_eq hp, test]
    rfl

theorem evaluation_in_range_lookahead :
    let pattern := "(?:(?=(é+))|(\\b)x?)*\\1$".toList
    let subject := "xéé".toList
    let replacement := "[$`$1$']".toList
    ∃ (parsed : Parsed) (p : Pattern), parse pattern = .ok parsed ∧ compile pattern = .ok p ∧
      let m := p.machine subject .default
      (∀ c, m.Visits c → c.Safe m) ∧
      (∀ (marks : Array Nat) (start budget : Nat) (f : Found) (marks' : Array Nat) (left : Nat),
        marks.size = p.program.marks → m.search marks start budget = (.found f marks', left) →
        f.Lies m parsed.node) ∧
      p.evaluate? subject .default = some (p.evaluate subject .default) ∧
      p.test? subject .default = some (p.test subject .default) ∧
      p.replace? subject replacement .default = some (p.replace subject replacement .default) := by
  intro pattern subject replacement
  have hsome : (compile pattern).toOption.isSome = true := by decide +kernel
  obtain ⟨p, hp⟩ := Option.isSome_iff_exists.mp hsome
  have hcompile : compile pattern = .ok p := ok_of_toOption hp
  obtain ⟨parsed, hparse, -⟩ := compile_realizes hcompile
  exact ⟨parsed, p, hparse, hcompile,
    evaluation_in_range hparse hcompile subject replacement .default⟩

end VbaWorkbench.Pattern
