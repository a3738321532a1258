import VbaWorkbench.Pattern.Basic
import VbaWorkbench.Proofs.Pattern.Sweep
import VbaWorkbench.Proofs.Text.Slices

namespace VbaWorkbench.Pattern

/-- The record of a match in a subject. -/
def recordIn (subject : Text) (f : Found) : MatchRecord :=
  record subject.toArray (Text.byteOffsets 0 subject).toArray f

section Records

variable {subject : Text} {m : Machine} {node : Node} {f g : Found} {i j : Nat}

theorem offset_get (h : i ≤ subject.length) :
    ((Text.byteOffsets 0 subject).toArray)[i]? = some (Text.byteLength (subject.take i)) := by
  rw [List.getElem?_toArray, Text.byteOffsets_get 0 h, Nat.zero_add]

theorem recordIn_start (h : f.start ≤ subject.length) :
    (recordIn subject f).start = Text.byteLength (subject.take f.start) := by
  rw [recordIn, record, offset_get h]
  rfl

theorem recordIn_stop (h : f.stop ≤ subject.length) :
    (recordIn subject f).stop = Text.byteLength (subject.take f.stop) := by
  rw [recordIn, record, offset_get h]
  rfl

theorem slice?_extract (h : i ≤ j) :
    Text.slice? (Text.byteLength (subject.take i)) (Text.byteLength (subject.take j)) subject =
      some (subject.toArray.extract i j).toList := by
  rw [Text.slice?_take h, Array.toList_extract, List.extract_eq_take_drop, List.drop_take]

/-- What is recorded of a match in the text: its offsets are boundaries, and its text is the slice
between them. -/
structure MatchRecord.Slices (subject : Text) (r : MatchRecord) : Prop where
  start : Text.Boundary subject r.start
  stop : Text.Boundary subject r.stop
  text : Text.slice? r.start r.stop subject = some r.fullText

theorem MatchRecord.Slices.ordered {r : MatchRecord} (h : r.Slices subject) : r.start ≤ r.stop := by
  have htext := h.text
  unfold Text.slice? at htext
  split at htext
  · rename_i hcuts
    exact hcuts.1
  · cases htext

theorem recordIn_slices (hin : m.input = subject.toArray) (h : f.Lies m node) :
    (recordIn subject f).Slices subject := by
  have hstop : f.stop ≤ subject.length := by simpa [hin] using h.inside
  have hstart : f.start ≤ subject.length := Nat.le_trans h.ordered hstop
  refine ⟨?_, ?_, ?_⟩
  · rw [recordIn_start hstart]
    exact Text.boundary_iff.mpr ⟨_, hstart, rfl⟩
  · rw [recordIn_stop hstop]
    exact Text.boundary_iff.mpr ⟨_, hstop, rfl⟩
  · rw [recordIn_start hstart, recordIn_stop hstop]
    exact slice?_extract h.ordered

/-- A match that begins after another has resumed is recorded behind it. -/
theorem recordIn_ordered (hin : m.input = subject.toArray) (hf : f.Lies m node)
    (hg : g.Lies m node) (h : f.resume ≤ g.start) :
    (recordIn subject f).stop ≤ (recordIn subject g).start ∧
      (recordIn subject f).start < (recordIn subject g).start := by
  have hinside : g.start ≤ subject.length := by
    have := hg.ordered
    have : g.stop ≤ subject.length := by simpa [hin] using hg.inside
    omega
  have hresume := hf.lt_resume
  have hstop := f.stop_le_resume
  rw [recordIn_start hinside, recordIn_start (by omega), recordIn_stop (by omega)]
  exact ⟨Text.byteLength_take_le (by omega), Text.byteLength_take_lt (by omega) hinside⟩

end Records

/-- An evaluation is a search for matches, which it records. -/
theorem evaluate_eq (p : Pattern) (subject : Text) (options : MatchOptions) :
    p.evaluate subject options =
      match (p.machine subject options).find options.global options.stepLimit with
      | (some found, _) => .ok (found.map (recordIn subject))
      | (none, left) => .error (.timeout (options.stepLimit - left + 1)) :=
  rfl

theorem evaluate_ok_iff {p : Pattern} {subject : Text} {options : MatchOptions}
    {records : List MatchRecord} :
    p.evaluate subject options = .ok records ↔
      ∃ found, ((p.machine subject options).find options.global options.stepLimit).1 = some found ∧
        found.map (recordIn subject) = records := by
  rw [evaluate_eq]
  cases (p.machine subject options).find options.global options.stepLimit with
  | mk found? left => cases found? <;> simp

/-- The records of an evaluation lie in the subject one behind the other. -/
theorem evaluate_records {p : Pattern} {node : Node} {subject : Text} {options : MatchOptions}
    {records : List MatchRecord} (hp : p.program.Realizes node)
    (h : p.evaluate subject options = .ok records) :
    (∀ r ∈ records, r.Slices subject) ∧
      records.Pairwise fun r s => r.stop ≤ s.start ∧ r.start < s.start := by
  let m := p.machine subject options
  have hm : m.program.Realizes node := hp
  have hin : m.input = subject.toArray := rfl
  obtain ⟨found, hfind, rfl⟩ := evaluate_ok_iff.mp h
  obtain ⟨fs, hsweep, hfound⟩ := Machine.Sweep.of_find hm hfind
  have hsub : found.Sublist fs := by
    rw [hfound]
    split
    · exact .refl fs
    · exact List.take_sublist 1 fs
  have hlies : ∀ f ∈ found, f.Lies m node := fun f hf => hsweep.lies hm f (hsub.subset hf)
  refine ⟨fun r hr => ?_, ?_⟩
  · obtain ⟨f, hf, rfl⟩ := List.mem_map.mp hr
    exact recordIn_slices hin (hlies f hf)
  · rw [List.pairwise_map]
    exact ((hsweep.ordered hm).sublist hsub).imp_of_mem fun hf hg h =>
      recordIn_ordered hin (hlies _ hf) (hlies _ hg) h

end VbaWorkbench.Pattern
