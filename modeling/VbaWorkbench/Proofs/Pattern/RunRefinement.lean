import VbaWorkbench.Pattern.Basic
import VbaWorkbench.Proofs.Pattern.ParsedTree
import VbaWorkbench.Proofs.Pattern.TreeRefinement

namespace VbaWorkbench.Pattern

namespace Machine

/-- A run ends with a verdict after some number of instructions, and is exhausted if its budget is
smaller than that. -/
def Ends (m : Machine) (verdict : Verdict) : Outcome → Prop
  | .running c => ∃ steps, ∀ budget, m.run budget c =
      if budget < steps then (.exhausted, 0) else (verdict, budget - steps)
  | .accepted c => verdict = .accepted c
  | .failed => verdict = .failed

theorem ends_of_step {m : Machine} {verdict : Verdict} {c : Config}
    (h : m.Ends verdict (m.step c)) :
    m.Ends verdict (.running c) := by
  cases hstep : m.step c with
  | running c' =>
    rw [hstep] at h
    obtain ⟨steps, hrun⟩ := h
    refine ⟨steps + 1, fun budget => ?_⟩
    cases budget with
    | zero => rw [run, if_pos (Nat.succ_pos _)]
    | succ budget => simp only [run, hstep, hrun, Nat.succ_lt_succ_iff, Nat.succ_sub_succ]
  | accepted c' =>
    rw [hstep] at h
    refine ⟨1, fun budget => ?_⟩
    cases budget with
    | zero => rfl
    | succ budget => simp [run, hstep, show verdict = .accepted c' from h]
  | failed =>
    rw [hstep] at h
    refine ⟨1, fun budget => ?_⟩
    cases budget with
    | zero => rfl
    | succ budget => simp [run, hstep, show verdict = .failed from h]

theorem Reaches.ends {m : Machine} {verdict : Verdict} {o o' : Outcome} (h : m.Reaches o o')
    (he : m.Ends verdict o') : m.Ends verdict o := by
  induction h with
  | refl o => exact he
  | step c o _ ih => exact ends_of_step (ih he)

/-- A verdict takes the first of the ways in which a tree matches, and fails if there are none. -/
def Verdict.Takes (ways : List Stand) : Verdict → Prop
  | .accepted c => ∃ s, ways.head? = some s ∧ Shows c s
  | .failed => ways = []
  | .exhausted => False

end Machine

theorem ofNode_ok {node : Node} {groups : Nat} {program : Program}
    (h : Program.ofNode node groups = .ok program) :
    program = ⟨(node.code ⟨0, 0⟩ ++ [Inst.accept]).toArray, groups, node.marks⟩ := by
  unfold Program.ofNode at h
  split at h
  · cases h
  · cases h
    rfl

theorem compile_ok {pattern : Text} {p : Pattern} (h : compile pattern = .ok p) :
    ∃ parsed, parse pattern = .ok parsed ∧
      Program.ofNode parsed.node parsed.groups = .ok p.program := by
  unfold compile at h
  cases hp : parse pattern with
  | error e =>
    rw [hp] at h
    cases h
  | ok parsed =>
    rw [hp] at h
    cases hn : Program.ofNode parsed.node parsed.groups with
    | error e =>
      simp [bind, Except.bind, hn] at h
    | ok program =>
      simp [bind, Except.bind, hn, pure, Except.pure] at h
      exact ⟨parsed, rfl, h ▸ hn⟩

/-- A run on a compiled pattern takes the first way in which the tree of the pattern matches, at
the same end and with the same captures, or fails if there is none. What the marks held before does
not matter. -/
theorem run_takes_first_outcome {pattern : Text} {parsed : Parsed} {p : Pattern}
    (hparse : parse pattern = .ok parsed) (hcompile : compile pattern = .ok p) (subject : Text)
    (options : MatchOptions) (start : Nat) (marks : Array Nat)
    (hmarks : marks.size = p.program.marks) :
    let m := p.machine subject options
    ∃ verdict steps, verdict.Takes (parsed.node.outcomes m (.initial start)) ∧
      ∀ budget, m.run budget { Config.initial p.program start with marks := marks } =
        if budget < steps then (.exhausted, 0) else (verdict, budget - steps) := by
  intro m
  obtain ⟨parsed', hparse', hnode⟩ := compile_ok hcompile
  obtain rfl : parsed = parsed' := Except.ok.inj (hparse.symm.trans hparse')
  obtain ⟨hgroups, hbranched⟩ := parse_numbered hparse
  have hprogram := ofNode_ok hnode
  have hinsts : CodeAt p.program.insts 0 (parsed.node.code ⟨0, 0⟩ ++ [.accept]) := by
    intro i inst hi
    simpa [hprogram] using hi
  have haccept := hinsts.right.head
  rw [Node.length_code] at haccept
  let c : Config := { Config.initial p.program start with marks := marks }
  have hslots : c.slots.size = 2 * (parsed.groups + 1) := by
    simp [c, Config.initial, Program.slots, hprogram]
  have hnone : ∀ k < c.slots.size, c.slots[k]? = some none := by
    intro k hk
    simp only [c, Config.initial, Array.size_replicate] at hk ⊢
    simp [hk]
  have hshows : Shows c (.initial start) := by
    refine ⟨rfl, fun g => ?_⟩
    rcases Nat.lt_or_ge (2 * g) c.slots.size with hlt | hge
    · simp [Machine.captured?, hnone _ hlt, Stand.initial]
    · simp [Machine.captured?, Array.getElem?_eq_none hge, Stand.initial]
  have hfresh : c.Fresh parsed.node.groups := by
    intro g hg
    rw [hgroups, List.mem_range'_1] at hg
    exact ⟨hnone _ (by omega), hnone _ (by omega)⟩
  have hroom : parsed.node.marks ≤ marks.size := Nat.le_of_eq (by rw [hmarks, hprogram])
  have hdelivers := Node.refined m parsed.node ⟨1, parsed.groups, hgroups⟩ hbranched ⟨0, 0⟩
    hinsts.left c (.initial start) ⟨rfl, hshows, by simpa using hroom⟩ hfresh
  generalize parsed.node.outcomes m (.initial start) = ways at hdelivers
  cases hdelivers with
  | none _ hr =>
    have hends : m.Ends .failed (.running c) := hr.ends rfl
    obtain ⟨steps, hrun⟩ := hends
    exact ⟨.failed, steps, rfl, hrun⟩
  | some _ c' s ss hr hpc hs _ _ =>
    have hstep : m.step c' = .accepted c' := by
      simp only [Machine.step, hpc]
      rw [show m.program = p.program from rfl, haccept]
    have hends : m.Ends (.accepted c') (.running c) := (hr.trans (.once hstep)).ends rfl
    obtain ⟨steps, hrun⟩ := hends
    exact ⟨.accepted c', steps, ⟨s, rfl, hs⟩, hrun⟩

theorem run_takes_first_outcome_lazy :
    let pattern := "(?:(a)|b)*?\\1c".toList
    ∃ (parsed : Parsed) (p : Pattern), parse pattern = .ok parsed ∧ compile pattern = .ok p ∧
      let m := p.machine "abc".toList .default
      let marks := Array.replicate p.program.marks 7
      marks.size = p.program.marks ∧
      ∃ verdict steps, verdict.Takes (parsed.node.outcomes m (.initial 0)) ∧
        ∀ budget, m.run budget { Config.initial p.program 0 with marks := marks } =
          if budget < steps then (.exhausted, 0) else (verdict, budget - steps) := by
  intro pattern
  have hok : (compile pattern).isOk = true := by decide +kernel
  cases hcompile : compile pattern with
  | error e =>
    rw [hcompile] at hok
    cases hok
  | ok p =>
    obtain ⟨parsed, hparse, _⟩ := compile_ok hcompile
    have hmarks : (Array.replicate p.program.marks 7).size = p.program.marks :=
      Array.size_replicate
    exact ⟨parsed, p, hparse, rfl, hmarks,
      run_takes_first_outcome hparse hcompile "abc".toList .default 0 _ hmarks⟩

end VbaWorkbench.Pattern
