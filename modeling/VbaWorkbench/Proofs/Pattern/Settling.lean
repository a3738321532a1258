import VbaWorkbench.Proofs.Pattern.CaptureBounds
import VbaWorkbench.Proofs.Pattern.Compiled

namespace VbaWorkbench.Pattern

/-- A computation on a budget has one result and one price. With less than that it is exhausted and
has used up what it had. -/
def Settles {α : Type} (run : Nat → α × Nat) (exhausted result : α) : Prop :=
  ∃ steps, ∀ budget, run budget =
    if budget < steps then (exhausted, 0) else (result, budget - steps)

namespace Settles

variable {α β : Type} {run : Nat → α × Nat} {exhausted result : α} {exhausted' result' : β}

theorem free (exhausted result : α) : Settles (fun budget => (result, budget)) exhausted result :=
  ⟨0, fun budget => by simp⟩

/-- The price of two computations one after the other is the sum of their prices. -/
theorem bind {next : α → Nat → β × Nat} (h : Settles run exhausted result)
    (hn : Settles (next result) exhausted' result') (he : next exhausted 0 = (exhausted', 0)) :
    Settles (fun budget => next (run budget).1 (run budget).2) exhausted' result' := by
  obtain ⟨steps, hrun⟩ := h
  obtain ⟨more, hnext⟩ := hn
  refine ⟨steps + more, fun budget => ?_⟩
  dsimp only
  rw [hrun]
  by_cases hlt : budget < steps
  · rw [if_pos hlt, if_pos (Nat.lt_add_right more hlt)]
    exact he
  · rw [if_neg hlt, hnext, Nat.sub_add_eq]
    congr 1
    exact propext (by omega)

theorem map (g : α → β) (h : Settles run exhausted result) :
    Settles (fun budget => (g (run budget).1, (run budget).2)) (g exhausted) (g result) := by
  let next (a : α) (budget : Nat) : β × Nat := (g a, budget)
  have hnext : Settles (next result) (g exhausted) (g result) := .free _ _
  exact h.bind hnext rfl

/-- A computation that is not exhausted has come to its result. -/
theorem eq_of_ne (h : Settles run exhausted result) {budget : Nat}
    (hne : (run budget).1 ≠ exhausted) : (run budget).1 = result := by
  obtain ⟨steps, hrun⟩ := h
  rw [hrun] at hne ⊢
  split at hne
  · exact absurd rfl hne
  · rename_i hge
    rw [if_neg hge]

theorem unique {other : α} (h : Settles run exhausted result) (h' : Settles run exhausted other) :
    result = other := by
  obtain ⟨steps, hrun⟩ := h
  obtain ⟨steps', hrun'⟩ := h'
  have heq := (hrun (steps + steps')).symm.trans (hrun' (steps + steps'))
  rw [if_neg (by omega), if_neg (by omega)] at heq
  exact congrArg Prod.fst heq

end Settles

/-- The match that ends where a stand is. -/
def Stand.found (m : Machine) (start : Nat) (s : Stand) : Found :=
  ⟨start, s.pos, (List.range m.program.groups).map fun i => s.captures (i + 1)⟩

namespace Machine

/-- A run from this position fails, whatever earlier runs have left in the marks. -/
def Misses (m : Machine) (pos : Nat) : Prop :=
  ∀ marks : Array Nat, marks.size = m.program.marks →
    Settles (m.run · (.starting m.program marks pos)) .exhausted .failed

/-- A run from where the match begins accepts with this match, whatever earlier runs have left in
the marks. -/
def Hits (m : Machine) (f : Found) : Prop :=
  ∀ marks : Array Nat, marks.size = m.program.marks →
    ∃ c, Settles (m.run · (.starting m.program marks f.start)) .exhausted (.accepted c) ∧
      m.found f.start c = f ∧ c.marks.size = m.program.marks

end Machine

section Runs

variable {m : Machine} {node : Node} {start : Nat} {marks : Array Nat}

theorem starting_slot (program : Program) (marks : Array Nat) (start k : Nat) :
    (Config.starting program marks start).slots[k]? =
      if k < program.slots then some none else none :=
  Array.getElem?_replicate

/-- A run begins where a match of the tree begins. -/
theorem starting_starts (hp : m.program.Realizes node) (hm : marks.size = m.program.marks)
    (start : Nat) :
    Starts ⟨0, 0⟩ node.marks (.starting m.program marks start) (.initial start) := by
  refine ⟨rfl, ⟨rfl, fun g => ?_⟩, ?_⟩
  · have hnone : ∀ k : Nat, ((Config.starting m.program marks start).slots[k]?).join = none := by
      intro k
      rw [starting_slot, apply_ite Option.join, Option.join_some, Option.join_none, ite_self]
    simp only [Machine.captured?, hnone, Stand.initial]
  · rw [Nat.zero_add, ← hp.marks]
    exact Nat.le_of_eq hm.symm

theorem starting_fresh (hp : m.program.Realizes node) (marks : Array Nat) (start : Nat) :
    (Config.starting m.program marks start).Fresh node.groups := by
  intro g hg
  rw [hp.groups, List.mem_range'_1] at hg
  rw [starting_slot, starting_slot, Program.slots]
  exact ⟨if_pos (by omega), if_pos (by omega)⟩

theorem starting_delivers (hp : m.program.Realizes node) (hm : marks.size = m.program.marks)
    (start : Nat) :
    Delivers m node.size ⟨node.groups, 0, node.marks⟩ (.starting m.program marks start)
      (.running (.starting m.program marks start)) (node.outcomes m (.initial start)) := by
  have hrefined := Node.refined m node ⟨1, m.program.groups, hp.groups⟩ hp.branched ⟨0, 0⟩
    hp.codeAt.left _ _ (starting_starts hp hm start) (starting_fresh hp marks start)
  simpa using hrefined

/-- Each run has a verdict: the first way in which the tree matches, or failure. -/
theorem run_settles (hp : m.program.Realizes node) (hm : marks.size = m.program.marks)
    (start : Nat) :
    (node.outcomes m (.initial start) = [] ∧
      Settles (m.run · (.starting m.program marks start)) .exhausted .failed) ∨
    ∃ s ss c, node.outcomes m (.initial start) = s :: ss ∧ Shows c s ∧
      c.marks.size = m.program.marks ∧
      Settles (m.run · (.starting m.program marks start)) .exhausted (.accepted c) := by
  have hdelivers := starting_delivers hp hm start
  generalize node.outcomes m (.initial start) = ways at hdelivers
  cases hdelivers with
  | none _ hr =>
    have hends : m.Ends .failed (.running (.starting m.program marks start)) := hr.ends rfl
    exact .inl ⟨rfl, hends⟩
  | some _ c s ss hr hpc hs hx _ =>
    have hstep : m.step c = .accepted c := by
      simp only [Machine.step, hpc, hp.accept_at_end]
    have hends : m.Ends (.accepted c) (.running (.starting m.program marks start)) :=
      (hr.trans (.once hstep)).ends rfl
    exact .inr ⟨s, ss, c, rfl, hs, hx.frame.2.1.trans hm, hends⟩

theorem misses_of_nil (hp : m.program.Realizes node)
    (h : node.outcomes m (.initial start) = []) : m.Misses start := by
  intro marks hm
  rcases run_settles hp hm start with ⟨-, hfail⟩ | ⟨s, ss, c, hways, -⟩
  · exact hfail
  · rw [h] at hways
    cases hways

theorem found_of_shows {c : Config} {s : Stand} (h : Shows c s) :
    m.found start c = s.found m start := by
  simp only [Machine.found, Stand.found, h.pos, h.captures]

theorem hits_of_cons (hp : m.program.Realizes node) {s : Stand} {ss : List Stand}
    (h : node.outcomes m (.initial start) = s :: ss) : m.Hits (s.found m start) := by
  intro marks hm
  rcases run_settles hp hm start with ⟨hnil, -⟩ | ⟨s', ss', c, hways, hs, hc, hrun⟩
  · rw [h] at hnil
    cases hnil
  · obtain ⟨rfl, rfl⟩ := List.cons_eq_cons.mp (h.symm.trans hways)
    exact ⟨c, hrun, found_of_shows hs, hc⟩

/-- Each position is one or the other. -/
theorem misses_or_hits (hp : m.program.Realizes node) (start : Nat) :
    m.Misses start ∨ ∃ f, f.start = start ∧ m.Hits f := by
  cases hways : node.outcomes m (.initial start) with
  | nil => exact .inl (misses_of_nil hp hways)
  | cons s ss => exact .inr ⟨s.found m start, rfl, hits_of_cons hp hways⟩

theorem Machine.Misses.not_hits {f : Found} (h : m.Misses f.start) : ¬ m.Hits f := by
  intro hhit
  obtain ⟨c, hrun, -, -⟩ := hhit m.newMarks m.size_newMarks
  cases hrun.unique (h m.newMarks m.size_newMarks)

theorem Machine.Hits.unique {f g : Found} (h : m.Hits f) (h' : m.Hits g)
    (hs : f.start = g.start) : f = g := by
  obtain ⟨c, hrun, hf, -⟩ := h m.newMarks m.size_newMarks
  obtain ⟨c', hrun', hg, -⟩ := h' m.newMarks m.size_newMarks
  rw [hs] at hrun
  cases hrun.unique hrun'
  rw [← hf, ← hg, hs]

end Runs

/-- A match lies in the text and its groups lie in it. A group may end behind the match only if it
stands inside a lookahead. -/
structure Found.Lies (m : Machine) (node : Node) (f : Found) : Prop where
  ordered : f.start ≤ f.stop
  inside : f.stop ≤ m.input.size
  groups : ∀ i start stop, f.groups[i]? = some (some (start, stop)) →
    f.start ≤ start ∧ start ≤ stop ∧ stop ≤ m.input.size ∧
      (¬ node.InLookahead (i + 1) → stop ≤ f.stop)

/-- The next match is looked for further on. -/
theorem Found.Lies.lt_resume {m : Machine} {node : Node} {f : Found} (h : f.Lies m node) :
    f.start < f.resume := by
  have hordered := h.ordered
  unfold Found.resume
  split <;> omega

theorem Found.Lies.resume_le {m : Machine} {node : Node} {f : Found} (h : f.Lies m node) :
    f.resume ≤ m.input.size + 1 := by
  have hordered := h.ordered
  have hinside := h.inside
  unfold Found.resume
  split <;> omega

theorem hits_lies {m : Machine} {node : Node} (hp : m.program.Realizes node) {f : Found}
    (h : m.Hits f) (hs : f.start ≤ m.input.size) : f.Lies m node := by
  obtain ⟨c, hrun, hfound, -⟩ := h m.newMarks m.size_newMarks
  rcases run_settles hp m.size_newMarks f.start with
    ⟨-, hfail⟩ | ⟨s, ss, c', hways, hshows, -, hrun'⟩
  · cases hrun.unique hfail
  · cases hrun.unique hrun'
    rw [found_of_shows hshows] at hfound
    obtain ⟨hstart, hstop, hspans⟩ := Node.outcome_inside hs (hways ▸ List.mem_cons_self)
    rw [← hfound]
    refine ⟨hstart, hstop, fun i start stop hi => hspans (i + 1) start stop ?_⟩
    obtain ⟨j, hj, hcaptures⟩ := Option.map_eq_some_iff.mp (List.getElem?_map ▸ hi)
    obtain ⟨hlt, hi⟩ := List.getElem?_eq_some_iff.mp hj
    rw [List.getElem_range] at hi
    exact hi ▸ hcaptures

end VbaWorkbench.Pattern
