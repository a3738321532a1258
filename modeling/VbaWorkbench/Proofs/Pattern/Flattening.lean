import VbaWorkbench.Proofs.Pattern.CallFrames

namespace VbaWorkbench.Pattern

/-- The body of each lookahead is secluded. -/
def Program.SecludesBodies (p : Program) : Prop :=
  ∀ pc negated next, p.insts[pc]? = some (.look negated next) →
    ∃ area, p.Secludes area ∧ area (pc + 1)

/-- A choice that stays in a part of the program, or the record of a write. -/
def Entry.StaysIn (area : Nat → Prop) : Entry → Prop
  | .choice pc _ => area pc
  | .slot _ _ | .mark _ _ => True
  | .lookahead _ _ _ => False

namespace Entry

variable {area : Nat → Prop} {e : Entry}

theorem StaysIn.isLookahead (h : e.StaysIn area) : e.isLookahead = false := by
  cases e with
  | lookahead _ _ _ => exact h.elim
  | choice _ _ | slot _ _ | mark _ _ => rfl

theorem IsWrite.staysIn (h : e.IsWrite) : e.StaysIn area := by
  cases e with
  | slot _ _ | mark _ _ => trivial
  | choice _ _ | lookahead _ _ _ => exact h.elim

theorem staysIn_of_kept (hl : e.isLookahead = false) (hc : (!e.isChoice) = true) :
    e.StaysIn area := by
  cases e with
  | slot _ _ | mark _ _ => trivial
  | choice _ _ => cases hc
  | lookahead _ _ _ => cases hl

end Entry

namespace Config

/-- The configuration with `under` in place of what stands below a height. -/
def onto (height : Nat) (under : List Entry) (c : Config) : Config :=
  { c with stack := c.above height ++ under }

/-- A configuration of a run in a part of the program that was called when `base` was the stack. -/
structure Inside (area : Nat → Prop) (base : List Entry) (c : Config) : Prop where
  pc : area c.pc
  stack : ∃ es, c.stack = es ++ base ∧ ∀ e ∈ es, e.StaysIn area

variable {c d : Config} {es base under stack : List Entry} {negated : Bool} {next pos : Nat}

theorem onto_eq (h : c.stack = es ++ base) :
    c.onto base.length under = { c with stack := es ++ under } := by
  rw [onto, above_eq h]

/-- Backtracking finds the choice that a run goes back to, whatever stands below. -/
theorem backtrack_retreat (hs : c.stack = es ++ base) (hes : ∀ e ∈ es, e.isLookahead = false)
    (h : c.retreat base.length = .ok d) :
    backtrack c.slots c.marks (es ++ under) = .running (d.onto base.length under) := by
  obtain ⟨later, rest, rfl, hstack, hlater, hunwind⟩ := retreat_ok hs h
  have hwrites : ∀ e ∈ later, e.isChoice = false ∧ e.isLookahead = false :=
    fun e he => ⟨hlater e he, hes e (List.mem_append_left _ he)⟩
  rw [List.append_assoc, backtrack_append _ _ _ _ hwrites, hunwind, onto_eq hstack]
  rfl

/-- Where a run finds no choice of its own, backtracking goes on below. -/
theorem backtrack_retreat_error (hs : c.stack = es ++ base)
    (hes : ∀ e ∈ es, e.isLookahead = false) (h : c.retreat base.length = .error d) :
    backtrack c.slots c.marks (es ++ under) = backtrack d.slots d.marks under := by
  obtain ⟨rfl, hchoice⟩ := Config.retreat_error h
  rw [above_eq hs] at hchoice
  rw [backtrack_append _ _ _ _ fun e he => ⟨hchoice e he, hes e he⟩, unwindTo, above_eq hs]

/-- The end of a lookahead, when all above its entry belongs to its body. -/
theorem leaveLookahead_onto (hs : c.stack = es ++ base) (hes : ∀ e ∈ es, e.isLookahead = false) :
    (c.onto base.length (.lookahead negated next pos :: under)).leaveLookahead =
      if negated then
        backtrack (c.unwindTo base.length).slots (c.unwindTo base.length).marks under
      else .running ⟨next, pos, c.slots, c.marks, es.filter (!·.isChoice) ++ under⟩ := by
  have hbody : ∀ e ∈ es, (!e.isLookahead) = true := fun e he => by rw [hes e he]; rfl
  have hwrites : ∀ e ∈ es.filter (!·.isChoice), e.isChoice = false ∧ e.isLookahead = false :=
    fun e he => ⟨by simpa using (List.mem_filter.mp he).2, hes e (List.mem_filter.mp he).1⟩
  rw [onto_eq hs, leaveLookahead, List.takeWhile_append_of_pos hbody,
    List.dropWhile_append_of_pos hbody]
  simp only [List.takeWhile_cons, List.dropWhile_cons, Entry.isLookahead, Bool.not_true,
    Bool.false_eq_true, if_false, List.append_nil]
  rw [backtrack_append _ _ _ _ hwrites, unwind_writes, unwindTo, above_eq hs]

/-- Without a lookahead that is running, its end is that of the whole run. -/
theorem leaveLookahead_eq_accepted (h : ∀ e ∈ c.stack, e.isLookahead = false) :
    c.leaveLookahead = .accepted c := by
  have hnil : c.stack.dropWhile (!·.isLookahead) = [] :=
    List.dropWhile_eq_nil_iff.mpr fun e he => by rw [h e he]; rfl
  rw [leaveLookahead, hnil]

end Config

namespace Machine

/-- The rest of a run after an instruction. -/
def proceed (m : Machine) (left : Nat) : Outcome → Verdict × Nat
  | .running c => m.run left c
  | .accepted c => (.accepted c, left)
  | .failed => (.failed, left)

/-- The rest of a run after one that it has called when its stack had a height, where in truth
`under` stands below that height. -/
def settle (m : Machine) (height : Nat) (under : List Entry) : Return × Nat → Verdict × Nat
  | (.matched c, left) => m.proceed left (c.onto height under).leaveLookahead
  | (.unmatched c, left) => m.proceed left (Config.backtrack c.slots c.marks under)
  | (.exhausted, left) => (.exhausted, left)
  | (.lost, left) => (.failed, left)

variable {m : Machine} {area : Nat → Prop} {base under : List Entry} {c d : Config} {budget : Nat}

theorem run_succ (budget : Nat) (c : Config) :
    m.run (budget + 1) c = m.proceed budget (m.step c) := by
  rw [run]
  cases m.step c <;> rfl

/-- With this budget, a run over `under` goes as one that was called over `base`, and then as what
stands there says. -/
def RunsOnto (m : Machine) (budget : Nat) (area : Nat → Prop) (base under : List Entry) : Prop :=
  ∀ c : Config, c.Inside area base →
    m.run budget (c.onto base.length under) =
      m.settle base.length under (m.loop base.length budget c)

/-- A run that fails goes back to a choice of its own, or to what stands below. -/
theorem RunsOnto.fails {es : List Entry} (h : m.RunsOnto budget area base under)
    (hs : c.stack = es ++ base) (hes : ∀ e ∈ es, e.StaysIn area) :
    m.proceed budget (Config.backtrack c.slots c.marks (es ++ under)) =
      m.settle base.length under
        (match c.retreat base.length with
        | .ok c => m.loop base.length budget c
        | .error c => (.unmatched c, budget)) := by
  have hnone : ∀ e ∈ es, e.isLookahead = false := fun e he => (hes e he).isLookahead
  cases hback : c.retreat base.length with
  | error d =>
    rw [Config.backtrack_retreat_error hs hnone hback]
    rfl
  | ok d =>
    rw [Config.backtrack_retreat hs hnone hback]
    obtain ⟨later, rest, rfl, hstack, -, -⟩ := Config.retreat_ok hs hback
    have hd : d.Inside area base :=
      ⟨hes (.choice d.pc d.pos) (by simp), rest, hstack, fun e he => hes e (by simp [he])⟩
    exact h d hd

/-- A plain instruction does the same over `under` as over `base`. -/
theorem RunsOnto.plain {inst : Inst} (h : m.RunsOnto budget area base under)
    (hclosed : ∀ t ∈ inst.successors c.pc, area t) (hi : m.program.insts[c.pc]? = some inst)
    (hp : inst.IsPlain) (hc : c.Inside area base) :
    m.run (budget + 1) (c.onto base.length under) =
      m.settle base.length under (m.loop base.length (budget + 1) c) := by
  obtain ⟨es, hs, hes⟩ := hc.stack
  rw [run_succ, loop_succ, turn_plain hi hp, Config.onto_eq hs]
  have hacts : ∀ d, m.Acts c d → area d.pc → (∀ e ∈ d.stack, e.StaysIn area) →
      m.proceed budget (m.step { c with stack := es ++ under }) =
        m.settle base.length under
          (m.loop base.length budget { d with stack := d.stack ++ c.stack }) := by
    intro d hd hpc hstays
    have hstack : d.stack ++ c.stack = (d.stack ++ es) ++ base := by rw [hs, List.append_assoc]
    have honto : Config.onto base.length under { d with stack := d.stack ++ c.stack } =
        { d with stack := d.stack ++ (es ++ under) } := by
      rw [Config.onto_eq hstack, List.append_assoc]
    have hinside : Config.Inside area base { d with stack := d.stack ++ c.stack } :=
      ⟨hpc, d.stack ++ es, hstack, List.forall_mem_append.mpr ⟨hstays, hes⟩⟩
    rw [hd (es ++ under), ← h _ hinside, honto]
    rfl
  cases effect_of_plain hi hp with
  | balks hd =>
    rw [hd.attempt, hd (es ++ under)]
    exact h.fails hs hes
  | writes d hd hpc hwrites =>
    rw [hd.attempt]
    exact hacts d hd (hclosed _ hpc) fun e he => (hwrites e he).staysIn
  | chooses first second hsplit hd =>
    rw [hd.attempt]
    subst hsplit
    have hsecond : area second := hclosed second (by simp [Inst.successors])
    exact hacts _ hd (hclosed first (by simp [Inst.successors]))
      (List.forall_mem_singleton.mpr hsecond)

/-- The entry of a lookahead stands where the run that is called for its body ends. -/
theorem RunsOnto.look {negated : Bool} {next : Nat} {inner : Nat → Prop}
    (h : ∀ left ≤ budget, m.RunsOnto left area base under)
    (hbody : ∀ under, m.RunsOnto budget inner c.stack under)
    (hi : m.program.insts[c.pc]? = some (.look negated next)) (hinner : inner (c.pc + 1))
    (hnext : area next) (hc : c.Inside area base) :
    m.run (budget + 1) (c.onto base.length under) =
      m.settle base.length under (m.loop base.length (budget + 1) c) := by
  obtain ⟨es, hs, hes⟩ := hc.stack
  let entry := Entry.lookahead negated next c.pos
  have hstep : m.step (c.onto base.length under) =
      .running (c.next.onto c.stack.length (entry :: (es ++ under))) := by
    have hempty : c.next.stack = [] ++ c.stack := rfl
    rw [Config.onto_eq hs, Config.onto_eq hempty]
    simp only [step, hi]
    rfl
  have hrun : m.run budget (c.next.onto c.stack.length (entry :: (es ++ under))) =
      m.settle c.stack.length (entry :: (es ++ under)) (m.call budget c.next) :=
    hbody _ c.next ⟨hinner, [], rfl, nofun⟩
  have hleft : (m.call budget c.next).2 ≤ budget := loop_left_le c.stack.length budget c.next
  have hleaves := call_leaves (m := m) budget c.next
  rw [run_succ, loop_succ, hstep, proceed, hrun]
  simp only [turn, hi]
  cases hreturn : m.call budget c.next with
  | mk r left =>
    rw [hreturn] at hleft hleaves
    cases r with
    | exhausted | lost => rfl
    | matched d =>
      have hback : c.Restored (d.unwindTo c.stack.length) := Config.Under.unwindTo hleaves
      obtain ⟨es', hs', hn, -⟩ := hleaves
      have hleave : (d.onto c.stack.length (entry :: (es ++ under))).leaveLookahead = _ :=
        Config.leaveLookahead_onto hs' hn
      rw [settle, hleave]
      cases negated with
      | true => exact (h left hleft).fails (hback.stack.trans hs) hes
      | false =>
        let kept := es'.filter (!·.isChoice)
        let e : Config := { d.commit c.stack.length with pc := next, pos := c.pos }
        have hstack : e.stack = (kept ++ es) ++ base := by
          rw [List.append_assoc, ← hs]
          exact Config.commit_stack hs'
        have hkept : ∀ e ∈ kept, e.StaysIn area := fun e he =>
          Entry.staysIn_of_kept (hn e (List.mem_filter.mp he).1) (List.mem_filter.mp he).2
        have hrest := h left hleft e
          ⟨hnext, kept ++ es, hstack, List.forall_mem_append.mpr ⟨hkept, hes⟩⟩
        rw [Config.onto_eq hstack, List.append_assoc] at hrest
        exact hrest
    | unmatched d =>
      have hback : c.Restored d := ⟨hleaves.slots, hleaves.marks, hleaves.stack⟩
      have hstack : d.stack = es ++ base := hback.stack.trans hs
      rw [settle]
      cases negated with
      | false => exact (h left hleft).fails hstack hes
      | true =>
        let e : Config := { d with pc := next, pos := c.pos }
        have hrest := h left hleft e ⟨hnext, es, hstack, hes⟩
        rw [Config.onto_eq (show e.stack = es ++ base from hstack)] at hrest
        exact hrest

/-- A run on one stack with the entries of the lookaheads goes as the run that is called again for
the body of each. -/
theorem runsOnto (hbodies : m.program.SecludesBodies)
    (hclosed : ∀ pc inst, area pc → m.program.insts[pc]? = some inst →
      ∀ t ∈ inst.successors pc, area t)
    (hunder : under = [] ∨ ∀ pc, area pc → m.program.insts[pc]? ≠ some .accept) (budget : Nat) :
    m.RunsOnto budget area base under := by
  -- A body runs over another stack and in another part of the program, with less of the budget.
  induction budget using Nat.strongRecOn generalizing area base under with
  | ind budget ih =>
    intro c hc
    cases budget with
    | zero =>
      rw [run, loop]
      rfl
    | succ budget =>
      have hrest : ∀ left ≤ budget, m.RunsOnto left area base under := fun left hleft =>
        ih left (Nat.lt_succ_of_le hleft) hclosed hunder
      have hat : (c.onto base.length under).pc = c.pc := rfl
      cases hi : m.program.insts[c.pc]? with
      | none =>
        rw [run_succ, loop_succ]
        simp only [step, turn, hat, hi]
        rfl
      | some inst =>
        have hsuccessors := hclosed c.pc inst hc.pc hi
        have hplain (hp : inst.IsPlain) :=
          RunsOnto.plain (hrest budget (Nat.le_refl _)) hsuccessors hi hp hc
        cases inst with
        | look negated next =>
          obtain ⟨inner, hinner, hpc⟩ := hbodies c.pc negated next hi
          have hbody : ∀ under, m.RunsOnto budget inner c.stack under := fun under =>
            ih budget (Nat.lt_succ_self _) hinner.closed (.inr hinner.never_accepts)
          have hnext : area next := hsuccessors next (by simp [Inst.successors])
          exact RunsOnto.look hrest hbody hi hpc hnext hc
        | accept =>
          obtain rfl : under = [] := hunder.resolve_right fun h => h c.pc hc.pc hi
          obtain ⟨es, hs, hes⟩ := hc.stack
          have hnone : ∀ e ∈ (c.onto base.length []).stack, e.isLookahead = false := by
            rw [Config.onto_eq hs]
            simpa using fun e he => (hes e he).isLookahead
          rw [run_succ, loop_succ]
          simp only [step, turn, hat, hi, settle, Config.leaveLookahead_eq_accepted hnone]
        | succeed =>
          rw [run_succ, loop_succ]
          simp only [step, turn, hat, hi, settle]
        | _ => exact hplain trivial

end Machine
end VbaWorkbench.Pattern
