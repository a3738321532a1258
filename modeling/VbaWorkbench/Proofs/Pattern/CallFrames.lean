import VbaWorkbench.Proofs.Pattern.NestedRun

namespace VbaWorkbench.Pattern

namespace Config

/-- All that has been written since `c` is recorded above its stack, and no lookahead is running
there. -/
def Under (c d : Config) : Prop :=
  ∃ es, d.stack = es ++ c.stack ∧ (∀ e ∈ es, e.isLookahead = false) ∧
    unwind es (d.slots, d.marks) = (c.slots, c.marks)

/-- Nothing is left of what has been written since `c`. -/
structure Restored (c d : Config) : Prop where
  slots : d.slots = c.slots
  marks : d.marks = c.marks
  stack : d.stack = c.stack

variable {c d e : Config}

theorem Under.refl (c : Config) : Under c c :=
  ⟨[], rfl, nofun, rfl⟩

theorem Under.trans (h : Under c d) (h' : Under d e) : Under c e := by
  obtain ⟨es, hs, hn, hu⟩ := h
  obtain ⟨es', hs', hn', hu'⟩ := h'
  exact ⟨es' ++ es, by rw [hs', hs, List.append_assoc], List.forall_mem_append.mpr ⟨hn', hn⟩,
    by rw [unwind_append, hu', hu]⟩

theorem Restored.under (h : Restored c d) : Under c d :=
  ⟨[], h.stack, nofun, by rw [unwind, h.slots, h.marks]⟩

theorem Under.unwindTo (h : Under c d) : Restored c (d.unwindTo c.stack.length) := by
  obtain ⟨es, hs, -, hu⟩ := h
  have hpair : unwind (d.above c.stack.length) (d.slots, d.marks) = (c.slots, c.marks) := by
    rw [above_eq hs, hu]
  exact ⟨congrArg Prod.fst hpair, congrArg Prod.snd hpair, below_eq hs⟩

/-- Choices record no writes, so it does no harm to give them up. -/
theorem Under.commit (h : Under c d) (pc pos : Nat) :
    Under c { d.commit c.stack.length with pc := pc, pos := pos } := by
  obtain ⟨es, hs, hn, hu⟩ := h
  exact ⟨_, commit_stack hs, fun e he => hn e (List.mem_filter.mp he).1,
    (unwind_writes es _).trans hu⟩

/-- A choice above the stack of `c` was left after `c`. -/
theorem Under.retreat (h : Under c d) (hback : d.retreat c.stack.length = .ok e) : Under c e := by
  obtain ⟨es, hs, hn, hu⟩ := h
  obtain ⟨later, rest, rfl, hstack, -, hunwind⟩ := retreat_ok hs hback
  have hrest : ∀ e ∈ rest, e.isLookahead = false := fun e he => hn e (by simp [he])
  refine ⟨rest, hstack, hrest, ?_⟩
  rw [← hunwind, ← hu, unwind_append]
  rfl

theorem Under.retreat_error (h : Under c d) (hback : d.retreat c.stack.length = .error e) :
    Restored c e := by
  rw [(Config.retreat_error hback).1]
  exact h.unwindTo

end Config

/-- What a run leaves that was called at `c`. -/
def Return.Leaves (c : Config) : Return → Prop
  | .matched d => c.Under d
  | .unmatched d => c.Restored d
  | .exhausted | .lost => True

/-- A round leaves one choice, that of a split, or none. -/
def Machine.Chooses (m : Machine) (c d : Config) : Prop :=
  (∃ first second, m.program.insts[c.pc]? = some (.split first second) ∧
    d = { c with pc := first, stack := .choice second c.pos :: c.stack }) ∨
  ∃ es, d.stack = es ++ c.stack ∧ ∀ e ∈ es, e.isChoice = false

/-- What a round leaves that begins at `c`. A run returns without a match only from its way back. -/
def Turn.Leaves (m : Machine) (c : Config) : Turn → Prop
  | .goesOn d => c.Under d ∧ m.Chooses c d
  | .fails d => c.Restored d
  | .returns (.matched d) => c.Under d
  | .returns (.unmatched _) => False
  | .returns _ => True

theorem Entry.IsWrite.isChoice {e : Entry} (h : e.IsWrite) : e.isChoice = false := by
  cases e with
  | slot _ _ | mark _ _ => rfl
  | choice _ _ | lookahead _ _ _ => exact h.elim

theorem Entry.IsWrite.isLookahead {e : Entry} (h : e.IsWrite) : e.isLookahead = false := by
  cases e with
  | slot _ _ | mark _ _ => rfl
  | choice _ _ | lookahead _ _ _ => exact h.elim

namespace Machine

variable {m : Machine} {c d : Config}

theorem Acts.under (h : m.Acts c d) (hd : ∀ e ∈ d.stack, e.isLookahead = false) :
    c.Under { d with stack := d.stack ++ c.stack } := by
  have hrestores := step_restores m { c with stack := [] }
  rw [h []] at hrestores
  rw [List.append_nil] at hrestores
  exact ⟨d.stack, rfl, hd, hrestores⟩

theorem turn_leaves {body : Config → Return × Nat} (hbody : ∀ c, (body c).1.Leaves c)
    (budget : Nat) (c : Config) : (m.turn body budget c).1.Leaves m c := by
  cases hinst : m.program.insts[c.pc]? with
  | none =>
    simp only [turn, hinst]
    trivial
  | some inst =>
    have hplain (hp : inst.IsPlain) : (m.turn body budget c).1.Leaves m c := by
      rw [turn_plain hinst hp]
      cases effect_of_plain hinst hp with
      | balks h =>
        rw [h.attempt]
        exact ⟨rfl, rfl, rfl⟩
      | writes d h _ hwrites =>
        rw [h.attempt]
        exact ⟨h.under fun e he => (hwrites e he).isLookahead,
          .inr ⟨d.stack, rfl, fun e he => (hwrites e he).isChoice⟩⟩
      | chooses first second hsplit h =>
        rw [h.attempt]
        exact ⟨h.under (List.forall_mem_singleton.mpr rfl),
          .inl ⟨first, second, hinst.trans (congrArg some hsplit), rfl⟩⟩
    cases inst with
    | look negated next =>
      have hnext := hbody c.next
      simp only [turn, hinst]
      cases hreturn : body c.next with
      | mk r left =>
        rw [hreturn] at hnext
        cases r with
        | matched d =>
          cases negated with
          | true => exact Config.Under.unwindTo hnext
          | false =>
            have hunder : c.Under { d.commit c.stack.length with pc := next, pos := c.pos } :=
              Config.Under.commit hnext next c.pos
            obtain ⟨es, hs, -⟩ := hnext
            have hkept : ∀ e ∈ es.filter (!·.isChoice), e.isChoice = false := fun e he => by
              simpa using (List.mem_filter.mp he).2
            exact ⟨hunder, .inr ⟨_, Config.commit_stack hs, hkept⟩⟩
        | unmatched d =>
          have hback : c.Restored d := ⟨hnext.slots, hnext.marks, hnext.stack⟩
          cases negated with
          | true => exact ⟨hback.under, .inr ⟨[], hback.stack, List.forall_mem_nil _⟩⟩
          | false => exact hback
        | exhausted | lost => trivial
    | accept | succeed =>
      simp only [turn, hinst]
      exact Config.Under.refl c
    | _ => exact hplain trivial

/-- Whatever a run was called for, it leaves nothing behind when it does not match, and records all
that it has written when it does. -/
theorem call_leaves (budget : Nat) (c : Config) : (m.call budget c).1.Leaves c := by
  induction budget using Nat.strongRecOn generalizing c with
  | ind budget ih =>
    refine loop_induction (P := c.Under) trivial (fun b hb d hd => ?_) (.refl c)
    have hturn : (m.turn (m.call b) b d).1.Leaves m d := turn_leaves (ih b hb) b d
    cases hround : (m.turn (m.call b) b d).1 <;> rw [hround] at hturn
    case goesOn e => exact hd.trans hturn.1
    case fails e =>
      have he : c.Under e := hd.trans hturn.under
      exact ⟨fun _ hback => he.retreat hback, fun _ hback => he.retreat_error hback⟩
    case returns r =>
      cases r with
      | matched e => exact hd.trans hturn
      | unmatched e => exact hturn.elim
      | exhausted | lost => trivial

theorem call_turn_leaves (m : Machine) (budget : Nat) (c : Config) :
    (m.turn (m.call budget) budget c).1.Leaves m c :=
  turn_leaves (call_leaves budget) budget c

/-- All along a run, what has been written since it was called is recorded above the height at which
it was called. -/
theorem Rounds.under (h : m.Rounds c.stack.length c d) : c.Under d := by
  induction h with
  | refl => exact .refl c
  | @goesOn d e budget left _ hturn ih =>
    have hleaves := m.call_turn_leaves budget d
    rw [hturn] at hleaves
    exact ih.trans hleaves.1
  | @retreats d e f budget left _ hturn hback ih =>
    have hleaves := m.call_turn_leaves budget d
    rw [hturn] at hleaves
    exact (ih.trans hleaves.under).retreat hback

/-- What stands on a stack without choices stands above each choice. -/
theorem choice_behind {es stack above below : List Entry} {pc pos : Nat}
    (h : es ++ stack = above ++ .choice pc pos :: below) (hes : ∀ e ∈ es, e.isChoice = false) :
    ∃ above, stack = above ++ .choice pc pos :: below := by
  rcases List.append_eq_append_iff.mp h with ⟨rest, -, hrest⟩ | ⟨rest, hes', hrest⟩
  · exact ⟨rest, hrest⟩
  · cases rest with
    | nil => exact ⟨[], hrest.symm⟩
    | cons e rest =>
      obtain ⟨rfl, -⟩ := List.cons.inj hrest
      cases hes (.choice pc pos) (by simp [hes'])

/-- The run that was called at `c` has left a choice at `s`, to go on at `pc`, and has stayed above
it up to `d`. -/
structure Keeps (m : Machine) (c s d : Config) (pc : Nat) : Prop where
  reached : m.Rounds c.stack.length c s
  kept : ∃ first, m.program.insts[s.pc]? = some (.split first pc) ∧
    m.Rounds (s.stack.length + 1)
      { s with pc := first, stack := .choice pc s.pos :: s.stack } d

/-- Each choice of the run on the stack was left at some time. -/
theorem Rounds.keeps {above below : List Entry} {pc pos : Nat}
    (h : m.Rounds c.stack.length c d) (hstack : d.stack = above ++ .choice pc pos :: below)
    (hheight : c.stack.length ≤ below.length) :
    ∃ s, m.Keeps c s d pc ∧ s.pos = pos ∧ s.stack = below := by
  induction h generalizing above with
  | refl =>
    have hlength := congrArg List.length hstack
    simp only [List.length_append, List.length_cons] at hlength
    omega
  | @goesOn d e budget left hrounds hturn ih =>
    have hin : ∀ above, d.stack = above ++ .choice pc pos :: below →
        ∃ s, m.Keeps c s e pc ∧ s.pos = pos ∧ s.stack = below := by
      intro above habove
      obtain ⟨s, ⟨hs, first, hi, hr⟩, hp, hb⟩ := ih habove
      exact ⟨s, ⟨hs, first, hi, hr.goesOn hturn⟩, hp, hb⟩
    have hleaves := m.call_turn_leaves budget d
    rw [hturn] at hleaves
    rcases hleaves.2 with ⟨first, second, hinst, rfl⟩ | ⟨es, hes, hnone⟩
    · cases above with
      | nil =>
        obtain ⟨hchoice, rfl⟩ := List.cons.inj hstack
        cases hchoice
        exact ⟨d, ⟨hrounds, first, hinst, .refl _⟩, rfl, rfl⟩
      | cons e above => exact hin above (List.cons.inj hstack).2
    · obtain ⟨above, habove⟩ := choice_behind (hes.symm.trans hstack) hnone
      exact hin above habove
  | @retreats d e f budget left hrounds hturn hback ih =>
    have hleaves := m.call_turn_leaves budget d
    rw [hturn] at hleaves
    obtain ⟨later, hlater, hnone, hle, hunwind⟩ := Config.retreat_eq_ok_iff.mp hback
    have hd : d.stack = (later ++ .choice f.pc f.pos :: above) ++ .choice pc pos :: below := by
      rw [← hleaves.stack, hlater, hstack, List.append_assoc, List.cons_append]
    obtain ⟨s, ⟨hs, first, hi, hr⟩, hp, rfl⟩ := ih hd
    have hbelow : s.stack.length + 1 ≤ f.stack.length := by
      rw [hstack, List.length_append, List.length_cons]
      omega
    have hback' : e.retreat (s.stack.length + 1) = .ok f :=
      Config.retreat_eq_ok_iff.mpr ⟨later, hlater, hnone, hbelow, hunwind⟩
    exact ⟨s, ⟨hs, first, hi, hr.retreats hturn hback'⟩, hp, rfl⟩

/-- A run that goes back to a choice is again as it was when it left the choice, but for the
address. -/
theorem Rounds.retreat_restores {e f : Config} {budget left : Nat}
    (h : m.Rounds c.stack.length c d) (hturn : m.turn (m.call budget) budget d = (.fails e, left))
    (hback : e.retreat c.stack.length = .ok f) :
    ∃ s, m.Keeps c s d f.pc ∧ f = { s with pc := f.pc } := by
  have hleaves := m.call_turn_leaves budget d
  rw [hturn] at hleaves
  obtain ⟨later, hlater, -, hheight, hunwind⟩ := Config.retreat_eq_ok_iff.mp hback
  rw [hleaves.stack] at hlater
  rw [hleaves.slots, hleaves.marks] at hunwind
  obtain ⟨s, hkeeps, hpos, hstack⟩ := h.keeps hlater hheight
  obtain ⟨first, -, hrounds⟩ := hkeeps.kept
  obtain ⟨es, hes, -, hu⟩ := Rounds.under
    (c := { s with pc := first, stack := .choice f.pc s.pos :: s.stack }) hrounds
  have hsame : es = later := by
    rw [hlater, ← hpos, ← hstack] at hes
    exact (List.append_cancel_right hes).symm
  rw [hsame, hunwind] at hu
  obtain ⟨hslots, hmarks⟩ := Prod.mk.inj hu
  refine ⟨s, hkeeps, ?_⟩
  rw [Config.mk.injEq]
  exact ⟨rfl, hpos.symm, hslots, hmarks, hstack.symm⟩

end Machine
end VbaWorkbench.Pattern
