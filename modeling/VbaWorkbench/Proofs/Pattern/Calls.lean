import VbaWorkbench.Proofs.Pattern.Flattening

namespace VbaWorkbench.Pattern

theorem Program.Realizes.secludesBodies {program : Program} {node : Node}
    (h : program.Realizes node) : program.SecludesBodies :=
  fun _ _ _ hi => h.secludes_body hi

/-- How a run ends that no other has called. -/
def Return.verdict : Return → Machine.Verdict
  | .matched c => .accepted c
  | .unmatched _ | .lost => .failed
  | .exhausted => .exhausted

namespace Machine

variable {m : Machine} {c : Config}

/-- A run on an empty stack goes as one that is called there. -/
theorem run_eq_call (hbodies : m.program.SecludesBodies) (budget : Nat) (hc : c.stack = []) :
    m.run budget c = ((m.call budget c).1.verdict, (m.call budget c).2) := by
  have honto : ∀ d : Config, d.onto [].length [] = d := fun d => by
    rw [Config.onto_eq (List.append_nil d.stack).symm, List.append_nil]
  have hinside : c.Inside (fun _ => True) [] := ⟨trivial, [], hc, nofun⟩
  have hrun := runsOnto hbodies (fun _ _ _ _ _ _ => trivial) (.inl rfl) budget c hinside
  have hcall : m.loop ([] : List Entry).length budget c = m.call budget c := by
    rw [call, hc]
  have hleaves := call_leaves (m := m) budget c
  rw [honto, hcall] at hrun
  rw [hrun]
  cases hreturn : m.call budget c with
  | mk r left =>
    rw [hreturn] at hleaves
    cases r with
    | unmatched d | exhausted | lost => rfl
    | matched d =>
      obtain ⟨es, hs, hes, -⟩ := hleaves
      rw [hc, List.append_nil] at hs
      rw [settle, honto, Config.leaveLookahead_eq_accepted (hs ▸ hes)]
      rfl

/-- A lookahead goes on as the run has returned that is called for its body. -/
theorem run_look (hbodies : m.program.SecludesBodies) {negated : Bool} {next : Nat}
    (hi : m.program.insts[c.pc]? = some (.look negated next)) (budget : Nat) :
    m.run (budget + 1) c =
      m.settle c.stack.length (.lookahead negated next c.pos :: c.stack)
        (m.call budget c.next) := by
  obtain ⟨inner, hinner, hpc⟩ := hbodies c.pc negated next hi
  have hbody : m.RunsOnto budget inner c.stack (.lookahead negated next c.pos :: c.stack) :=
    runsOnto hbodies hinner.closed (.inr hinner.never_accepts) budget
  have hrun := hbody c.next ⟨hpc, [], rfl, nofun⟩
  have hstack : c.next.stack = [] ++ c.stack := rfl
  rw [Config.onto_eq hstack] at hrun
  rw [run_succ]
  simp only [step, hi]
  exact hrun

end Machine

/-- A run on one stack is a run that is called again for the body of each lookahead. Such a call
leaves slots, marks and stack as they were when it does not match. When it matches, it has left the
stack alone that it was called on, and undoing what stands above gives back the slots and marks.
Where it goes back to a choice, all but the address is again as it was when the choice was left. -/
theorem call_restores {pattern : Text} {p : Pattern} (hcompile : compile pattern = .ok p)
    (subject : Text) (options : MatchOptions) :
    let m := p.machine subject options
    (∀ budget c, c.stack = [] →
      m.run budget c = ((m.call budget c).1.verdict, (m.call budget c).2)) ∧
    (∀ budget c negated next, m.program.insts[c.pc]? = some (.look negated next) →
      m.run (budget + 1) c =
        m.settle c.stack.length (.lookahead negated next c.pos :: c.stack)
          (m.call budget c.next)) ∧
    (∀ budget c d left, m.call budget c = (.unmatched d, left) → c.Restored d) ∧
    (∀ budget c d left, m.call budget c = (.matched d, left) →
      c.stack <:+ d.stack ∧ c.Restored (d.unwindTo c.stack.length)) ∧
    ∀ budget c d e f left, m.Rounds c.stack.length c d →
      m.turn (m.call budget) budget d = (.fails e, left) → e.retreat c.stack.length = .ok f →
      ∃ s, m.Keeps c s d f.pc ∧ f = { s with pc := f.pc } := by
  obtain ⟨parsed, -, hp⟩ := compile_realizes hcompile
  intro m
  have hbodies : m.program.SecludesBodies := hp.secludesBodies
  refine ⟨fun budget c hc => Machine.run_eq_call hbodies budget hc,
    fun budget c negated next hi => Machine.run_look hbodies hi budget, ?_, ?_,
    fun budget c d e f left hrounds hturn hback => hrounds.retreat_restores hturn hback⟩
  · intro budget c d left hreturn
    have hleaves := Machine.call_leaves (m := m) budget c
    rw [hreturn] at hleaves
    exact hleaves
  · intro budget c d left hreturn
    have hleaves := Machine.call_leaves (m := m) budget c
    rw [hreturn] at hleaves
    obtain ⟨es, hs, -⟩ := id hleaves
    exact ⟨⟨es, hs.symm⟩, Config.Under.unwindTo hleaves⟩

theorem call_restores_lookahead :
    let pattern := "(?:(?=(a+))b|(a))(?!b)".toList
    ∃ p, compile pattern = .ok p ∧
      let m := p.machine "aab".toList .default
      let c := Config.starting m.program m.newMarks 0
      let c' := Config.starting m.program m.newMarks 1
      (∃ d left, m.call 100 c = (.matched d, left) ∧ Machine.captured? d.slots 2 = some (0, 1) ∧
        c.stack <:+ d.stack ∧ c.Restored (d.unwindTo c.stack.length)) ∧
      (∃ d left, m.call 100 c' = (.unmatched d, left) ∧ c'.Restored d) ∧
      ∃ d e f left, m.Rounds c.stack.length c d ∧
        m.turn (m.call 100) 100 d = (.fails e, left) ∧
        Machine.captured? e.slots 1 = some (0, 2) ∧ e.retreat c.stack.length = .ok f ∧
        ∃ s, m.Keeps c s d f.pc ∧ f = { s with pc := f.pc } := by
  intro pattern
  have hsome : (compile pattern).toOption.isSome = true := by decide +kernel
  obtain ⟨p, hp⟩ := Option.isSome_iff_exists.mp hsome
  have hat {α : Type} (f : Pattern → α) (a : α) (h : (compile pattern).toOption.map f = some a) :
      f p = a := by
    rw [hp] at h
    exact Option.some.inj h
  let m (p : Pattern) : Machine := p.machine "aab".toList .default
  let c (p : Pattern) (start : Nat) : Config := .starting (m p).program (m p).newMarks start
  have hmatch := hat (fun p => (m p).call 100 (c p 0))
    (.matched ⟨19, 1, #[none, none, none, none, some 0, some 1], #[0],
      [.slot 5 none, .slot 4 none]⟩, 79) (by decide +kernel)
  have hnone := hat (fun p => (m p).call 100 (c p 1))
    (.unmatched ⟨18, 3, #[none, none, none, none, none, none], #[0], []⟩, 84) (by decide +kernel)
  -- The first round leaves the choice, the second is that of the lookahead, and the third fails.
  let d₁ : Config := ⟨1, 0, #[none, none, none, none, none, none], #[0], [.choice 13 0]⟩
  let d₂ : Config := ⟨11, 0, #[none, none, some 0, some 2, none, none], #[1],
    [.slot 3 none, .mark 0 0, .slot 2 none, .choice 13 0]⟩
  have hfirst := hat (fun p => (m p).turn ((m p).call 100) 100 (c p 0)) (.goesOn d₁, 100)
    (by decide +kernel)
  have hsecond := hat (fun p => (m p).turn ((m p).call 100) 100 d₁) (.goesOn d₂, 88)
    (by decide +kernel)
  have hthird := hat (fun p => (m p).turn ((m p).call 100) 100 d₂) (.fails d₂, 100)
    (by decide +kernel)
  have hrounds : (m p).Rounds (c p 0).stack.length (c p 0) d₂ :=
    ((Machine.Rounds.refl (c p 0)).goesOn hfirst).goesOn hsecond
  have hretreat : d₂.retreat 0 = .ok ⟨13, 0, #[none, none, none, none, none, none], #[0], []⟩ := rfl
  obtain ⟨-, -, hunmatched, hmatched, hback⟩ :=
    call_restores (ok_of_toOption hp) "aab".toList .default
  exact ⟨p, ok_of_toOption hp, ⟨_, _, hmatch, rfl, hmatched _ _ _ _ hmatch⟩,
    ⟨_, _, hnone, hunmatched _ _ _ _ hnone⟩,
    ⟨d₂, d₂, _, _, hrounds, hthird, rfl, hretreat, hback _ _ _ _ _ _ hrounds hthird hretreat⟩⟩

end VbaWorkbench.Pattern
