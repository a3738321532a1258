import Mathlib.Data.List.TakeWhile
import VbaWorkbench.Proofs.Pattern.Enclosure
import VbaWorkbench.Proofs.Pattern.Restoring

namespace VbaWorkbench.Pattern

/-- How a run returns that is called again for the body of each lookahead. -/
inductive Return where
  /-- A match ends where the configuration is. -/
  | matched (c : Config)
  | unmatched (c : Config)
  | exhausted
  /-- The program has no instruction at the address. -/
  | lost
deriving DecidableEq, Repr

/-- What one round of such a run comes to. -/
inductive Turn where
  | goesOn (c : Config)
  | fails (c : Config)
  | returns (r : Return)
deriving DecidableEq, Repr

namespace Config

/-- The entries of the stack above a height. -/
def above (height : Nat) (c : Config) : List Entry :=
  c.stack.take (c.stack.length - height)

def below (height : Nat) (c : Config) : List Entry :=
  c.stack.drop (c.stack.length - height)

/-- Undoes all that is recorded above a height. -/
def unwindTo (height : Nat) (c : Config) : Config :=
  let (slots, marks) := unwind (c.above height) (c.slots, c.marks)
  ⟨c.pc, c.pos, slots, marks, c.below height⟩

/-- Gives up the choices above a height and keeps what is recorded there. -/
def commit (height : Nat) (c : Config) : Config :=
  { c with stack := (c.above height).filter (!·.isChoice) ++ c.below height }

/-- Goes back to the newest choice above a height and undoes the writes after it. Without a choice
all is undone down to the height. -/
def retreat (height : Nat) (c : Config) : Except Config Config :=
  match (c.above height).dropWhile (!·.isChoice) with
  | .choice pc pos :: rest =>
    let (slots, marks) := unwind ((c.above height).takeWhile (!·.isChoice)) (c.slots, c.marks)
    .ok ⟨pc, pos, slots, marks, rest ++ c.below height⟩
  | _ => .error (c.unwindTo height)

end Config

namespace Machine

/-- The configuration after an instruction that calls no run and ends none, unless it fails. -/
def attempt? (m : Machine) (c : Config) : Option Config :=
  match m.step { c with stack := [] } with
  | .running c' => some { c' with stack := c'.stack ++ c.stack }
  | _ => none

/-- One round: it executes an instruction, or lets `body` run the body of a lookahead from the next
address on. The body of a positive lookahead loses its choices, that of a negative one all that it
has written. -/
def turn (m : Machine) (body : Config → Return × Nat) (budget : Nat) (c : Config) : Turn × Nat :=
  match m.program.insts[c.pc]? with
  | none => (.returns .lost, budget)
  | some .accept | some .succeed => (.returns (.matched c), budget)
  | some (.look negated next) =>
    match body c.next with
    | (.matched c', left) =>
      if negated then (.fails (c'.unwindTo c.stack.length), left)
      else (.goesOn { c'.commit c.stack.length with pc := next, pos := c.pos }, left)
    | (.unmatched c', left) =>
      if negated then (.goesOn { c' with pc := next, pos := c.pos }, left) else (.fails c', left)
    | (r, left) => (.returns r, left)
  | some _ =>
    match m.attempt? c with
    | some c' => (.goesOn c', budget)
    | none => (.fails c, budget)

/-- The rounds of a run that was called when the stack had the height `height`, with what is left of
the budget. Where a round fails the run goes back to a choice of its own. -/
def loop (m : Machine) (height : Nat) : (budget : Nat) → Config → Return × Nat
  | 0, _ => (.exhausted, 0)
  | budget + 1, c =>
    match m.turn (fun c => m.loop c.stack.length budget c) budget c with
    | (.goesOn c, left) => m.loop height (min left budget) c
    | (.fails c, left) =>
      match c.retreat height with
      | .ok c => m.loop height (min left budget) c
      | .error c => (.unmatched c, left)
    | (.returns r, left) => (r, left)
termination_by budget => budget
decreasing_by all_goals omega

/-- A run that is called in this configuration. -/
def call (m : Machine) (budget : Nat) (c : Config) : Return × Nat :=
  m.loop c.stack.length budget c

/-- Rounds of a run that was called at some height of the stack lead from one configuration to
another. -/
inductive Rounds (m : Machine) (height : Nat) : Config → Config → Prop
  | refl (c : Config) : Rounds m height c c
  | goesOn {c c' c'' : Config} {budget left : Nat} : Rounds m height c c' →
      m.turn (m.call budget) budget c' = (.goesOn c'', left) → Rounds m height c c''
  | retreats {c c' c'' d : Config} {budget left : Nat} : Rounds m height c c' →
      m.turn (m.call budget) budget c' = (.fails c'', left) → c''.retreat height = .ok d →
      Rounds m height c d

end Machine

namespace Config

variable {c d : Config} {es stack : List Entry} {height : Nat}

theorem above_eq (h : c.stack = es ++ stack) : c.above stack.length = es := by
  simp [above, h]

theorem below_eq (h : c.stack = es ++ stack) : c.below stack.length = stack := by
  simp [below, h]

theorem commit_stack (h : c.stack = es ++ stack) :
    (c.commit stack.length).stack = es.filter (!·.isChoice) ++ stack := by
  rw [commit, above_eq h, below_eq h]

theorem above_append_below (height : Nat) (c : Config) :
    c.above height ++ c.below height = c.stack :=
  List.take_append_drop _ _

/-- Where going back ends: at the newest choice, if it stands above the height. -/
theorem retreat_eq_ok_iff : c.retreat height = .ok d ↔
    ∃ es, c.stack = es ++ .choice d.pc d.pos :: d.stack ∧ (∀ e ∈ es, e.isChoice = false) ∧
      height ≤ d.stack.length ∧ unwind es (c.slots, c.marks) = (d.slots, d.marks) := by
  constructor
  · intro h
    unfold retreat at h
    split at h
    · rename_i pc pos rest hdrop
      cases h
      refine ⟨(c.above height).takeWhile (!·.isChoice), ?_, fun e he => ?_, ?_, rfl⟩
      · rw [← above_append_below height c, ← List.cons_append, ← List.append_assoc, ← hdrop,
          List.takeWhile_append_dropWhile]
      · simpa using List.all_eq_true.mp List.all_takeWhile e he
      · have hsome : (c.above height).length ≠ 0 := by
          intro hnil
          rw [List.eq_nil_of_length_eq_zero hnil] at hdrop
          cases hdrop
        rw [above, List.length_take] at hsome
        rw [List.length_append, below, List.length_drop]
        omega
    · cases h
  · rintro ⟨es, hstack, hes, hheight, hunwind⟩
    have hes' : ∀ e ∈ es, (!e.isChoice) = true := fun e he => by rw [hes e he]; rfl
    obtain ⟨rest, kept, hrest, rfl⟩ : ∃ rest kept, d.stack = rest ++ kept ∧ kept.length = height :=
      ⟨_, _, (List.take_append_drop (d.stack.length - height) d.stack).symm, by
        rw [List.length_drop]; omega⟩
    rw [hrest, ← List.cons_append, ← List.append_assoc] at hstack
    rw [retreat, above_eq hstack, below_eq hstack, List.takeWhile_append_of_pos hes',
      List.dropWhile_append_of_pos hes']
    simp only [List.takeWhile_cons, List.dropWhile_cons, Entry.isChoice, Bool.not_true,
      Bool.false_eq_true, if_false, List.append_nil, hunwind, ← hrest]

theorem retreat_ok (hstack : c.stack = es ++ stack) (h : c.retreat stack.length = .ok d) :
    ∃ later rest, es = later ++ .choice d.pc d.pos :: rest ∧ d.stack = rest ++ stack ∧
      (∀ e ∈ later, e.isChoice = false) ∧ unwind later (c.slots, c.marks) = (d.slots, d.marks) := by
  obtain ⟨later, hsplit, hlater, hheight, hunwind⟩ := retreat_eq_ok_iff.mp h
  have hsuffix : d.stack <:+ c.stack := ⟨later ++ [.choice d.pc d.pos], by simp [hsplit]⟩
  obtain ⟨rest, hrest⟩ := List.suffix_of_suffix_length_le ⟨es, hstack.symm⟩ hsuffix hheight
  refine ⟨later, rest, ?_, hrest.symm, hlater, hunwind⟩
  refine List.append_cancel_right (hstack.symm.trans (hsplit.trans ?_))
  rw [← hrest, List.append_assoc, List.cons_append]

theorem retreat_error (h : c.retreat height = .error d) :
    d = c.unwindTo height ∧ ∀ e ∈ c.above height, e.isChoice = false := by
  unfold retreat at h
  split at h
  · cases h
  · rename_i hdrop
    refine ⟨(Except.error.inj h).symm, fun e he => ?_⟩
    cases hrest : (c.above height).dropWhile (!·.isChoice) with
    | nil => simpa using List.dropWhile_eq_nil_iff.mp hrest e he
    | cons first rest =>
      have hfirst : first.isChoice = true := by
        simpa [hrest] using List.head?_dropWhile_not (!·.isChoice) (c.above height)
      cases first with
      | choice pc pos => exact absurd hrest (hdrop pc pos rest)
      | _ => cases hfirst

end Config

/-- A round leads to a configuration again, or to the end of the run. -/
def Turn.Leads (height : Nat) (P : Config → Prop) (Q : Return → Prop) : Turn → Prop
  | .goesOn c => P c
  | .fails c => (∀ d, c.retreat height = .ok d → P d) ∧
      ∀ d, c.retreat height = .error d → Q (.unmatched d)
  | .returns r => Q r

namespace Machine

variable {m : Machine} {c : Config} {height budget : Nat}

theorem turn_left_le {body : Config → Return × Nat} (h : ∀ c, (body c).2 ≤ budget) (c : Config) :
    (m.turn body budget c).2 ≤ budget := by
  unfold turn
  have hbody := h c.next
  split
  all_goals try exact Nat.le_refl _
  · split <;> rename_i hreturn <;> rw [hreturn] at hbody
    · split <;> exact hbody
    · split <;> exact hbody
    · exact hbody
  · split <;> exact Nat.le_refl _

theorem loop_left_le (height budget : Nat) (c : Config) : (m.loop height budget c).2 ≤ budget := by
  induction budget using Nat.strongRecOn generalizing height c with
  | ind budget ih =>
    cases budget with
    | zero => rw [loop]
    | succ budget =>
      have hturn : (m.turn (fun c => m.loop c.stack.length budget c) budget c).2 ≤ budget :=
        turn_left_le (fun c => ih budget (Nat.lt_succ_self _) c.stack.length c) c
      have hrest : ∀ left c, (m.loop height (min left budget) c).2 ≤ budget + 1 := fun left c =>
        Nat.le_trans (ih (min left budget) (by omega) height c) (by omega)
      rw [loop]
      split
      · exact hrest _ _
      · rename_i hfails
        rw [hfails] at hturn
        split
        · exact hrest _ _
        · exact Nat.le_succ_of_le hturn
      · rename_i hreturns
        rw [hreturns] at hturn
        exact Nat.le_succ_of_le hturn

theorem call_turn_left_le (m : Machine) (budget : Nat) (c : Config) :
    (m.turn (m.call budget) budget c).2 ≤ budget :=
  turn_left_le (fun c => loop_left_le c.stack.length budget c) c

/-- A round, and then the rest of the run with what is left. -/
theorem loop_succ (height budget : Nat) (c : Config) :
    m.loop height (budget + 1) c =
      match m.turn (m.call budget) budget c with
      | (.goesOn c, left) => m.loop height left c
      | (.fails c, left) =>
        match c.retreat height with
        | .ok c => m.loop height left c
        | .error c => (.unmatched c, left)
      | (.returns r, left) => (r, left) := by
  have hturn := m.call_turn_left_le budget c
  rw [loop, ← show m.call budget = fun c => m.loop c.stack.length budget c from rfl]
  cases hround : m.turn (m.call budget) budget c with
  | mk turn left =>
    rw [hround] at hturn
    have hmin : min left budget = left := Nat.min_eq_left hturn
    cases turn <;> simp only [hmin]

/-- What holds of the configurations before each round holds until the run returns. -/
theorem loop_induction {P : Config → Prop} {Q : Return → Prop} (hexhausted : Q .exhausted)
    {budget : Nat} (hround : ∀ b < budget, ∀ c, P c →
      (m.turn (m.call b) b c).1.Leads height P Q) (hc : P c) : Q (m.loop height budget c).1 := by
  induction budget using Nat.strongRecOn generalizing c with
  | ind budget ih =>
    cases budget with
    | zero =>
      rw [loop]
      exact hexhausted
    | succ budget =>
      have hleft := m.call_turn_left_le budget c
      have hleads := hround budget (Nat.lt_succ_self _) c hc
      rw [loop_succ]
      cases hturn : m.turn (m.call budget) budget c with
      | mk turn left =>
        rw [hturn] at hleads hleft
        have hnext : ∀ d, P d → Q (m.loop height left d).1 := fun d hd =>
          ih left (Nat.lt_succ_of_le hleft)
            (fun b hb => hround b (Nat.lt_of_lt_of_le hb (Nat.le_succ_of_le hleft))) hd
        cases turn with
        | goesOn d => exact hnext d hleads
        | returns r => exact hleads
        | fails d =>
          obtain ⟨hok, herror⟩ := hleads
          dsimp only
          cases hback : d.retreat height with
          | ok d => exact hnext d (hok d hback)
          | error d => exact herror d hback

end Machine

/-- The record of a write. -/
def Entry.IsWrite : Entry → Prop
  | .slot _ _ | .mark _ _ => True
  | _ => False

namespace Machine

/-- An instruction that leads from `c` to `d` over any stack, where `d` holds what it has put
there. -/
def Acts (m : Machine) (c d : Config) : Prop :=
  ∀ stack, m.step { c with stack := stack } = .running { d with stack := d.stack ++ stack }

/-- An instruction that fails over any stack. -/
def Balks (m : Machine) (c : Config) : Prop :=
  ∀ stack, m.step { c with stack := stack } = Config.backtrack c.slots c.marks stack

variable {m : Machine} {c d : Config} {inst : Inst}

theorem Acts.attempt (h : m.Acts c d) :
    m.attempt? c = some { d with stack := d.stack ++ c.stack } := by
  rw [attempt?, h []]
  simp only [List.append_nil]

theorem Balks.attempt (h : m.Balks c) : m.attempt? c = none := by
  rw [attempt?, h []]
  rfl

theorem clearSlots_onto (n index : Nat) (c : Config) (es stack : List Entry) :
    Config.clearSlots index n { c with stack := es ++ stack } =
      { Config.clearSlots index n { c with stack := es } with
        stack := (Config.clearSlots index n { c with stack := es }).stack ++ stack } := by
  induction n generalizing index c es with
  | zero => rfl
  | succ n ih =>
    let written : Config := ⟨c.pc, c.pos, c.slots.setIfInBounds index none, c.marks, []⟩
    exact ih (index + 1) written (.slot index (c.slots[index]?).join :: es)

theorem clearSlots_writes (n index : Nat) (c : Config) (h : ∀ e ∈ c.stack, e.IsWrite) :
    ∀ e ∈ (Config.clearSlots index n c).stack, e.IsWrite := by
  induction n generalizing index c with
  | zero => exact h
  | succ n ih => exact ih (index + 1) _ (List.forall_mem_cons.mpr ⟨trivial, h⟩)

/-- What a plain instruction comes to: it fails, or it records what it writes, or it leaves a
choice. -/
inductive Effect (m : Machine) (c : Config) (inst : Inst) : Prop
  | balks : m.Balks c → Effect m c inst
  | writes (d : Config) : m.Acts c d → d.pc ∈ inst.successors c.pc → (∀ e ∈ d.stack, e.IsWrite) →
      Effect m c inst
  | chooses (first second : Nat) : inst = .split first second →
      m.Acts c { c with pc := first, stack := [.choice second c.pos] } → Effect m c inst

theorem effect_of_consume (p : Char → Bool) (hn : c.pc + 1 ∈ inst.successors c.pc)
    (h : ∀ stack, m.step { c with stack := stack } = m.consume p { c with stack := stack }) :
    Effect m c inst := by
  unfold consume at h
  by_cases hp : (m.input[c.pos]?).any p = true
  · simp only [hp, if_true] at h
    exact .writes { c with pc := c.pc + 1, pos := c.pos + 1, stack := [] } h hn nofun
  · simp only [hp] at h
    exact .balks h

theorem effect_of_require (holds : Bool) (hn : c.pc + 1 ∈ inst.successors c.pc)
    (h : ∀ stack, m.step { c with stack := stack } = require holds { c with stack := stack }) :
    Effect m c inst := by
  cases holds with
  | true => exact .writes { c with pc := c.pc + 1, stack := [] } h hn nofun
  | false => exact .balks h

theorem effect_of_plain (hi : m.program.insts[c.pc]? = some inst) (hp : inst.IsPlain) :
    Effect m c inst := by
  have hnext : c.pc + 1 ∈ [c.pc + 1] := List.mem_singleton_self _
  have hnil : ∀ e ∈ ([] : List Entry), e.IsWrite := List.forall_mem_nil _
  cases inst with
  | char a =>
    exact effect_of_consume (m.same · a) hnext fun stack => by simp only [step, hi]
  | any =>
    exact effect_of_consume (!isLineTerminator ·) hnext fun stack => by simp only [step, hi]
  | charClass cls =>
    exact effect_of_consume (cls.accepts m.ignoreCase) hnext fun stack => by simp only [step, hi]
  | lineStart =>
    exact effect_of_require (m.atLineStart c.pos) hnext fun stack => by simp only [step, hi]
  | lineEnd =>
    exact effect_of_require (m.atLineEnd c.pos) hnext fun stack => by simp only [step, hi]
  | wordBoundary negated =>
    exact effect_of_require (m.atWordBoundary c.pos != negated) hnext fun stack => by
      simp only [step, hi]
  | progress index =>
    exact effect_of_require (c.marks[index]? != some c.pos) hnext fun stack => by
      simp only [step, hi]
  | split first second =>
    exact .chooses first second rfl fun stack => by simp only [step, hi]; rfl
  | jump target =>
    exact .writes { c with pc := target, stack := [] } (fun stack => by simp only [step, hi]; rfl)
      (List.mem_singleton_self target) hnil
  | save slot =>
    refine .writes ({ c with stack := [] }.setSlot slot (some c.pos)).next
      (fun stack => by simp only [step, hi]; rfl) hnext ?_
    exact List.forall_mem_singleton.mpr trivial
  | mark index =>
    refine .writes ({ c with stack := [] }.setMark index).next
      (fun stack => by simp only [step, hi]; rfl) hnext ?_
    exact List.forall_mem_singleton.mpr trivial
  | reset span =>
    let d := Config.clearSlots (2 * span.first) (2 * (span.last + 1 - span.first))
      { c with stack := [] }
    have hpc : d.next.pc ∈ [c.pc + 1] := by
      rw [Config.next, (Config.clearSlots_fields _ _ _).1]
      exact hnext
    refine .writes d.next (fun stack => ?_) hpc (clearSlots_writes _ _ _ hnil)
    have honto := clearSlots_onto (2 * (span.last + 1 - span.first)) (2 * span.first) c [] stack
    simp only [step, hi]
    exact congrArg (fun d : Config => Outcome.running d.next) honto
  | backref group =>
    cases hback : m.backref? group c with
    | none =>
      refine .balks fun stack => ?_
      have hstack : m.backref? group { c with stack := stack } = none := hback
      simp only [step, hi, hstack]
      rfl
    | some pos =>
      refine .writes { c with pc := c.pc + 1, pos := pos, stack := [] } (fun stack => ?_) hnext hnil
      have hstack : m.backref? group { c with stack := stack } = some pos := hback
      simp only [step, hi, hstack]
      rfl
  | look _ _ | succeed | accept => exact hp.elim

/-- A round with a plain instruction calls no run. -/
theorem turn_plain (hi : m.program.insts[c.pc]? = some inst) (hp : inst.IsPlain)
    (body : Config → Return × Nat) (budget : Nat) : m.turn body budget c =
      match m.attempt? c with
      | some d => (.goesOn d, budget)
      | none => (.fails c, budget) := by
  cases inst with
  | look _ _ | succeed | accept => exact hp.elim
  | _ => simp only [turn, hi]

end Machine
end VbaWorkbench.Pattern
