import VbaWorkbench.Proofs.Pattern.Compiled

namespace VbaWorkbench.Pattern

/-- The slots and marks when everything is undone that the stack records. -/
def Config.undone (c : Config) : Array (Option Nat) × Array Nat :=
  unwind c.stack (c.slots, c.marks)

/-- What an instruction leads to can be undone to these slots and marks. -/
def Outcome.Restores (w : Array (Option Nat) × Array Nat) : Outcome → Prop
  | .running c => c.undone = w
  | .accepted c => c.undone = w
  | .failed => True

namespace Config

theorem undone_setSlot (index : Nat) (value : Option Nat) (c : Config) :
    (c.setSlot index value).undone = c.undone := by
  change unwind c.stack ((c.slots.setIfInBounds index value).setIfInBounds index
    (c.slots[index]?).join, c.marks) = c.undone
  rw [slots_restored]
  rfl

theorem undone_clearSlots (n index : Nat) (c : Config) :
    (c.clearSlots index n).undone = c.undone := by
  induction n generalizing index c with
  | zero => rfl
  | succ n ih => rw [clearSlots, ih, undone_setSlot]

theorem undone_setMark (index : Nat) (c : Config) : (c.setMark index).undone = c.undone := by
  change unwind c.stack (c.slots, (c.marks.setIfInBounds index c.pos).setIfInBounds index
    ((c.marks[index]?).getD 0)) = c.undone
  rw [marks_restored]
  rfl

theorem backtrack_restores (slots : Array (Option Nat)) (marks : Array Nat) (stack : List Entry) :
    (backtrack slots marks stack).Restores (unwind stack (slots, marks)) := by
  induction stack generalizing slots marks with
  | nil => trivial
  | cons e stack ih =>
    cases e with
    | choice pc pos => rfl
    | slot index old => exact ih _ _
    | mark index old => exact ih _ _
    | lookahead negated next pos =>
      cases negated with
      | true => rfl
      | false => exact ih _ _

theorem fail_restores (c : Config) : c.fail.Restores c.undone :=
  backtrack_restores c.slots c.marks c.stack

/-- The choices that a lookahead gives up record no writes. -/
theorem leaveLookahead_restores (c : Config) : c.leaveLookahead.Restores c.undone := by
  unfold leaveLookahead
  dsimp only
  split
  · rename_i negated next pos outside hdrop
    let inside := c.stack.takeWhile (!·.isLookahead)
    have hstack : c.stack = inside ++ .lookahead negated next pos :: outside := by
      rw [← hdrop, List.takeWhile_append_dropWhile]
    have hundone : unwind (inside.filter (!·.isChoice) ++ outside) (c.slots, c.marks) =
        c.undone := by
      rw [undone, hstack, unwind_append, unwind_append, unwind_writes]
      rfl
    cases negated with
    | true =>
      rw [← hundone]
      exact backtrack_restores _ _ _
    | false => exact hundone
  · rfl

end Config

section Steps

variable {m : Machine}

theorem consume_restores (p : Char → Bool) (c : Config) : (m.consume p c).Restores c.undone := by
  unfold Machine.consume
  split
  · rfl
  · exact c.fail_restores

theorem require_restores (holds : Bool) (c : Config) :
    (Machine.require holds c).Restores c.undone := by
  unfold Machine.require
  split
  · rfl
  · exact c.fail_restores

/-- An instruction records what it writes. -/
theorem step_restores (m : Machine) (c : Config) : (m.step c).Restores c.undone := by
  unfold Machine.step
  cases m.program.insts[c.pc]? with
  | none => trivial
  | some inst =>
    cases inst with
    | char _ | any | charClass _ => exact consume_restores _ c
    | lineStart | lineEnd | wordBoundary _ | progress _ => exact require_restores _ c
    | split _ _ | jump _ | look _ _ | accept => rfl
    | save slot => exact c.undone_setSlot slot (some c.pos)
    | reset span => exact Config.undone_clearSlots _ _ c
    | mark index => exact c.undone_setMark index
    | backref group =>
      dsimp only
      split
      · rfl
      · exact c.fail_restores
    | succeed => exact c.leaveLookahead_restores

end Steps

theorem reaches_restores {m : Machine} {o o' : Outcome} (h : m.Reaches o o')
    {w : Array (Option Nat) × Array Nat} (ho : o.Restores w) : o'.Restores w := by
  induction h with
  | refl o => exact ho
  | step c o _ ih =>
    obtain rfl : c.undone = w := ho
    exact ih (step_restores m c)

/-- All along a run, undoing what the stack records gives back the slots and marks with which it
began. A run that fails undoes all of it, so the next one begins with the same marks. -/
theorem undone_of_reaches {m : Machine} {marks : Array Nat} {start : Nat} {c : Config}
    (h : m.Reaches (.running (.starting m.program marks start)) (.running c)) :
    c.undone = (Array.replicate m.program.slots none, marks) :=
  reaches_restores h rfl

theorem size_undone_marks (c : Config) : c.undone.2.size = c.marks.size := by
  obtain ⟨pc, pos, slots, marks, stack⟩ := c
  induction stack generalizing slots marks with
  | nil => rfl
  | cons e stack ih =>
    cases e with
    | choice pc pos => exact ih slots marks
    | slot index old => exact ih _ marks
    | mark index old => exact (ih slots _).trans Array.size_setIfInBounds
    | lookahead negated next pos => exact ih slots marks

end VbaWorkbench.Pattern
