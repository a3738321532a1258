import VbaWorkbench.Block.Basic

namespace VbaWorkbench

/-- A block that is still open. -/
structure Frame where
  kind : BlockKind
  /-- The depth of the lines inside the block. -/
  level : Nat
  offset : Nat
  /-- A `Case` has been met, so the lines stand one level deeper. -/
  inCase : Bool
deriving DecidableEq, Repr

/-- The open blocks, innermost first. -/
structure Tracker where
  stack : List Frame
deriving DecidableEq, Repr

namespace Tracker

def empty : Tracker := ⟨[]⟩

def depthOf : List Frame → Nat
  | [] => 0
  | frame :: _ => frame.level + frame.inCase.toNat

/-- The depth of an ordinary statement. -/
def depth (t : Tracker) : Nat :=
  depthOf t.stack

/-- Closes `count` blocks of a kind. `depth` is the answer when none is left to close; blocks closed
before a failure stay closed. -/
def close (kind : BlockKind) (s : Statement) :
    (count : Nat) → (depth : Nat) → List Frame → List Frame × Except Imbalance Nat
  | 0, depth, stack => (stack, .ok depth)
  | _ + 1, _, [] => ([], .error ⟨s.construct, s.offset, .unmatchedCloser⟩)
  | count + 1, _, frame :: stack =>
    if frame.kind = kind then close kind s count (frame.level - 1) stack
    else (frame :: stack, .error ⟨s.construct, s.offset, .mismatchedCloser frame.kind⟩)

/-- A clause belongs to the innermost block. -/
def enterClause (kind : BlockKind) (s : Statement) :
    List Frame → List Frame × Except Imbalance Nat
  | [] => ([], .error ⟨s.construct, s.offset, .orphanedClause kind⟩)
  | frame :: stack =>
    if frame.kind ≠ kind then
      (frame :: stack, .error ⟨s.construct, s.offset, .orphanedClause kind⟩)
    else if kind = .selectCase then ({ frame with inCase := true } :: stack, .ok frame.level)
    else (frame :: stack, .ok (frame.level - 1))

/-- The open blocks after a statement, and the depth of a line that begins with it. -/
def apply (t : Tracker) (s : Statement) : Tracker × Except Imbalance Nat :=
  match s.role with
  | .plain | .singleLineIf => (t, .ok t.depth)
  | .opener kind => (⟨⟨kind, t.depth + 1, s.offset, false⟩ :: t.stack⟩, .ok t.depth)
  | .closer kind count =>
    let (stack, result) := close kind s count t.depth t.stack
    (⟨stack⟩, result)
  | .clause kind =>
    let (stack, result) := enterClause kind s t.stack
    (⟨stack⟩, result)

/-- At the end every block is closed; otherwise the innermost open one is at fault. -/
def finish (t : Tracker) : Except Imbalance Unit :=
  match t.stack with
  | [] => .ok ()
  | frame :: _ => .error ⟨frame.kind.opening.toList, frame.offset, .unclosedOpener frame.kind⟩

end Tracker
end VbaWorkbench
