import VbaWorkbench.Character.Fold
import VbaWorkbench.Pattern.Program

namespace VbaWorkbench.Pattern

/-- What backtracking finds on its way back. -/
inductive Entry where
  /-- The other way at a choice. -/
  | choice (pc pos : Nat)
  | slot (index : Nat) (old : Option Nat)
  | mark (index old : Nat)
  /-- A lookahead whose body is running; it began at `pos`. -/
  | lookahead (negated : Bool) (next pos : Nat)
deriving DecidableEq, Repr

namespace Entry

def isLookahead : Entry → Bool
  | lookahead .. => true
  | _ => false

def isChoice : Entry → Bool
  | choice .. => true
  | _ => false

end Entry

/-- The state of a run. The newest entry of the stack comes first. -/
structure Config where
  pc : Nat
  pos : Nat
  slots : Array (Option Nat)
  marks : Array Nat
  stack : List Entry
deriving DecidableEq, Repr

/-- What one instruction leads to. -/
inductive Outcome where
  | running (c : Config)
  | accepted (c : Config)
  | failed
deriving DecidableEq, Repr

/-- A program and the text that it runs on. -/
structure Machine where
  program : Program
  input : Array Char
  ignoreCase : Bool
  multiline : Bool

namespace Config

/-- A run that begins at `pos` without captures. -/
def initial (p : Program) (pos : Nat) : Config :=
  ⟨0, pos, Array.replicate p.slots none, Array.replicate p.marks 0, []⟩

def next (c : Config) : Config :=
  { c with pc := c.pc + 1 }

/-- Writes a slot and remembers its old value. -/
def setSlot (index : Nat) (value : Option Nat) (c : Config) : Config :=
  let ⟨pc, pos, slots, marks, stack⟩ := c
  let old := (slots[index]?).join
  ⟨pc, pos, slots.setIfInBounds index value, marks, .slot index old :: stack⟩

/-- Empties `n` slots from `index` on. -/
def clearSlots (index : Nat) : (n : Nat) → Config → Config
  | 0, c => c
  | n + 1, c => clearSlots (index + 1) n (c.setSlot index none)

def setMark (index : Nat) (c : Config) : Config :=
  let ⟨pc, pos, slots, marks, stack⟩ := c
  let old := (marks[index]?).getD 0
  ⟨pc, pos, slots, marks.setIfInBounds index pos, .mark index old :: stack⟩

/-- Goes back to the newest choice and undoes the writes after it. A negative lookahead whose body
has failed is such a choice. -/
def backtrack (slots : Array (Option Nat)) (marks : Array Nat) : List Entry → Outcome
  | [] => .failed
  | .choice pc pos :: stack => .running ⟨pc, pos, slots, marks, stack⟩
  | .slot index old :: stack => backtrack (slots.setIfInBounds index old) marks stack
  | .mark index old :: stack => backtrack slots (marks.setIfInBounds index old) stack
  | .lookahead negated next pos :: stack =>
    if negated then .running ⟨next, pos, slots, marks, stack⟩ else backtrack slots marks stack

def fail (c : Config) : Outcome :=
  backtrack c.slots c.marks c.stack

/-- The end of a lookahead body. A positive lookahead gives up the choices inside it and keeps its
captures; a negative one undoes its body and fails. -/
def leaveLookahead (c : Config) : Outcome :=
  let inside := c.stack.takeWhile (!·.isLookahead)
  match c.stack.dropWhile (!·.isLookahead) with
  | .lookahead negated next pos :: outside =>
    let writes := inside.filter (!·.isChoice)
    if negated then backtrack c.slots c.marks (writes ++ outside)
    else .running ⟨next, pos, c.slots, c.marks, writes ++ outside⟩
  | _ => .accepted c

end Config

namespace Machine

def same (m : Machine) (a b : Char) : Bool :=
  a == b || (m.ignoreCase && Character.fold a == Character.fold b)

/-- The text of the next `n` characters is that of the characters from `start` on. -/
def repeats (m : Machine) (start pos : Nat) : (n : Nat) → Bool
  | 0 => true
  | n + 1 =>
    (match m.input[start]?, m.input[pos]? with
      | some a, some b => m.same a b
      | _, _ => false) && m.repeats (start + 1) (pos + 1) n

/-- The span of a group that has taken part. -/
def captured? (slots : Array (Option Nat)) (group : Nat) : Option (Nat × Nat) :=
  match (slots[2 * group]?).join, (slots[2 * group + 1]?).join with
  | some start, some stop => some (start, stop)
  | _, _ => none

/-- Where a back reference ends. A group that has not taken part refers to the empty text. -/
def backref? (m : Machine) (group : Nat) (c : Config) : Option Nat :=
  match captured? c.slots group with
  | none => some c.pos
  | some (start, stop) =>
    if m.repeats start c.pos (stop - start) then some (c.pos + (stop - start)) else none

/-- A line begins at the start and, where lines count, after each line terminator. -/
def atLineStart (m : Machine) (pos : Nat) : Bool :=
  pos == 0 || (m.multiline && (m.input[pos - 1]?).any isLineTerminator)

def atLineEnd (m : Machine) (pos : Nat) : Bool :=
  pos == m.input.size || (m.multiline && (m.input[pos]?).any isLineTerminator)

def atWordBoundary (m : Machine) (pos : Nat) : Bool :=
  (pos != 0 && (m.input[pos - 1]?).any isWordChar) != (m.input[pos]?).any isWordChar

/-- Consumes one character that satisfies `p`. -/
def consume (m : Machine) (p : Char → Bool) (c : Config) : Outcome :=
  if (m.input[c.pos]?).any p then .running { c with pc := c.pc + 1, pos := c.pos + 1 } else c.fail

/-- Goes on if a condition holds. -/
def require (holds : Bool) (c : Config) : Outcome :=
  if holds then .running c.next else c.fail

/-- Executes one instruction. -/
def step (m : Machine) (c : Config) : Outcome :=
  match m.program.insts[c.pc]? with
  | none => .failed
  | some inst =>
    match inst with
    | .char d => m.consume (m.same · d) c
    | .any => m.consume (!isLineTerminator ·) c
    | .charClass cls => m.consume (cls.accepts m.ignoreCase) c
    | .lineStart => require (m.atLineStart c.pos) c
    | .lineEnd => require (m.atLineEnd c.pos) c
    | .wordBoundary negated => require (m.atWordBoundary c.pos != negated) c
    | .split first second =>
      .running { c with pc := first, stack := .choice second c.pos :: c.stack }
    | .jump target => .running { c with pc := target }
    | .save slot => .running (c.setSlot slot (some c.pos)).next
    | .reset span =>
      .running (c.clearSlots (2 * span.first) (2 * (span.last + 1 - span.first))).next
    | .mark index => .running (c.setMark index).next
    | .progress index => require (c.marks[index]? != some c.pos) c
    | .backref group =>
      match m.backref? group c with
      | some pos => .running { c with pc := c.pc + 1, pos := pos }
      | none => c.fail
    | .look negated next =>
      .running { c with pc := c.pc + 1, stack := .lookahead negated next c.pos :: c.stack }
    | .succeed => c.leaveLookahead
    | .accept => .accepted c

/-- How a run ends. -/
inductive Verdict where
  | accepted (c : Config)
  | failed
  | exhausted
deriving DecidableEq, Repr

/-- Runs for at most `budget` instructions, and says how many of them are left. -/
def run (m : Machine) : (budget : Nat) → Config → Verdict × Nat
  | 0, _ => (.exhausted, 0)
  | budget + 1, c =>
    match m.step c with
    | .running c => m.run budget c
    | .accepted c => (.accepted c, budget)
    | .failed => (.failed, budget)

end Machine
end VbaWorkbench.Pattern
