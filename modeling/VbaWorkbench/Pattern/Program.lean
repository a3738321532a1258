import VbaWorkbench.Pattern.Error
import VbaWorkbench.Pattern.Tree

namespace VbaWorkbench.Pattern

/-- One instruction. Addresses are positions in the program. -/
inductive Inst where
  | char (c : Char)
  | any
  | charClass (cls : CharClass)
  | lineStart
  | lineEnd
  | wordBoundary (negated : Bool)
  /-- Goes on at `first`, and at `second` if that fails. -/
  | split (first second : Nat)
  | jump (target : Nat)
  | save (slot : Nat)
  /-- Forgets the captures of a span of groups. -/
  | reset (span : GroupSpan)
  | mark (index : Nat)
  /-- Fails if nothing was consumed since the mark. -/
  | progress (index : Nat)
  | backref (group : Nat)
  /-- Runs the lookahead body after it and goes on at `next`. -/
  | look (negated : Bool) (next : Nat)
  /-- The end of a lookahead body. -/
  | succeed
  | accept
deriving DecidableEq, Repr

/-- How many iterations of a repetition are optional. Without an upper bound one is enough, as it
leads back to itself. -/
def optionalCount (min : Nat) (max : Option Nat) : Nat :=
  match max with
  | none => 1
  | some max => max - min

namespace Node

mutual
/-- The number of instructions of a node. -/
def size : Node → Nat
  | empty => 0
  | group _ body => body.size + 2
  | lookahead _ body => body.size + 2
  | repeated min max _ _ body =>
    let iteration := body.size + body.groupSpan?.isSome.toNat
    min * iteration + optionalCount min max * (iteration + 3) + max.isNone.toNat
  | concat nodes => sizeAll nodes
  | alternate branches => sizeAll branches + 2 * (branches.length - 1)
  | _ => 1

def sizeAll : List Node → Nat
  | [] => 0
  | node :: nodes => node.size + sizeAll nodes
end

mutual
/-- The number of loop marks of a node. -/
def marks : Node → Nat
  | group _ body => body.marks
  | lookahead _ body => body.marks
  | repeated min max _ _ body =>
    min * body.marks + optionalCount min max * (body.marks + 1)
  | concat nodes => marksAll nodes
  | alternate branches => marksAll branches
  | _ => 0

def marksAll : List Node → Nat
  | [] => 0
  | node :: nodes => node.marks + marksAll nodes
end

end Node

/-- Where a piece of code stands, and the first mark that it may use. -/
structure Place where
  pc : Nat
  mark : Nat
deriving DecidableEq, Repr

/-- A choice between going through `body` and leaving. -/
def branch (greedy : Bool) (body exit : Nat) : Inst :=
  if greedy then .split body exit else .split exit body

/-- One iteration. Captures inside it begin undefined. -/
def iteration (span : Option GroupSpan) (code : Place → List Inst) (here : Place) : List Inst :=
  match span with
  | some span => .reset span :: code { here with pc := here.pc + 1 }
  | none => code here

/-- An optional iteration, which must consume input. -/
def guarded (span : Option GroupSpan) (code : Place → List Inst) (here : Place) : List Inst :=
  .mark here.mark :: iteration span code ⟨here.pc + 1, here.mark + 1⟩ ++ [.progress here.mark]

/-- `n` pieces of code one after the other, each of the same size and number of marks. -/
def copies (size marks : Nat) (code : Place → List Inst) : (n : Nat) → Place → List Inst
  | 0, _ => []
  | n + 1, here => code here ++ copies size marks code n ⟨here.pc + size, here.mark + marks⟩

namespace Node

mutual
/-- The instructions of a node. -/
def code (here : Place) : Node → List Inst
  | empty => []
  | char c => [.char c]
  | any => [.any]
  | charClass cls => [.charClass cls]
  | lineStart => [.lineStart]
  | lineEnd => [.lineEnd]
  | wordBoundary negated => [.wordBoundary negated]
  | backref n => [.backref n]
  | group index body =>
    .save (2 * index) :: body.code ⟨here.pc + 1, here.mark⟩ ++ [.save (2 * index + 1)]
  | lookahead negated body =>
    .look negated (here.pc + body.size + 2) :: body.code ⟨here.pc + 1, here.mark⟩ ++ [.succeed]
  | repeated min max greedy _ body =>
    let span := body.groupSpan?
    let size := body.size + span.isSome.toNat
    let once (p : Place) : List Inst := iteration span (fun q => body.code q) p
    let choice (exit : Nat) (p : Place) : List Inst :=
      branch greedy (p.pc + 1) exit :: guarded span (fun q => body.code q) { p with pc := p.pc + 1 }
    let required := if size = 0 then [] else copies size body.marks once min here
    let rest : Place := ⟨here.pc + min * size, here.mark + min * body.marks⟩
    match max with
    | none => required ++ choice (rest.pc + size + 4) rest ++ [.jump rest.pc]
    | some max =>
      let n := max - min
      required ++ copies (size + 3) (body.marks + 1) (choice (rest.pc + n * (size + 3))) n rest
  | concat nodes => codeAll here nodes
  | alternate branches => codeBranches here (here.pc + (alternate branches).size) branches

def codeAll (here : Place) : List Node → List Inst
  | [] => []
  | node :: nodes =>
    node.code here ++ codeAll ⟨here.pc + node.size, here.mark + node.marks⟩ nodes

/-- Each branch but the last is left by a jump to `exit`. -/
def codeBranches (here : Place) (exit : Nat) : List Node → List Inst
  | [] => []
  | [node] => node.code here
  | node :: nodes =>
    let next : Place := ⟨here.pc + node.size + 2, here.mark + node.marks⟩
    .split (here.pc + 1) next.pc :: node.code ⟨here.pc + 1, here.mark⟩ ++
      .jump exit :: codeBranches next exit nodes
end

end Node

/-- The size that a program may have when an iteration ends. -/
def maxProgramSize : Nat := 100000

/-- Checks `n` pieces of the same size for one that becomes too large. Pieces without instructions
are all alike. -/
def firstOversized? (size : Nat) (check : Nat → Option Nat) : (n : Nat) → Nat → Option Nat
  | 0, _ => none
  | n + 1, pc =>
    (check pc).or (if size = 0 then none else firstOversized? size check n (pc + size))

namespace Node

mutual
/-- The offset of the first quantifier with an iteration that ends beyond the size limit. -/
def oversized? (pc : Nat) : Node → Option Nat
  | group _ body => body.oversized? (pc + 1)
  | lookahead _ body => body.oversized? (pc + 1)
  | repeated min max _ offset body =>
    let reset := body.groupSpan?.isSome.toNat
    let size := body.size + reset
    let once (pc : Nat) : Option Nat :=
      (body.oversized? (pc + reset)).or (if maxProgramSize < pc + size then some offset else none)
    (firstOversized? size once min pc).or
      (firstOversized? (size + 3) (fun pc => once (pc + 2)) (optionalCount min max)
        (pc + min * size))
  | concat nodes => oversizedAll? pc nodes
  | alternate branches => oversizedBranches? pc branches
  | _ => none

def oversizedAll? (pc : Nat) : List Node → Option Nat
  | [] => none
  | node :: nodes => (node.oversized? pc).or (oversizedAll? (pc + node.size) nodes)

def oversizedBranches? (pc : Nat) : List Node → Option Nat
  | [] => none
  | [node] => node.oversized? pc
  | node :: nodes =>
    (node.oversized? (pc + 1)).or (oversizedBranches? (pc + node.size + 2) nodes)
end

end Node

/-- A pattern's instructions. -/
structure Program where
  insts : Array Inst
  groups : Nat
  marks : Nat
deriving Repr

namespace Program

/-- Two slots for each group and for the whole match. -/
def slots (p : Program) : Nat :=
  2 * (p.groups + 1)

/-- The program of a tree, unless a repetition makes it too large. -/
def ofNode (node : Node) (groups : Nat) : Except Malformed Program :=
  match node.oversized? 0 with
  | some offset => .error ⟨offset, .programTooLarge⟩
  | none => .ok ⟨(node.code ⟨0, 0⟩ ++ [Inst.accept]).toArray, groups, node.marks⟩

end Program
end VbaWorkbench.Pattern
