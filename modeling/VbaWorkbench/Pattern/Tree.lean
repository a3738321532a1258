import VbaWorkbench.Pattern.CharClass

namespace VbaWorkbench.Pattern

/-- A pattern as it is written. -/
inductive Node where
  | empty
  | char (c : Char)
  | any
  | charClass (cls : CharClass)
  | lineStart
  | lineEnd
  | wordBoundary (negated : Bool)
  | group (index : Nat) (body : Node)
  | lookahead (negated : Bool) (body : Node)
  /-- `offset` is where the quantifier stands. -/
  | repeated (min : Nat) (max : Option Nat) (greedy : Bool) (offset : Nat) (body : Node)
  | concat (nodes : List Node)
  | alternate (branches : List Node)
  | backref (group : Nat)
deriving Repr

/-- The groups `first, …, last`. -/
structure GroupSpan where
  first : Nat
  last : Nat
deriving DecidableEq, Repr

def GroupSpan.union? : Option GroupSpan → Option GroupSpan → Option GroupSpan
  | some a, some b => some ⟨min a.first b.first, max a.last b.last⟩
  | some a, none => some a
  | none, b => b

namespace Node

/-- A sequence, without the wrapping that one node or none needs not. -/
def ofItems : List Node → Node
  | [] => empty
  | [node] => node
  | nodes => concat nodes

def ofBranches : List Node → Node
  | [node] => node
  | branches => alternate branches

def isEmpty : Node → Bool
  | empty => true
  | _ => false

mutual
/-- The lowest and highest group inside a node. -/
def groupSpan? : Node → Option GroupSpan
  | group index body => GroupSpan.union? (some ⟨index, index⟩) body.groupSpan?
  | lookahead _ body => body.groupSpan?
  | repeated _ _ _ _ body => body.groupSpan?
  | concat nodes => groupSpanAll? nodes
  | alternate branches => groupSpanAll? branches
  | _ => none

def groupSpanAll? : List Node → Option GroupSpan
  | [] => none
  | node :: nodes => GroupSpan.union? node.groupSpan? (groupSpanAll? nodes)
end

end Node
end VbaWorkbench.Pattern
