import VbaWorkbench.Pattern.Parse

namespace VbaWorkbench.Pattern

/-- The characters that stand for themselves only after a backslash. -/
def isMeta (c : Char) : Bool :=
  c ∈ ['\\', '^', '$', '.', '|', '?', '*', '+', '(', ')', '[', ']', '{', '}']

/-- The characters that a class takes only after a backslash. -/
def isClassMeta (c : Char) : Bool :=
  c ∈ [']', '\\', '^', '-']

/-- A character, after a backslash where it needs one. -/
def escaped (isMeta : Char → Bool) (c : Char) : Text :=
  if isMeta c then ['\\', c] else [c]

def ClassItem.render : ClassItem → Text
  | range first last => escaped isClassMeta first ++ '-' :: escaped isClassMeta last
  | digit negated => ['\\', if negated then 'D' else 'd']
  | word negated => ['\\', if negated then 'W' else 'w']
  | space negated => ['\\', if negated then 'S' else 's']

def CharClass.render (cls : CharClass) : Text :=
  '[' :: (if cls.negated then ['^'] else []) ++ cls.items.flatMap ClassItem.render ++ [']']

/-- The bounds of a repetition between braces, with its mark. -/
def renderBounds (min : Nat) (max : Option Nat) (greedy : Bool) : Text :=
  '{' :: Text.ofNat min ++ ',' :: (max.map Text.ofNat).getD [] ++ '}' ::
    if greedy then [] else ['?']

/-- Where a node can stand inside another. -/
inductive Context where
  | repeated
  | item
  | branch
  /-- Between parentheses, or by itself. -/
  | whole
deriving DecidableEq

/-- Whether a node has to stand in a group that captures nothing, so as to be read as one. -/
def Context.groups : Context → Node → Bool
  | repeated, .concat _ | repeated, .alternate _ | repeated, .empty => true
  | repeated, .repeated .. => true
  | item, .concat _ | item, .alternate _ => true
  | branch, .alternate _ => true
  | _, _ => false

/-- The opening parenthesis of a group with the characters that say what it does. -/
def GroupKind.render : GroupKind → Text
  | capturing => ['(']
  | nonCapturing => ['(', '?', ':']
  | lookahead negated => ['(', '?', if negated then '!' else '=']

/-- A text in a group of its own if need be. -/
def grouped (needed : Bool) (t : Text) : Text :=
  if needed then GroupKind.nonCapturing.render ++ t ++ [')'] else t

namespace Node

mutual
/-- The canonical text of a node. -/
def render : Node → Text
  | empty => []
  | char c => escaped isMeta c
  | any => ['.']
  | charClass cls => cls.render
  | lineStart => ['^']
  | lineEnd => ['$']
  | wordBoundary negated => ['\\', if negated then 'B' else 'b']
  | group _ body => GroupKind.capturing.render ++ body.render ++ [')']
  | lookahead negated body => (GroupKind.lookahead negated).render ++ body.render ++ [')']
  | repeated min max greedy _ body =>
    grouped (Context.repeated.groups body) body.render ++ renderBounds min max greedy
  | concat nodes => renderItems nodes
  | alternate branches => renderBranches branches
  | backref n => grouped true ('\\' :: Text.ofNat n)

def renderItems : List Node → Text
  | [] => []
  | node :: nodes => grouped (Context.item.groups node) node.render ++ renderItems nodes

def renderBranches : List Node → Text
  | [] => []
  | [node] => grouped (Context.branch.groups node) node.render
  | node :: nodes =>
    grouped (Context.branch.groups node) node.render ++ '|' :: renderBranches nodes
end

mutual
/-- The tree without the offsets of its quantifiers. -/
def unplaced : Node → Node
  | group index body => group index body.unplaced
  | lookahead negated body => lookahead negated body.unplaced
  | repeated min max greedy _ body => repeated min max greedy 0 body.unplaced
  | concat nodes => concat (unplacedAll nodes)
  | alternate branches => alternate (unplacedAll branches)
  | node => node

def unplacedAll : List Node → List Node
  | [] => []
  | node :: nodes => node.unplaced :: unplacedAll nodes
end

end Node
end VbaWorkbench.Pattern
