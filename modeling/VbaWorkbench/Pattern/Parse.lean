import VbaWorkbench.Pattern.Symbol

namespace VbaWorkbench.Pattern

/-- What a number escape means in a pattern of `groups` groups. It refers back if there is such a
group; otherwise it is an octal escape or a digit, and the other digits stand for themselves. -/
def numberAtoms (groups : Nat) (digits : Text) : List Node :=
  if Text.digitsValue 10 digits ≤ groups then [.backref (Text.digitsValue 10 digits)]
  else
    match digits with
    | [] => []
    | first :: rest =>
      let (c, n) := if isOctalDigit first then octal first rest else (first, 0)
      .char c :: (rest.drop n).map .char

/-- Whether a capturing group opens at `c`, and how many more characters are passed over with it. An
escape, a class and a foreign group are passed over whole, or up to the end if they have none. -/
def groupsAt (c : Char) (rest : Text) : Nat × Nat :=
  match c with
  | '\\' => (0, escapeReach false rest)
  | '[' => (0, (classReach? rest).getD rest.length)
  | '(' =>
    match groupHead? rest with
    | some (.opens .capturing) => (1, 0)
    | some (.foreign _) => (0, (groupReach? 0 rest).getD rest.length)
    | _ => (0, 0)
  | _ => (0, 0)

/-- The number of capturing groups, which has to be known before a number escape can be read. -/
def groupTotal : Text → Nat
  | [] => 0
  | c :: rest =>
    let (opened, length) := groupsAt c rest
    opened + groupTotal (rest.drop length)
termination_by t => t.length
decreasing_by simp only [List.length_cons, List.length_drop]; omega

/-- The alternation that is being read at one depth. -/
structure Level where
  /-- The branches before the last bar, last first. -/
  branches : List Node
  /-- The items of the branch being read, last first. -/
  items : List Node
  /-- The last atom, as long as a quantifier may follow it. -/
  atom : Option Node
deriving Repr

namespace Level

def empty : Level := ⟨[], [], none⟩

/-- The last atom becomes an item. Atoms that match nothing but the empty string are left out. -/
def settle (level : Level) : Level :=
  match level.atom with
  | none => level
  | some node =>
    { level with items := if node.isEmpty then level.items else node :: level.items, atom := none }

def push (node : Node) (level : Level) : Level :=
  { level.settle with atom := some node }

def pushAll (nodes : List Node) (level : Level) : Level :=
  nodes.foldl (fun level node => level.push node) level

def branch (level : Level) : Node :=
  Node.ofItems level.settle.items.reverse

def bar (level : Level) : Level :=
  ⟨level.branch :: level.branches, [], none⟩

def node (level : Level) : Node :=
  Node.ofBranches (level.branch :: level.branches).reverse

end Level

/-- A group whose end has not been read. -/
structure OpenGroup where
  kind : GroupKind
  /-- The number of a capturing group. -/
  index : Nat
  offset : Nat
  outer : Level
deriving Repr

def OpenGroup.close (group : OpenGroup) (body : Node) : Node :=
  match group.kind with
  | .capturing => .group group.index body
  | .nonCapturing => body
  | .lookahead negated => .lookahead negated body

/-- The part of a pattern that has been read. -/
structure ParseState where
  level : Level
  /-- The open groups, innermost first. -/
  groups : List OpenGroup
  /-- The number of capturing groups so far. -/
  count : Nat
deriving Repr

namespace ParseState

def initial : ParseState := ⟨.empty, [], 0⟩

/-- Takes one symbol of a pattern of `total` groups into account. -/
def step (total : Nat) (s : ParseState) (p : PlacedSymbol) : Except Malformed ParseState :=
  match p.symbol with
  | .atom node => .ok { s with level := s.level.push node }
  | .number digits => .ok { s with level := s.level.pushAll (numberAtoms total digits) }
  | .opening kind =>
    let count := if kind = .capturing then s.count + 1 else s.count
    .ok ⟨.empty, ⟨kind, count, p.offset, s.level⟩ :: s.groups, count⟩
  | .closing =>
    match s.groups with
    | [] => .error ⟨p.offset, .unmatchedParenthesis⟩
    | group :: groups => .ok ⟨group.outer.push (group.close s.level.node), groups, s.count⟩
  | .bar => .ok { s with level := s.level.bar }
  | .quantifier min max greedy =>
    match s.level.atom with
    | none => .error ⟨p.offset, .nothingToRepeat⟩
    | some node =>
      let repeated := Node.repeated min max greedy p.offset node
      .ok { s with level := { s.level with items := repeated :: s.level.items, atom := none } }

def steps (total : Nat) (s : ParseState) : List PlacedSymbol → Except Malformed ParseState
  | [] => .ok s
  | p :: ps =>
    match s.step total p with
    | .error e => .error e
    | .ok s => steps total s ps

/-- At the end every group must be closed. -/
def finish (s : ParseState) : Except Malformed Node :=
  match s.groups with
  | [] => .ok s.level.node
  | group :: _ => .error ⟨group.offset, .missing ')'⟩

end ParseState

/-- A pattern's tree, the number of its groups and the foreign constructs left out. -/
structure Parsed where
  node : Node
  groups : Nat
  warnings : List Warning
deriving Repr

/-- Reads a pattern. The flaw that stands first is reported. -/
def parse (pattern : Text) : Except Malformed Parsed :=
  let read := readSymbols 0 pattern
  match ParseState.initial.steps (groupTotal pattern) read.symbols, read.flaw with
  | .error e, _ => .error e
  | .ok _, some e => .error e
  | .ok s, none => s.finish.map fun node => ⟨node, s.count, read.symbols.flatMap (·.warnings)⟩

end VbaWorkbench.Pattern
