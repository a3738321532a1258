import VbaWorkbench.Yaml.Outline
import VbaWorkbench.Yaml.Value

namespace VbaWorkbench.Yaml

/-- The tokens that are left, the numbers of the names that aliases may have, and what the handles of
tags stand for. -/
structure Place where
  tokens : List Token
  anchors : List (Text × Nat)
  handles : List (Text × TagName)
deriving DecidableEq, Repr

abbrev Reading := StateT Place Option

namespace Reading

def next : Reading (Option Token) :=
  fun p => some (p.tokens.head?, p)

def skip : Reading Unit :=
  fun p => some ((), { p with tokens := p.tokens.drop 1 })

/-- Passes the token if it is the next one. -/
def skipIf (t : Token) : Reading Bool := do
  if (← next) = some t then
    skip
    return true
  else return false

/-- Nothing is written, since one of these tokens follows. -/
def isAbsent (ends : List Token) : Reading Bool := do
  return (← next).any (· ∈ ends)

/-- Passes the comma before any item of brackets but the first. -/
def separator (isFirst : Bool) : Reading Unit := do
  if isFirst then return ()
  else if ← skipIf .comma then return ()
  else failure

/-- The number of a name that has been given to a node. -/
def aliased (name : Text) : Reading Value :=
  fun p => (p.anchors.lookup name).map fun n => (.alias n, p)

/-- Gives a name to the next node. Its number is the count of the names that are known, so that a name
that is given again shares its number with the next new one. -/
def number (name : Text) : Reading Nat :=
  fun p => some (p.anchors.length,
    { p with anchors := (name, p.anchors.length) :: p.anchors.filter (·.1 != name) })

/-- Reads a node that may have a name. -/
def named (anchor : Option Text) (read : Reading Value) : Reading Value := do
  match anchor with
  | none => read
  | some name =>
    let n ← number name
    return .named n (← read)

/-- Reads the parts of a node after its first token. -/
def parts (anchor : Option Text) (read : Reading Value) : Reading Value := do
  skip
  named anchor read

def anchor? : Reading (Option Text) := do
  match ← next with
  | some (.anchor name) =>
    skip
    return some name
  | _ => return none

/-- The full name of a tag. Its handle must stand for something. -/
def tagName (t : Tag) : Reading TagName :=
  fun p =>
    if t.handle.isEmpty then some (t.suffix, p)
    else (p.handles.lookup t.handle).map fun name => (name ++ t.suffix, p)

def tag? : Reading (Option Tag) := do
  match ← next with
  | some (.tag t) =>
    skip
    return some t
  | _ => return none

/-- What may stand before a node: an anchor and a tag, in either order. -/
def properties : Reading (Option Text × Option TagName) := do
  let before ← anchor?
  let tag ← tag?
  let anchor ← if before.isSome then pure before else anchor?
  match tag with
  | none => return (anchor, none)
  | some t => return (anchor, some (← tagName t))

end Reading

open Reading

/-- The tokens before which a key or a value of a block is absent. -/
def entryEnds : List Token := [.key, .colon, .blockEnd]

mutual
/-- Reads a node. Blocks are not read inside brackets; a sequence may stand at the column of its key
where `atKey` holds. -/
def readNode (inBlock atKey : Bool) : (fuel : Nat) → Reading Value
  | 0 => failure
  | fuel + 1 => do
    match ← next with
    | some (.alias name) =>
      skip
      aliased name
    | _ =>
      let (anchor, tag) ← properties
      match ← next with
      | some (.scalar text style) =>
        skip
        named anchor (return .scalar text style tag)
      | some .openBracket => parts anchor do return .sequence (← readFlowItems true fuel)
      | some .openBrace => parts anchor do return .mapping (← readFlowEntries true fuel)
      | t =>
        if inBlock ∧ t = some .sequenceStart then
          parts anchor do return .sequence (← readItems fuel)
        else if inBlock ∧ t = some .mappingStart then
          parts anchor do return .mapping (← readEntries fuel)
        else if atKey ∧ t = some .dash then
          named anchor do return .sequence (← readItemsAtKey fuel)
        else if anchor.isSome ∨ tag.isSome then named anchor (return .scalar [] .plain tag)
        else failure

/-- Reads a node where it may be absent. -/
def readOr (ends : List Token) (inBlock atKey : Bool) : (fuel : Nat) → Reading Value
  | 0 => failure
  | fuel + 1 => do
    if ← isAbsent ends then return .absent else readNode inBlock atKey fuel

/-- Reads what stands behind a colon, if there is one. -/
def readAfterColon (ends : List Token) (inBlock : Bool) : (fuel : Nat) → Reading Value
  | 0 => failure
  | fuel + 1 => do
    if ← skipIf .colon then readOr ends inBlock inBlock fuel else return .absent

def readItems : (fuel : Nat) → Reading (List Value)
  | 0 => failure
  | fuel + 1 => do
    if ← skipIf .dash then
      let item ← readOr [.dash, .blockEnd] true false fuel
      return item :: (← readItems fuel)
    else if ← skipIf .blockEnd then return []
    else failure

/-- Reads the items of a sequence at the column of its key, which no token ends. -/
def readItemsAtKey : (fuel : Nat) → Reading (List Value)
  | 0 => failure
  | fuel + 1 => do
    if ← skipIf .dash then
      let item ← readOr (.dash :: entryEnds) true false fuel
      return item :: (← readItemsAtKey fuel)
    else return []

def readEntries : (fuel : Nat) → Reading (List (Value × Value))
  | 0 => failure
  | fuel + 1 => do
    if ← skipIf .key then
      let key ← readOr entryEnds true true fuel
      let value ← readAfterColon entryEnds true fuel
      return (key, value) :: (← readEntries fuel)
    else if ← skipIf .blockEnd then return []
    else failure

/-- Reads the items of a sequence and its closing bracket. A comma may follow the last one. -/
def readFlowItems (isFirst : Bool) : (fuel : Nat) → Reading (List Value)
  | 0 => failure
  | fuel + 1 => do
    if ← skipIf .closeBracket then return []
    separator isFirst
    if ← skipIf .closeBracket then return []
    else
      let item ←
        if ← skipIf .key then pure (Value.mapping [← readPair fuel])
        else readNode false false fuel
      return item :: (← readFlowItems false fuel)

/-- Reads the only entry of a mapping without braces. A sign that follows at once is the end of the
absent key. -/
def readPair : (fuel : Nat) → Reading (Value × Value)
  | 0 => failure
  | fuel + 1 => do
    let ends := [.comma, .closeBracket]
    let isAbsent ← isAbsent (.colon :: ends)
    let key ← readOr (.colon :: ends) false false fuel
    if isAbsent then skip
    return (key, ← readAfterColon ends false fuel)

/-- Reads the entries of a mapping and its closing brace. -/
def readFlowEntries (isFirst : Bool) : (fuel : Nat) → Reading (List (Value × Value))
  | 0 => failure
  | fuel + 1 => do
    if ← skipIf .closeBrace then return []
    separator isFirst
    if ← skipIf .closeBrace then return []
    else
      let ends := [.comma, .closeBrace]
      let entry ←
        if ← skipIf .key then do
          let key ← readOr (.colon :: ends) false false fuel
          pure (key, ← readAfterColon ends false fuel)
        else do pure (← readNode false false fuel, Value.absent)
      return entry :: (← readFlowEntries false fuel)
end

/-- What the directives before a document declare. The version and a handle may be declared once;
versions are 1.1 and 1.2. -/
structure Declared where
  hasVersion : Bool
  handles : List (Text × TagName)
deriving DecidableEq, Repr

def Declared.add? (d : Declared) : Directive → Option Declared
  | .version major minor =>
    if d.hasVersion || major != 1 || (minor != 1 && minor != 2) then none
    else some { d with hasVersion := true }
  | .handle handle name =>
    if (d.handles.lookup handle).isSome then none
    else some { d with handles := d.handles ++ [(handle, name)] }

/-- Reads the directives before a document. -/
def readDirectives (d : Declared) : List Token → Option (Declared × List Token)
  | .directive directive :: rest =>
    match d.add? directive with
    | none => none
    | some d => readDirectives d rest
  | rest => some (d, rest)

/-- The handles that need no declaration. -/
def givenHandles : List (Text × TagName) :=
  [(['!'], TagName.ofAscii ['!']), (['!', '!'], coreTag "")]

/-- The content of the only document, absent where nothing is written. -/
def readDocument (tokens : List Token) : Option Value := do
  let (declared, tokens) ← readDirectives ⟨false, []⟩ tokens
  let content := tokens.drop (if tokens.head? = some .documentStart then 1 else 0)
  if declared ≠ ⟨false, []⟩ ∧ tokens.head? ≠ some .documentStart then failure
  let fuel := 4 * content.length + 4
  let place : Place := ⟨content, [], declared.handles ++ givenHandles⟩
  let (v, place) ←
    match content.head? with
    | none => some (.absent, place)
    | some t =>
      if tokens.head? = some .documentStart ∧ t = .documentEnd then some (.absent, place)
      else (readNode true false fuel).run place
  if place.tokens.all (· = .documentEnd) then return v else failure

/-- The content of a text that holds one document. -/
def read? (text : Text) : Option Value :=
  (tokens? text).bind readDocument

end VbaWorkbench.Yaml
