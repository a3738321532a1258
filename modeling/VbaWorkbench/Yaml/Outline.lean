import VbaWorkbench.Yaml.Scalar
import VbaWorkbench.Yaml.Token

namespace VbaWorkbench.Yaml

/-- A place where a key may have begun. That it did shows only at the colon behind the key. -/
structure Candidate where
  /-- The number of tokens before it. -/
  position : Nat
  line : Nat
  column : Nat
  offset : Nat
  /-- Nothing but a key can stand there. -/
  isRequired : Bool
deriving DecidableEq, Repr

/-- The most bytes that a key without a question mark may take up. -/
def longestKey : Nat := 1024

/-- A key does not go beyond its line, nor beyond its greatest length. -/
def Candidate.isOver (k : Candidate) (c : Cursor) : Bool :=
  k.line < c.line || k.offset + longestKey < c.offset

/-- A document while it is cut into tokens. -/
structure Outline where
  cursor : Cursor
  /-- The tokens before the cursor, backwards, and their number. -/
  tokens : List Token
  count : Nat
  /-- The columns of the blocks that are open, the innermost first. -/
  columns : List Nat
  /-- Where a key may have begun inside the innermost brackets. -/
  candidate : Option Candidate
  /-- The same for the brackets around them, and outside of all. -/
  outer : List (Option Candidate)
  /-- A key may begin at the cursor. -/
  keyAllowed : Bool
deriving Repr

namespace Outline

def start (text : Text) : Outline :=
  ⟨.start text, [], 0, [], none, [], true⟩

def inFlow (o : Outline) : Bool :=
  !o.outer.isEmpty

/-- The smallest column of what stands inside the innermost block. -/
def least (o : Outline) : Nat :=
  match o.columns with
  | [] => 0
  | column :: _ => column + 1

def push (t : Token) (o : Outline) : Outline :=
  { o with tokens := t :: o.tokens, count := o.count + 1 }

/-- Puts a token behind the first `position` ones. -/
def insert (position : Nat) (t : Token) (o : Outline) : Outline :=
  let behind := o.count - position
  { o with tokens := o.tokens.take behind ++ t :: o.tokens.drop behind, count := o.count + 1 }

/-- Passes the sign of a token. -/
def pushSign (width : Nat) (t : Token) (o : Outline) : Outline :=
  { o.push t with cursor := o.cursor.skip width }

/-- Gives up candidates that are over; a key may be missing then. -/
def dropOver (o : Outline) : Option Outline :=
  let kept (k : Option Candidate) : Option (Option Candidate) :=
    match k with
    | none => some none
    | some k => if !k.isOver o.cursor then some (some k) else if k.isRequired then none else some none
  match kept o.candidate, o.outer.mapM kept with
  | some candidate, some outer => some { o with candidate, outer }
  | _, _ => none

/-- Something else than a key stands at the candidate. -/
def dropCandidate (o : Outline) : Option Outline :=
  if o.candidate.any (·.isRequired) then none else some { o with candidate := none }

/-- Notes that a key may begin at the cursor. In a block, what stands at its column must be a key. -/
def mayBeKey (o : Outline) : Option Outline :=
  if o.keyAllowed then
    let c := o.cursor
    let isRequired := !o.inFlow && o.columns.head? == some c.column
    o.dropCandidate.map fun o =>
      { o with candidate := some ⟨o.count, c.line, c.column, c.offset, isRequired⟩ }
  else some o

/-- Ends the open blocks from a column on. Inside brackets columns do not matter. -/
def closeFrom (column : Nat) (o : Outline) : Outline :=
  if o.inFlow then o
  else
    let closed := o.columns.takeWhile (column ≤ ·)
    closed.foldl (fun o _ => o.push .blockEnd) { o with columns := o.columns.drop closed.length }

/-- Begins a block behind the first `position` tokens, unless it has begun before. -/
def openFrom (column position : Nat) (t : Token) (o : Outline) : Outline :=
  if o.inFlow || o.columns.head?.any (column ≤ ·) then o
  else { o.insert position t with columns := column :: o.columns }

/-- Begins a block with a sign at the cursor. -/
def openHere (t : Token) (o : Outline) : Outline :=
  o.openFrom o.cursor.column o.count t

/-- A directive or a document marker ends all blocks. -/
def endBlocks (o : Outline) : Option Outline :=
  (o.closeFrom 0).dropCandidate.map fun o => { o with keyAllowed := false }

def directive (fuel : Nat) (o : Outline) : Option Outline :=
  o.endBlocks.bind fun o =>
    (readDirective fuel (o.cursor.skip 1)).map fun (d, c) => { o.push (.directive d) with cursor := c }

def marker (t : Token) (o : Outline) : Option Outline :=
  o.endBlocks.map (pushSign 3 t)

def openFlow (t : Token) (o : Outline) : Option Outline :=
  o.mayBeKey.map fun o =>
    { o.pushSign 1 t with candidate := none, outer := o.candidate :: o.outer, keyAllowed := true }

def closeFlow (t : Token) (o : Outline) : Option Outline :=
  o.dropCandidate.map fun o =>
    let o := { o.pushSign 1 t with keyAllowed := false }
    match o.outer with
    | [] => o
    | candidate :: outer => { o with candidate, outer }

def comma (o : Outline) : Option Outline :=
  o.dropCandidate.map fun o => { o.pushSign 1 .comma with keyAllowed := true }

def dash (o : Outline) : Option Outline :=
  if !o.inFlow && !o.keyAllowed then none
  else
    (o.openHere .sequenceStart).dropCandidate.map fun o =>
      { o.pushSign 1 .dash with keyAllowed := true }

/-- A question mark before a key. -/
def questionMark (o : Outline) : Option Outline :=
  if !o.inFlow && !o.keyAllowed then none
  else
    (o.openHere .mappingStart).dropCandidate.map fun o =>
      { o.pushSign 1 .key with keyAllowed := !o.inFlow }

/-- A colon makes a key of the candidate. Without one it stands behind a key with a question mark. -/
def colon (o : Outline) : Option Outline :=
  match o.candidate with
  | some k =>
    let o := (o.insert k.position .key).openFrom k.column k.position .mappingStart
    some { o.pushSign 1 .colon with candidate := none, keyAllowed := false }
  | none =>
    if !o.inFlow && !o.keyAllowed then none
    else some { (o.openHere .mappingStart).pushSign 1 .colon with keyAllowed := !o.inFlow }

/-- A token that may begin a key, with the cursor behind it. -/
def keyPart (r : Option (Token × Cursor)) (o : Outline) : Option Outline :=
  match o.mayBeKey, r with
  | some o, some (t, cursor) => some { o.push t with cursor, keyAllowed := false }
  | _, _ => none

def plain (fuel : Nat) (o : Outline) : Option Outline :=
  match o.mayBeKey, readPlain o.inFlow o.least fuel o.cursor with
  | some o, some p =>
    some { o.push (.scalar p.text .plain) with cursor := p.cursor, keyAllowed := p.endsLine }
  | _, _ => none

def block (style : Style) (fuel : Nat) (o : Outline) : Option Outline :=
  match o.dropCandidate, readBlock (style == .folded) o.least fuel (o.cursor.skip 1) with
  | some o, some (t, cursor) => some { o.push (.scalar t style) with cursor, keyAllowed := true }
  | _, _ => none

/-- Reads the token at the cursor, which stands on one. -/
def token (fuel : Nat) (o : Outline) : Option Outline :=
  let c := o.cursor
  let quoted (r : Option (Text × Cursor)) : Option (Token × Cursor) :=
    r.map fun (t, c) => (.scalar t .quoted, c)
  if c.isAtMarker then o.marker (if c.rest.head? = some '-' then .documentStart else .documentEnd)
  else
    match c.rest with
    | [] => none
    | d :: rest =>
      let isSign := o.inFlow || endsWord rest
      if d = '%' ∧ c.column = 0 then o.directive fuel
      else if d = '[' then o.openFlow .openBracket
      else if d = '\x7b' then o.openFlow .openBrace
      else if d = ']' then o.closeFlow .closeBracket
      else if d = '\x7d' then o.closeFlow .closeBrace
      else if d = ',' then o.comma
      else if d = '-' ∧ endsWord rest then o.dash
      else if d = '?' ∧ isSign then o.questionMark
      else if d = ':' ∧ isSign then o.colon
      else if d = '*' then o.keyPart ((readName (c.skip 1)).map fun (n, c) => (.alias n, c))
      else if d = '&' then o.keyPart ((readName (c.skip 1)).map fun (n, c) => (.anchor n, c))
      else if d = '!' then o.keyPart ((readTag o.inFlow fuel c).map fun (t, c) => (.tag t, c))
      else if d = '|' ∧ !o.inFlow then o.block .literal fuel
      else if d = '>' ∧ !o.inFlow then o.block .folded fuel
      else if d = '\'' then o.keyPart (quoted (readSingleQuoted fuel (c.skip 1)))
      else if d = '"' then o.keyPart (quoted (readDoubleQuoted fuel (c.skip 1)))
      else if beginsPlain o.inFlow c.rest then o.plain fuel
      else none

/-- Moves to the next token and ends the blocks that it does not belong to. -/
def advance (fuel : Nat) (o : Outline) : Option Outline :=
  let (keyAllowed, cursor) := skipToToken fuel o.inFlow o.keyAllowed o.cursor
  ({ o with cursor, keyAllowed }.dropOver).map (closeFrom (cursor.column + 1))

/-- Reads all tokens. -/
def finish : (fuel : Nat) → Outline → Option (List Token)
  | 0, _ => none
  | fuel + 1, o =>
    match o.advance fuel with
    | none => none
    | some o =>
      if o.cursor.rest.isEmpty then o.endBlocks.map (·.tokens.reverse)
      else (o.token fuel).bind (finish fuel)

end Outline

/-- The tokens of a text. -/
def tokens? (text : Text) : Option (List Token) :=
  if text.all isPrintable then (Outline.start text).finish (text.length + 2) else none

end VbaWorkbench.Yaml
