import VbaWorkbench.Text.Basic

namespace VbaWorkbench.Yaml

/-- The characters that may stand in a document. -/
def isPrintable (c : Char) : Bool :=
  let n := c.toNat
  c == '\t' || c == '\n' || c == '\r' || (0x20 ≤ n && n ≤ 0x7e) || n == 0x85 ||
    (0xa0 ≤ n && n ≤ 0xfffd) || 0x10000 ≤ n

/-- Line feed, carriage return and the line, paragraph and next-line marks. -/
def isBreak (c : Char) : Bool :=
  c ∈ ['\n', '\r', '\u0085', '\u2028', '\u2029']

/-- Nothing, a blank or a line break follows. -/
def endsWord : Text → Bool
  | [] => true
  | c :: _ => Text.isBlank c || isBreak c

/-- A place in a document: what is left of it, and how much has been passed. -/
structure Cursor where
  rest : Text
  line : Nat
  column : Nat
  /-- All that has been passed, in bytes. -/
  offset : Nat
deriving DecidableEq, Repr

namespace Cursor

def start (text : Text) : Cursor :=
  ⟨text, 0, 0, 0⟩

/-- Passes `n` characters of a line. -/
def skip (n : Nat) (c : Cursor) : Cursor :=
  ⟨c.rest.drop n, c.line, c.column + n, c.offset + Text.byteLength (c.rest.take n)⟩

/-- Passes characters of a line as long as `p` holds for them. -/
def skipWhile (p : Char → Bool) (c : Cursor) : Cursor :=
  c.skip (c.rest.takeWhile p).length

/-- Passes the `n` characters of a line break. -/
def skipBreak (n : Nat) (c : Cursor) : Cursor :=
  ⟨c.rest.drop n, c.line + 1, 0, c.offset + Text.byteLength (c.rest.take n)⟩

/-- The line break at the cursor, as it counts in folded text. -/
def lineBreak? (c : Cursor) : Option (Text × Cursor) :=
  match c.rest with
  | '\r' :: '\n' :: _ => some (['\n'], c.skipBreak 2)
  | d :: _ =>
    if d = '\u2028' ∨ d = '\u2029' then some ([d], c.skipBreak 1)
    else if isBreak d then some (['\n'], c.skipBreak 1)
    else none
  | [] => none

/-- Passes blanks and a comment. -/
def skipComment (c : Cursor) : Cursor :=
  let c := c.skipWhile Text.isBlank
  if c.rest.head? = some '#' then c.skipWhile fun d => !isBreak d else c

/-- The cursor on the next line, if nothing is left of this one. -/
def nextLine? (c : Cursor) : Option Cursor :=
  match c.lineBreak? with
  | some (_, c) => some c
  | none => if c.rest.isEmpty then some c else none

/-- A document marker stands at the beginning of the line. -/
def isAtMarker (c : Cursor) : Bool :=
  match c.rest with
  | '-' :: '-' :: '-' :: rest | '.' :: '.' :: '.' :: rest => c.column == 0 && endsWord rest
  | _ => false

end Cursor

/-- Blanks and line breaks inside a scalar: the blanks before the first break, and the breaks. -/
structure Gap where
  blanks : Text
  breaks : List Text
deriving DecidableEq, Repr

def Gap.isEmpty (g : Gap) : Bool :=
  g.blanks.isEmpty && g.breaks.isEmpty

/-- One break becomes a space; of several the first is dropped. Blanks beside breaks do not
count. -/
def Gap.folded (g : Gap) : Text :=
  match g.breaks with
  | [] => g.blanks
  | first :: others =>
    if first = ['\n'] then
      if others.isEmpty then [' '] else others.flatten
    else first ++ others.flatten

/-- Passes blanks and breaks. On further lines tabs may stand only from column `least` on. -/
def skipGap (least : Nat) : (fuel : Nat) → Cursor → Option (Gap × Cursor)
  | 0, c => some (⟨[], []⟩, c)
  | fuel + 1, c =>
    let blanks := c.rest.takeWhile Text.isBlank
    if c.column = 0 ∧ (blanks.take least).contains '\t' then none
    else
      let c := c.skip blanks.length
      match c.lineBreak? with
      | none => some (⟨blanks, []⟩, c)
      | some (text, c) => (skipGap least fuel c).map fun (g, c) => (⟨blanks, text :: g.breaks⟩, c)

/-- Passes blanks, comments and line breaks up to the next token, and says whether a key may stand
there: outside of brackets it may at the beginning of a line. Tabs may not stand before it. -/
def skipToToken : (fuel : Nat) → (inFlow keyAllowed : Bool) → Cursor → Bool × Cursor
  | 0, _, keyAllowed, c => (keyAllowed, c)
  | fuel + 1, inFlow, keyAllowed, c =>
    let c := if c.column = 0 ∧ c.rest.head? = some '\ufeff' then c.skip 1 else c
    let c := c.skipWhile fun d => d == ' ' || (d == '\t' && (inFlow || !keyAllowed))
    let c := if c.rest.head? = some '#' then c.skipComment else c
    match c.lineBreak? with
    | none => (keyAllowed, c)
    | some (_, c) => skipToToken fuel inFlow (!inFlow || keyAllowed) c

end VbaWorkbench.Yaml
