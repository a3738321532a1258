import VbaWorkbench.Text.Digits
import VbaWorkbench.Yaml.Cursor

namespace VbaWorkbench.Yaml

/-- The escapes in double quotes that stand for a character of their own. -/
def simpleEscape? (c : Char) : Option Char :=
  [('0', '\x00'), ('a', '\x07'), ('b', '\x08'), ('t', '\t'), ('\t', '\t'), ('n', '\n'),
    ('v', '\x0b'), ('f', '\x0c'), ('r', '\r'), ('e', '\x1b'), (' ', ' '), ('"', '"'), ('/', '/'),
    ('\\', '\\'), ('N', '\u0085'), ('_', '\u00a0'), ('L', '\u2028'), ('P', '\u2029')].lookup c

/-- The escapes that are followed by so many hexadecimal digits. -/
def escapeWidth? (c : Char) : Option Nat :=
  [('x', 2), ('u', 4), ('U', 8)].lookup c

/-- The character that an escape names, and its length after the backslash. -/
def escape? : Text → Option (Char × Nat)
  | [] => none
  | c :: rest =>
    match simpleEscape? c, escapeWidth? c with
    | some d, _ => some (d, 1)
    | none, none => none
    | none, some width =>
      let digits := rest.take width
      if digits.length ≠ width then none
      else
        match Text.natural? 16 digits with
        | some code => if code.isValidChar then some (Char.ofNat code, width + 1) else none
        | none => none

/-- Reads on behind the opening quote. The answer of this and of the other readers is the text of
the scalar and the cursor behind it. -/
def readDoubleQuoted : (fuel : Nat) → Cursor → Option (Text × Cursor)
  | 0, _ => none
  | fuel + 1, c =>
    let word := c.rest.takeWhile fun d => d != '"' && d != '\\' && !Text.isBlank d && !isBreak d
    let next := c.skip word.length
    if c.isAtMarker then none
    else
      match next.rest with
      | [] => none
      | '"' :: _ => some (word, next.skip 1)
      | '\\' :: rest =>
        match (next.skip 1).lineBreak? with
        | some (_, next) =>
          (skipGap 0 fuel next).bind fun (g, next) =>
            (readDoubleQuoted fuel next).map fun (t, c) => (word ++ g.breaks.flatten ++ t, c)
        | none =>
          (escape? rest).bind fun (d, n) =>
            (readDoubleQuoted fuel (next.skip (n + 1))).map fun (t, c) => (word ++ d :: t, c)
      | _ =>
        (skipGap 0 fuel next).bind fun (g, next) =>
          (readDoubleQuoted fuel next).map fun (t, c) => (word ++ g.folded ++ t, c)

/-- In single quotes a quote is written twice. -/
def readSingleQuoted : (fuel : Nat) → Cursor → Option (Text × Cursor)
  | 0, _ => none
  | fuel + 1, c =>
    let word := c.rest.takeWhile fun d => d != '\'' && !Text.isBlank d && !isBreak d
    let next := c.skip word.length
    if c.isAtMarker then none
    else
      match next.rest with
      | [] => none
      | '\'' :: '\'' :: _ =>
        (readSingleQuoted fuel (next.skip 2)).map fun (t, c) => (word ++ '\'' :: t, c)
      | '\'' :: _ => some (word, next.skip 1)
      | _ =>
        (skipGap 0 fuel next).bind fun (g, next) =>
          (readSingleQuoted fuel next).map fun (t, c) => (word ++ g.folded ++ t, c)

def isFlowIndicator (c : Char) : Bool :=
  c ∈ [',', '[', ']', '\x7b', '\x7d']

/-- A plain scalar can begin here. -/
def beginsPlain (inFlow : Bool) : Text → Bool
  | [] => false
  | c :: rest =>
    if c = '-' then !endsWord rest
    else if c = '?' ∨ c = ':' then !inFlow && !endsWord rest
    else !endsWord (c :: rest) && !isFlowIndicator c &&
      !c ∈ ['#', '&', '*', '!', '|', '>', '\'', '"', '%', '@', '\x60']

/-- A plain scalar with the blanks and line breaks behind it. -/
structure Plain where
  text : Text
  cursor : Cursor
  /-- There is a line break among them. -/
  endsLine : Bool
deriving DecidableEq, Repr

/-- Reads plain text whose further lines stand at least at column `least`. A colon ends it before a
blank; inside brackets no bracket or comma may follow a colon. -/
def readPlain (inFlow : Bool) (least : Nat) : (fuel : Nat) → Cursor → Option Plain
  | 0, _ => none
  | fuel + 1, c =>
    let word := c.rest.takeWhile fun d =>
      d != ':' && !Text.isBlank d && !isBreak d && !(inFlow && isFlowIndicator d)
    let next := c.skip word.length
    match next.rest with
    | ':' :: rest =>
      if inFlow && rest.head?.any fun d => d == '?' || isFlowIndicator d then none
      else if endsWord rest then some ⟨word, next, false⟩
      else (readPlain inFlow least fuel (next.skip 1)).map fun p =>
        { p with text := word ++ ':' :: p.text }
    | _ =>
      match skipGap least fuel next with
      | none => none
      | some (g, after) =>
        let ended : Plain := ⟨word, after, !g.breaks.isEmpty⟩
        if g.isEmpty ∨ after.rest.head? = some '#' ∨ after.isAtMarker ∨
            (!inFlow ∧ ended.endsLine ∧ after.column < least) then
          some ended
        else
          (readPlain inFlow least fuel after).map fun p =>
            if p.text.isEmpty then ended else { p with text := word ++ g.folded ++ p.text }

/-- What a block scalar keeps of the line breaks at its end. -/
inductive Chomping where
  | strip
  | clip
  | keep
deriving DecidableEq, Repr

structure BlockHeader where
  chomping : Chomping
  /-- The indentation, if it is written. -/
  indent : Option Nat
deriving DecidableEq, Repr

def chomping? (c : Char) : Option Chomping :=
  if c = '-' then some .strip else if c = '+' then some .keep else none

def indent? (c : Char) : Option Nat :=
  if '1' ≤ c ∧ c ≤ '9' then some (Text.digitValue c) else none

/-- The marks after the sign of a block scalar, in either order, and their number. -/
def blockHeader (t : Text) : BlockHeader × Nat :=
  let second := (t.drop 1).head?
  match t.head?.bind chomping?, t.head?.bind indent? with
  | some ch, _ =>
    match second.bind indent? with
    | some n => (⟨ch, some n⟩, 2)
    | none => (⟨ch, none⟩, 1)
  | none, some n =>
    match second.bind chomping? with
    | some ch => (⟨ch, some n⟩, 2)
    | none => (⟨.clip, some n⟩, 1)
  | none, none => (⟨.clip, none⟩, 0)

/-- The blank lines at the cursor and the indentation of the next line. -/
structure BlankLines where
  breaks : List Text
  widest : Nat
  cursor : Cursor
deriving DecidableEq, Repr

/-- Passes blank lines and the indentation of the next one, of at most `limit` columns. No tab may
stand in an indentation. -/
def skipBlankLines (limit : Option Nat) : (fuel : Nat) → Cursor → Option BlankLines
  | 0, c => some ⟨[], c.column, c⟩
  | fuel + 1, c =>
    let spaces := (c.rest.takeWhile (· == ' ')).length
    let c := c.skip (limit.elim spaces fun n => Nat.min spaces (n - c.column))
    if c.rest.head? = some '\t' ∧ limit.all (c.column < ·) then none
    else
      match c.lineBreak? with
      | none => some ⟨[], c.column, c⟩
      | some (text, next) => (skipBlankLines limit fuel next).map fun b =>
          { b with breaks := text :: b.breaks, widest := Nat.max c.column b.widest }

/-- What stands between two lines of a block scalar: the break that ends the first one and the breaks
of the blank lines after it. Where lines are folded a single break becomes a space. -/
def betweenLines (folds : Bool) (ending : Text) (blankLines : List Text) : Text :=
  if folds && ending == ['\n'] then
    if blankLines.isEmpty then [' '] else blankLines.flatten
  else ending ++ blankLines.flatten

/-- What is kept of the breaks at the end. -/
def Chomping.kept (chomping : Chomping) (ending : Text) (blankLines : List Text) : Text :=
  match chomping with
  | strip => []
  | clip => ending
  | keep => ending ++ blankLines.flatten

/-- The lines of a block scalar from `c` on, after a line that ended with `ending` and some blank
lines. Lines that begin with a blank are not folded, and `flush` says that the line before did
not begin so. -/
def readBlockLines (folding : Bool) (indent : Nat) (chomping : Chomping) :
    (fuel : Nat) → (ending : Text) → (blankLines : List Text) → (flush : Bool) → Cursor →
      Option (Text × Cursor)
  | 0, _, _, _, _ => none
  | fuel + 1, ending, blankLines, flush, c =>
    if c.column = indent ∧ c.rest ≠ [] then
      let line := c.rest.takeWhile fun d => !isBreak d
      let unindented := !line.head?.any Text.isBlank
      let before := betweenLines (folding && flush && unindented) ending blankLines
      let c := c.skip line.length
      let (ending, c) := c.lineBreak?.getD ([], c)
      (skipBlankLines (some indent) fuel c).bind fun b =>
        (readBlockLines folding indent chomping fuel ending b.breaks unindented b.cursor).map
          fun (text, c) => (before ++ line ++ text, c)
    else some (chomping.kept ending blankLines, c)

/-- Reads a block scalar after its sign. Its lines stand at least at column `least`. -/
def readBlock (folding : Bool) (least fuel : Nat) (c : Cursor) : Option (Text × Cursor) :=
  let (header, n) := blockHeader c.rest
  (c.skip n).skipComment.nextLine?.bind fun c =>
    let fixed := header.indent.map fun n => least - 1 + n
    (skipBlankLines fixed fuel c).bind fun b =>
      let indent := fixed.getD (Nat.max (Nat.max b.widest least) 1)
      readBlockLines folding indent header.chomping fuel [] b.breaks false b.cursor

end VbaWorkbench.Yaml
