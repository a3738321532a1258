import VbaWorkbench.Toml.Moment
import VbaWorkbench.Toml.Number
import VbaWorkbench.Toml.Table

namespace VbaWorkbench.Toml

/-- Lists and tables stand inside each other, and keys have names, fewer than this number. -/
def depthLimit : Nat := 80

/-- The characters that may stand in comments and quoted texts. -/
def isPrintable (c : Char) : Bool :=
  c == '\t' || (0x20 ≤ c.toNat && c.toNat != 0x7f)

def isBare (c : Char) : Bool :=
  c.isAlphanum || c == '-' || c == '_'

/-- The rest after a line break. -/
def lineBreak? : Text → Option Text
  | '\n' :: rest => some rest
  | '\r' :: '\n' :: rest => some rest
  | _ => none

def skipBlanks (t : Text) : Text :=
  t.dropWhile Text.isBlank

/-- Passes blanks and a comment. -/
def skipComment (t : Text) : Text :=
  match skipBlanks t with
  | '#' :: rest => rest.dropWhile isPrintable
  | t => t

/-- Passes blanks, comments and line breaks. -/
def skipLines : (fuel : Nat) → Text → Text
  | 0, t => t
  | fuel + 1, t =>
    match lineBreak? (skipComment t) with
    | none => skipComment t
    | some rest => skipLines fuel rest

/-- Passes blanks and line breaks. -/
def skipBlankLines : (fuel : Nat) → Text → Text
  | 0, t => t
  | fuel + 1, t =>
    match lineBreak? (skipBlanks t) with
    | none => skipBlanks t
    | some rest => skipBlankLines fuel rest

def simpleEscape? (c : Char) : Option Char :=
  [('b', '\x08'), ('t', '\t'), ('n', '\n'), ('f', '\x0c'), ('r', '\r'), ('"', '"'),
    ('\\', '\\')].lookup c

/-- The character that an escape names, and what follows it. -/
def escape? : Text → Option (Char × Text)
  | [] => none
  | c :: rest =>
    if c = 'u' ∨ c = 'U' then
      let width := if c = 'u' then 4 else 8
      match Text.natural? 16 (rest.take width) with
      | none => none
      | some code =>
        if width ≤ rest.length ∧ code.isValidChar then
          some (Char.ofNat code, rest.drop width)
        else none
    else (simpleEscape? c).map (·, rest)

/-- Reads quoted text after its opening quote, up to the closing one. -/
def readQuoted : (fuel : Nat) → Text → Option (Text × Text)
  | fuel + 1, c :: rest =>
    if c = '"' then some ([], rest)
    else if c = '\\' then
      match escape? rest with
      | none => none
      | some (d, rest) => (readQuoted fuel rest).map fun (t, rest) => (d :: t, rest)
    else if isPrintable c then (readQuoted fuel rest).map fun (t, rest) => (c :: t, rest)
    else none
  | _, _ => none

/-- Reads text between single quotes, in which nothing is escaped. -/
def readLiteral (t : Text) : Option (Text × Text) :=
  let inside := t.takeWhile fun c => c != '\'' && isPrintable c
  match t.drop inside.length with
  | '\'' :: rest => some (inside, rest)
  | _ => none

/-- The quotes that a text of several lines ends with: three of them, and up to two before these that
belong to the text. -/
def closing? (quote : Char) (t : Text) : Option (Text × Text) :=
  let quotes := t.takeWhile (· == quote)
  let n := Nat.min quotes.length 5
  if n < 3 then none else some (quotes.take (n - 3), t.drop n)

/-- The rest after a backslash, blanks and a line break, and all blanks and line breaks behind
them. -/
def skipEscapedBreak? (t : Text) : Option Text :=
  (lineBreak? (skipBlanks t)).map fun rest => skipBlankLines rest.length rest

/-- Reads quoted text of several lines after its opening quotes. -/
def readQuotedLines : (fuel : Nat) → Text → Option (Text × Text)
  | fuel + 1, c :: rest =>
    if c = '"' then
      match closing? '"' (c :: rest) with
      | some ended => some ended
      | none => (readQuotedLines fuel rest).map fun (t, rest) => (c :: t, rest)
    else if c = '\\' then
      match skipEscapedBreak? rest with
      | some rest => readQuotedLines fuel rest
      | none =>
        match escape? rest with
        | none => none
        | some (d, rest) => (readQuotedLines fuel rest).map fun (t, rest) => (d :: t, rest)
    else
      match lineBreak? (c :: rest) with
      | some rest => (readQuotedLines fuel rest).map fun (t, rest) => ('\n' :: t, rest)
      | none =>
        if isPrintable c then (readQuotedLines fuel rest).map fun (t, rest) => (c :: t, rest)
        else none
  | _, _ => none

/-- Reads text of several lines between single quotes after the opening ones. -/
def readLiteralLines : (fuel : Nat) → Text → Option (Text × Text)
  | fuel + 1, c :: rest =>
    match if c = '\'' then closing? c (c :: rest) else none, lineBreak? (c :: rest) with
    | some ended, _ => some ended
    | none, some rest => (readLiteralLines fuel rest).map fun (t, rest) => ('\n' :: t, rest)
    | none, none =>
      if isPrintable c then (readLiteralLines fuel rest).map fun (t, rest) => (c :: t, rest)
      else none
  | _, _ => none

/-- A line break right behind the opening quotes does not count. -/
def skipFirstBreak (t : Text) : Text :=
  (lineBreak? t).getD t

/-- Reads text between quotes of either kind. -/
def readText? (t : Text) : Option (Text × Text) :=
  match t with
  | '"' :: '"' :: '"' :: rest => readQuotedLines rest.length (skipFirstBreak rest)
  | '\'' :: '\'' :: '\'' :: rest => readLiteralLines rest.length (skipFirstBreak rest)
  | '"' :: rest => readQuoted t.length rest
  | '\'' :: rest => readLiteral rest
  | _ => none

/-- Reads one name of a key. -/
def readName (t : Text) : Option (Text × Text) :=
  match t with
  | '"' :: rest => readQuoted t.length rest
  | '\'' :: rest => readLiteral rest
  | _ =>
    let name := t.takeWhile isBare
    if name.isEmpty then none else some (name, t.drop name.length)

/-- Reads the names of a key and the blanks after it. -/
def readNames : (fuel : Nat) → Text → Option (List Text × Text)
  | 0, _ => none
  | fuel + 1, t =>
    match readName (skipBlanks t) with
    | none => none
    | some (name, rest) =>
      match skipBlanks rest with
      | '.' :: rest => (readNames fuel rest).map fun (names, rest) => (name :: names, rest)
      | rest => some ([name], rest)

def readKey (t : Text) : Option (List Text × Text) :=
  (readNames t.length t).filter fun (names, _) => names.length < depthLimit

/-- Reads a key and the sign after it. -/
def readAssigned (t : Text) : Option (List Text × Text) :=
  match readKey t with
  | some (key, '=' :: rest) => some (key, skipBlanks rest)
  | _ => none

mutual
/-- Reads a value that stands inside fewer than `depth` lists and tables. -/
def readValue : (fuel depth : Nat) → Text → Option (Value × Text)
  | 0, _, _ => none
  | fuel + 1, depth, t =>
    match t with
    | '"' :: _ | '\'' :: _ => (readText? t).map fun (s, rest) => (.text s, rest)
    | '[' :: rest =>
      match depth with
      | 0 => none
      | depth + 1 =>
        (readItems fuel depth (skipLines t.length rest)).map fun (items, rest) =>
          (.list items, rest)
    | '\x7b' :: rest =>
      match depth, skipBlanks rest with
      | 0, _ => none
      | _, '\x7d' :: rest => some (.table [], rest)
      | depth + 1, rest => do
        let (statements, rest) ← readEntries fuel depth rest
        let t ← Table.ofStatements? statements
        return (.table (Table.toEntries t), rest)
    | _ =>
      if beginsMoment t then (readMoment t).map fun (s, rest) => (.text s, rest)
      else
        let word := t.takeWhile fun c => isBare c || c == '+' || c == '.'
        (word? word).map (·, t.drop word.length)

/-- Reads the items of a list and its closing bracket. A comma may follow the last one. -/
def readItems : (fuel depth : Nat) → Text → Option (List Value × Text)
  | 0, _, _ => none
  | fuel + 1, depth, t =>
    match t with
    | ']' :: rest => some ([], rest)
    | _ =>
      match readValue fuel depth t with
      | none => none
      | some (v, rest) =>
        match skipLines rest.length rest with
        | ']' :: rest => some ([v], rest)
        | ',' :: rest =>
          (readItems fuel depth (skipLines rest.length rest)).map fun (vs, rest) => (v :: vs, rest)
        | _ => none

/-- Reads the entries of a table on one line and its closing brace. -/
def readEntries : (fuel depth : Nat) → Text → Option (List Statement × Text)
  | 0, _, _ => none
  | fuel + 1, depth, t =>
    match readAssigned t with
    | none => none
    | some (key, rest) =>
      match readValue fuel depth rest with
      | none => none
      | some (v, rest) =>
        match skipBlanks rest with
        | '\x7d' :: rest => some ([.entry key v], rest)
        | ',' :: rest =>
          (readEntries fuel depth rest).map fun (es, rest) => (.entry key v :: es, rest)
        | _ => none
end

/-- Reads one statement at the beginning of a line. -/
def readStatement (t : Text) : Option (Statement × Text) :=
  match t with
  | '[' :: '[' :: rest =>
    match readKey rest with
    | some (path, ']' :: ']' :: rest) => some (.itemHeader path, rest)
    | _ => none
  | '[' :: rest =>
    match readKey rest with
    | some (path, ']' :: rest) => some (.header path, rest)
    | _ => none
  | _ =>
    match readAssigned t with
    | none => none
    | some (key, rest) =>
      (readValue (2 * t.length + 2) (depthLimit - 1) rest).map fun (v, rest) =>
        (.entry key v, rest)

/-- Reads the statements of a document, one on a line. -/
def readStatements : (fuel : Nat) → Text → Option (List Statement)
  | 0, _ => none
  | fuel + 1, t =>
    match skipLines t.length t with
    | [] => some []
    | t =>
      match readStatement t with
      | none => none
      | some (s, rest) =>
        match skipComment rest with
        | [] => some [s]
        | rest =>
          match lineBreak? rest with
          | none => none
          | some rest => (readStatements fuel rest).map (s :: ·)

/-- The entries of a document. -/
def read? (text : Text) : Option (List (Text × Value)) :=
  let text := if text.head? = some '\ufeff' then text.drop 1 else text
  match readStatements (text.length + 1) text with
  | none => none
  | some statements => (Table.ofStatements? statements).map Table.toEntries

end VbaWorkbench.Toml
