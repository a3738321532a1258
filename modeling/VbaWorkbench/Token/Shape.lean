import VbaWorkbench.Character.Letter
import VbaWorkbench.Character.Number
import VbaWorkbench.Text.Basic
import VbaWorkbench.Token.Suffix

namespace VbaWorkbench

/-- What can be told of a lexeme from its characters alone. -/
inductive Shape where
  | whitespace
  | newline
  /-- An underscore and the line break after it. -/
  | brokenUnderscore
  | comment
  | quoted
  | word
  | number
  | separator
  | operator
  | other
deriving DecidableEq, Repr

/-- How many characters at the front of a text belong to the lexeme being read. -/
abbrev Reach := Text → Nat

namespace Reach

def many (p : Char → Bool) : Reach := fun t =>
  (t.takeWhile p).length

/-- One character if it satisfies `p`. -/
def optional (p : Char → Bool) : Reach
  | [] => 0
  | c :: _ => if p c then 1 else 0

/-- Each reader begins where the one before it stopped. -/
def inTurn : List Reach → Reach
  | [], _ => 0
  | r :: rs, t => r t + inTurn rs (t.drop (r t))

/-- A character satisfying `p` and what `rest` reads after it, or nothing. -/
def led (p : Char → Bool) (rest : Reach) : Reach
  | [] => 0
  | c :: t => if p c then rest t + 1 else 0

/-- A line break in one of its three spellings, `\r\n` before `\r`. -/
def lineBreak : Reach
  | '\r' :: '\n' :: _ => 2
  | c :: _ => if Text.isLineBreak c then 1 else 0
  | [] => 0

/-- The inside of a string literal and its closing quote. A doubled quote stays inside, and the end
of the line ends the literal without a quote. -/
def quoted : Reach
  | [] => 0
  | '"' :: '"' :: t => quoted t + 2
  | c :: t => if c = '"' then 1 else if Text.isLineBreak c then 0 else quoted t + 1

def isDigit (c : Char) : Bool := c.isDigit

def isHexDigit (c : Char) : Bool :=
  c.isDigit || ('a' ≤ c.toLower && c.toLower ≤ 'f')

def isOctalDigit (c : Char) : Bool :=
  '0' ≤ c && c ≤ '7'

def digits : Reach := many isDigit

def exponent : Reach :=
  led (fun c => c ∈ ['e', 'E', 'd', 'D']) (inTurn [optional (fun c => c == '+' || c == '-'), digits])

def numberSuffix : Reach := optional (fun c => c ∈ ['%', '&', '!', '#', '@', '^'])

/-- The rest of a decimal number after its first digit. -/
def decimal : Reach := inTurn [digits, led (· == '.') digits, exponent, numberSuffix]

/-- The rest of a number that began with its decimal point. -/
def fraction : Reach := inTurn [digits, exponent, numberSuffix]

/-- The rest of a number in base sixteen or eight after its ampersand. -/
def based : Reach
  | [] => 0
  | c :: t =>
    let size := optional (fun d => d ∈ ['%', '&', '^'])
    if c.toLower = 'h' then inTurn [many isHexDigit, size] t + 1
    else if c.toLower = 'o' then inTurn [many isOctalDigit, size] t + 1
    else 0

/-- The rest of a name after its first letter. -/
def name : Reach :=
  inTurn [many (fun c => Character.isLetter c || Character.isNumber c || c == '_'),
    optional TypeSuffix.isSuffix]

end Reach

namespace Shape

/-- The shape of the longest lexeme that begins with `c`, and how many characters of `rest` it
takes. -/
def read (c : Char) (rest : Text) : Shape × Nat :=
  if Text.isBlank c then (.whitespace, Reach.many Text.isBlank rest)
  else if Text.isLineBreak c then (.newline, Reach.lineBreak (c :: rest) - 1)
  else if c = '_' then
    match Reach.lineBreak rest with
    | 0 => (.other, 0)
    | n => (.brokenUnderscore, n)
  else if c = '\'' then (.comment, Reach.many (fun d => !Text.isLineBreak d) rest)
  else if c = '"' then (.quoted, Reach.quoted rest)
  else if c.isDigit then (.number, Reach.decimal rest)
  else if c = '.' then
    match Reach.digits rest with
    | 0 => (.other, 0)
    | _ => (.number, Reach.fraction rest)
  else if c = '&' then
    match Reach.based rest with
    | 0 => (.operator, 0)
    | n => (.number, n)
  else if c = ':' then
    match Reach.optional (· == '=') rest with
    | 0 => (.separator, 0)
    | n => (.operator, n)
  else if c = '<' then (.operator, Reach.optional (fun d => d == '=' || d == '>') rest)
  else if c = '>' then (.operator, Reach.optional (· == '=') rest)
  else if c ∈ ['=', '+', '-', '*', '/', '\\', '^'] then (.operator, 0)
  else if Character.isLetter c then (.word, Reach.name rest)
  else (.other, 0)

end Shape
end VbaWorkbench
