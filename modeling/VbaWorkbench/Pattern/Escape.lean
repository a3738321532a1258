import VbaWorkbench.Pattern.CharClass
import VbaWorkbench.Text.Digits

namespace VbaWorkbench.Pattern

/-- The number of characters up to the first `close` and with it. -/
def through? (close : Char) (t : Text) : Option Nat :=
  (t.findIdx? (· == close)).map (· + 1)

def isOctalDigit (c : Char) : Bool :=
  '0' ≤ c && c ≤ '7'

def isHexDigit (c : Char) : Bool :=
  c.isDigit || ('a' ≤ c.toLower && c.toLower ≤ 'f')

/-- The digits that go on with an octal escape of value `n`, up to `room` of them and while the
value stays a byte: the value and the number of digits. -/
def octalRest (n : Nat) : (room : Nat) → Text → Nat × Nat
  | room + 1, c :: rest =>
    if isOctalDigit c ∧ n * 8 + Text.digitValue c ≤ 255 then
      let (value, length) := octalRest (n * 8 + Text.digitValue c) room rest
      (value, length + 1)
    else (n, 0)
  | _, _ => (n, 0)

/-- The character of an octal escape that begins with `first`, and how many digits of `rest` it
takes. -/
def octal (first : Char) (rest : Text) : Char × Nat :=
  let (value, length) := octalRest (Text.digitValue first) 2 rest
  (Char.ofNat value, length)

/-- The character that `width` hexadecimal digits name. -/
def hexChar? (width : Nat) (rest : Text) : Option Char :=
  let digits := rest.take width
  let code := Text.digitsValue 16 digits
  if digits.length = width ∧ digits.all isHexDigit ∧ code.isValidChar then some (Char.ofNat code)
  else none

/-- The character that a backslash and `c` stand for, and how many characters of `rest` belong to
the escape. An unknown escape stands for its letter. -/
def charEscape (c : Char) (rest : Text) : Char × Nat :=
  let hex (width : Nat) : Char × Nat :=
    match hexChar? width rest with
    | some d => (d, width)
    | none => (c, 0)
  match c with
  | 'n' => ('\n', 0)
  | 'r' => ('\r', 0)
  | 't' => ('\t', 0)
  | 'f' => ('\x0c', 0)
  | 'v' => ('\x0b', 0)
  | 'x' => hex 2
  | 'u' => hex 4
  | 'c' =>
    match rest with
    | letter :: _ => if letter.isAlpha then (Char.ofNat (letter.toNat % 32), 1) else ('c', 0)
    | [] => ('c', 0)
  | c => (c, 0)

/-- The class that a backslash and a letter name. -/
def classEscape? (c : Char) : Option ClassItem :=
  match c with
  | 'd' => some (.digit false)
  | 'D' => some (.digit true)
  | 'w' => some (.word false)
  | 'W' => some (.word true)
  | 's' => some (.space false)
  | 'S' => some (.space true)
  | _ => none

/-- How many characters after a backslash belong to the escape when its meaning does not matter.
Escapes with a bracketed name are taken whole. -/
def escapeReach (inClass : Bool) (rest : Text) : Nat :=
  match rest with
  | 'p' :: '{' :: _ | 'P' :: '{' :: _ => (through? '}' rest).getD rest.length
  | 'k' :: '<' :: _ => if inClass then 1 else (through? '>' rest).getD rest.length
  | _ => 1

/-- The number of characters up to the bracket that ends a class. -/
def classItemsReach? : Text → Option Nat
  | [] => none
  | c :: rest =>
    if c = ']' then some 1
    else
      let n := if c = '\\' then escapeReach true rest else 0
      (classItemsReach? (rest.drop n)).map (· + n + 1)
termination_by t => t.length
decreasing_by simp only [List.length_cons, List.length_drop]; omega

/-- The number of characters of a class after its opening bracket. -/
def classReach? : Text → Option Nat
  | '^' :: rest => (classItemsReach? rest).map (· + 1)
  | t => classItemsReach? t

/-- The number of characters of a group after its opening parenthesis, where `depth` more groups are
open inside. -/
def groupReach? (depth : Nat) : Text → Option Nat
  | [] => none
  | c :: rest =>
    if c = ')' then
      match depth with
      | 0 => some 1
      | depth + 1 => (groupReach? depth rest).map (· + 1)
    else if c = '(' then (groupReach? (depth + 1) rest).map (· + 1)
    else
      let skipped :=
        if c = '\\' then some (escapeReach false rest)
        else if c = '[' then classReach? rest
        else some 0
      match skipped with
      | none => none
      | some n => (groupReach? depth (rest.drop n)).map (· + n + 1)
termination_by t => t.length
decreasing_by all_goals simp only [List.length_cons, List.length_drop]; omega

end VbaWorkbench.Pattern
