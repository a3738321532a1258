import VbaWorkbench.Binary64.Basic
import VbaWorkbench.Text.Digits

namespace VbaWorkbench.Yaml

/-- Digits after a leading zero write no number. -/
def hasLeadingZero : Text → Bool
  | '0' :: d :: rest => (d :: rest).all Char.isDigit
  | _ => false

/-- A whole number without sign, in base ten or with the mark of another base. -/
def unsigned? (t : Text) : Option Nat :=
  match t with
  | '0' :: 'x' :: rest => Text.natural? 16 rest
  | '0' :: 'o' :: rest => Text.natural? 8 rest
  | '0' :: 'b' :: rest => Text.natural? 2 rest
  | _ => if hasLeadingZero t then none else Text.natural? 10 t

def integer? (t : Text) : Option Int :=
  match t with
  | '+' :: rest => (unsigned? rest).map Int.ofNat
  | '-' :: rest => (unsigned? rest).map fun n => -Int.ofNat n
  | _ => (unsigned? t).map Int.ofNat

/-- A whole number that is taken as one, of 128 bits with or without sign. -/
def wideInteger? (t : Text) : Option Int :=
  (integer? t).filter fun n => -Int.ofNat (Nat.pow 2 127) ≤ n && n < Int.ofNat (Nat.pow 2 128)

/-- The exponent of a decimal number, zero if none is written. -/
def exponent? : Text → Option Int
  | [] => some 0
  | e :: rest =>
    if e = 'e' ∨ e = 'E' then Text.whole? rest else none

/-- A number without sign that is not too large for double precision. -/
def unsignedDecimal (t : Text) : Bool :=
  let whole := t.takeWhile Char.isDigit
  let after := t.drop whole.length
  let (part, rest) : Text × Text :=
    match after with
    | '.' :: more => (more.takeWhile Char.isDigit, more.dropWhile Char.isDigit)
    | _ => ([], after)
  match Text.natural? 10 (whole ++ part), exponent? rest with
  | some digits, some exponent =>
    !(Binary64.ofDecimal false digits (exponent - part.length)).isInfinite
  | _, _ => false

/-- A number with a fraction or an exponent, or one of the spellings of infinity and of no number. -/
def isFloat (t : Text) : Bool :=
  let unsigned := match t with
    | '+' :: rest | '-' :: rest => rest
    | _ => t
  [".nan", ".NaN", ".NAN"].any (·.toList == t) ||
    [".inf", ".Inf", ".INF"].any (·.toList == unsigned) ||
    (!hasLeadingZero unsigned && unsignedDecimal unsigned)

end VbaWorkbench.Yaml
