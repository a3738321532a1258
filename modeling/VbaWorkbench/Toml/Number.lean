import VbaWorkbench.Text.Digits
import VbaWorkbench.Toml.Value

namespace VbaWorkbench.Toml

/-- The digits without the underscores among them, each of which stands between two digits. -/
def ungrouped? (base : Nat) (t : Text) : Option Text :=
  let groups := t.splitOnP (· == '_')
  if groups.all fun g => !g.isEmpty && g.all (Text.digitValue · < base) then some groups.flatten
  else none

def grouped? (base : Nat) (t : Text) : Option Nat :=
  (ungrouped? base t).map (Text.digitsValue base)

def hasLeadingZero : Text → Bool
  | '0' :: _ :: _ => true
  | _ => false

/-- A sign, where there is one, and the rest. -/
def sign : Text → Bool × Text
  | '-' :: rest => (true, rest)
  | '+' :: rest => (false, rest)
  | t => (false, t)

/-- A whole number of 64 bits. Other bases than ten have a mark and no sign. -/
def integer? (t : Text) : Option Int :=
  let number : Option Int :=
    match t with
    | '0' :: 'x' :: rest => (grouped? 16 rest).map Int.ofNat
    | '0' :: 'o' :: rest => (grouped? 8 rest).map Int.ofNat
    | '0' :: 'b' :: rest => (grouped? 2 rest).map Int.ofNat
    | _ =>
      let (negative, digits) := sign t
      if hasLeadingZero digits then none
      else (grouped? 10 digits).map fun n => if negative then -Int.ofNat n else Int.ofNat n
  number.filter fun n => -9223372036854775808 ≤ n && n ≤ 9223372036854775807

/-- The exponent of a number after its mark. -/
def exponent? (t : Text) : Option Int :=
  let (negative, digits) := sign t
  (grouped? 10 digits).map fun n => if negative then -Int.ofNat n else Int.ofNat n

/-- The digits before and after the point; where there is a point both are needed. -/
def mantissa? (t : Text) : Option (Text × Text) :=
  match t.splitOnP (· == '.') with
  | [whole] => (ungrouped? 10 whole).map (·, [])
  | [whole, part] =>
    match ungrouped? 10 whole, ungrouped? 10 part with
    | some whole, some part => some (whole, part)
    | _, _ => none
  | _ => none

/-- A number with a point, an exponent or both, without its sign. None is too large. -/
def decimal? (negative : Bool) (t : Text) : Option Binary64 :=
  let before := t.takeWhile fun c => c != 'e' && c != 'E'
  let exponent : Option Int :=
    match t.drop before.length with
    | [] => if '.' ∈ t then some 0 else none
    | _ :: rest => exponent? rest
  match mantissa? before, exponent with
  | some (whole, part), some exponent =>
    let digits := Text.digitsValue 10 (whole ++ part)
    let x := Binary64.ofDecimal negative digits (exponent - part.length)
    if hasLeadingZero whole ∨ x = .infinite false then none else some x
  | _, _ => none

def number? (t : Text) : Option Binary64 :=
  let (negative, size) := sign t
  if size = "inf".toList then some (.infinite negative)
  else if size = "nan".toList then some .undefined
  else decimal? negative size

/-- The value that a bare word writes. -/
def word? (t : Text) : Option Value :=
  if t = "true".toList then some (.boolean true)
  else if t = "false".toList then some (.boolean false)
  else
    match integer? t with
    | some n => some (.integer n)
    | none => (number? t).map Value.number

end VbaWorkbench.Toml
