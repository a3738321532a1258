import VbaWorkbench.Binary64.Basic

namespace VbaWorkbench.Binary64

/-- The numbers that are rounded to a finite one. -/
structure Interval where
  low : Ratio
  high : Ratio
  /-- The ends belong to it. -/
  closed : Bool
deriving DecidableEq, Repr

def Interval.contains (i : Interval) (a : Ratio) : Bool :=
  if i.closed then i.low.le a && a.le i.high else i.low.lt a && a.lt i.high

/-- The gap below a power of two is half as wide as the one above it. -/
def interval (mantissa : Nat) (exponent : Int) : Interval :=
  let quarter := Ratio.power 2 (exponent - 2)
  let below := if mantissa = leastNormal ∧ smallestExponent < exponent then 1 else 2
  ⟨quarter.mul ⟨4 * mantissa - below, 1⟩, quarter.mul ⟨4 * mantissa + 2, 1⟩, mantissa % 2 == 0⟩

/-- Digits and the exponent of the last one. -/
structure Decimal where
  digits : Nat
  exponent : Int
deriving DecidableEq, Repr

def Decimal.value (d : Decimal) : Ratio :=
  (Ratio.power 10 d.exponent).mul ⟨d.digits, 1⟩

/-- Which of two equally near decimals is taken. -/
inductive Tie where
  | above
  /-- The one with the even last digit. -/
  | even
deriving DecidableEq, Repr

def Tie.takesBelow (tie : Tie) (below : Decimal) : Bool :=
  match tie with
  | .above => false
  | .even => below.digits % 2 == 0

/-- Of the two multiples of `10 ^ exponent` beside `a`, the nearer one of those in the interval. -/
def onGrid? (tie : Tie) (i : Interval) (a : Ratio) (exponent : Int) : Option Decimal :=
  let below : Decimal := ⟨(a.div (Ratio.power 10 exponent)).floor, exponent⟩
  let above : Decimal := ⟨below.digits + 1, exponent⟩
  let middle : Decimal := ⟨10 * below.digits + 5, exponent - 1⟩
  match i.contains below.value, i.contains above.value with
  | true, true =>
    let isBelow := a.lt middle.value || (a.le middle.value && tie.takesBelow below)
    some (if isBelow then below else above)
  | true, false => some below
  | false, true => some above
  | false, false => none

/-- A power of ten that is not far above `a`. -/
def coarsest (a : Ratio) : Int :=
  a.log2 * 30103 / 100000 + 2

/-- The number with the fewest digits of those that are rounded to a finite one. -/
def shortest (tie : Tie) (mantissa : Nat) (exponent : Int) : Decimal :=
  let a := magnitude mantissa exponent
  let grids := (List.range 24).map fun n : Nat => coarsest a - n
  (grids.findSome? (onGrid? tie (interval mantissa exponent) a)).getD ⟨0, 0⟩

/-- The digits with a point among them and zeros where they are needed. -/
def Decimal.positional (d : Decimal) : Text :=
  match d.exponent with
  | .ofNat n => Text.ofNat (d.digits * Nat.pow 10 n)
  | .negSucc n =>
    let part := n + 1
    let digits := Text.ofNat d.digits
    let digits := List.replicate (part + 1 - digits.length) '0' ++ digits
    let whole := digits.take (digits.length - part)
    let after := Text.trimRight (· == '0') (digits.drop (digits.length - part))
    if after.isEmpty then whole else whole ++ '.' :: after

/-- The shortest positional text that is read as the number; a tie goes up. -/
def text : Binary64 → Text
  | undefined => "NaN".toList
  | infinite negative => if negative then "-inf".toList else "inf".toList
  | finite negative mantissa exponent =>
    let digits := if mantissa = 0 then ['0'] else (shortest .above mantissa exponent).positional
    if negative then '-' :: digits else digits

end VbaWorkbench.Binary64
