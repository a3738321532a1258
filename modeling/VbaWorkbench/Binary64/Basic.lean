import VbaWorkbench.Text.Basic

namespace VbaWorkbench

/-- A number of double precision. A finite one is `± mantissa · 2 ^ exponent`. -/
inductive Binary64 where
  | finite (negative : Bool) (mantissa : Nat) (exponent : Int)
  | infinite (negative : Bool)
  | undefined
deriving DecidableEq, Repr

/-- A fraction of natural numbers. -/
structure Ratio where
  num : Nat
  den : Nat
deriving DecidableEq, Repr

namespace Ratio

def mul (a b : Ratio) : Ratio :=
  ⟨a.num * b.num, a.den * b.den⟩

def div (a b : Ratio) : Ratio :=
  ⟨a.num * b.den, a.den * b.num⟩

def le (a b : Ratio) : Bool :=
  a.num * b.den ≤ b.num * a.den

def lt (a b : Ratio) : Bool :=
  a.num * b.den < b.num * a.den

def floor (a : Ratio) : Nat :=
  a.num / a.den

/-- The number `base ^ exponent`. -/
def power (base : Nat) : Int → Ratio
  | .ofNat n => ⟨Nat.pow base n, 1⟩
  | .negSucc n => ⟨1, Nat.pow base (n + 1)⟩

/-- The nearest natural number; a half goes up. -/
def roundUp (a : Ratio) : Nat :=
  (2 * a.num + a.den) / (2 * a.den)

/-- The nearest natural number; a half goes to the even neighbour. -/
def roundEven (a : Ratio) : Nat :=
  let twice := 2 * (a.num % a.den)
  let below := a.floor
  if twice < a.den ∨ (twice = a.den ∧ below % 2 = 0) then below else below + 1

/-- The largest `n` with `2 ^ n ≤ a`, for a number above zero. -/
def log2 (a : Ratio) : Int :=
  let n := (Nat.log2 a.num : Int) - Nat.log2 a.den
  if (power 2 n).le a then n else n - 1

end Ratio

namespace Binary64

def smallestExponent : Int := -1074

/-- The least mantissa of a number with full precision. -/
def leastNormal : Nat := Nat.pow 2 52

def isInfinite : Binary64 → Bool
  | infinite _ => true
  | _ => false

/-- The nearest number to a positive ratio. -/
def nearest (negative : Bool) (a : Ratio) : Binary64 :=
  let exponent := max (a.log2 - 52) smallestExponent
  let mantissa := (a.div (Ratio.power 2 exponent)).roundEven
  if (Ratio.power 2 1024).le ((Ratio.power 2 exponent).mul ⟨mantissa, 1⟩) then
    infinite negative
  else if mantissa = 2 * leastNormal then finite negative leastNormal (exponent + 1)
  else finite negative mantissa exponent

/-- The nearest number to `± digits · 10 ^ exponent`. -/
def ofDecimal (negative : Bool) (digits : Nat) (exponent : Int) : Binary64 :=
  let size := exponent + (Text.ofNat digits).length
  if digits = 0 ∨ size < -400 then finite negative 0 smallestExponent
  else if 400 < size then infinite negative
  else nearest negative ((Ratio.power 10 exponent).mul ⟨digits, 1⟩)

/-- The size of a finite number. -/
def magnitude (mantissa : Nat) (exponent : Int) : Ratio :=
  (Ratio.power 2 exponent).mul ⟨mantissa, 1⟩

/-- The nearest whole number from zero to `limit`; a half goes up. What is no number counts as
zero. -/
def roundWithin (limit : Nat) : Binary64 → Nat
  | finite false mantissa exponent => min limit (magnitude mantissa exponent).roundUp
  | infinite false => limit
  | finite true _ _ | infinite true | undefined => 0

end Binary64
end VbaWorkbench
