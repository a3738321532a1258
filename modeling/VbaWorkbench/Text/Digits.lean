import VbaWorkbench.Text.Basic

namespace VbaWorkbench.Text

/-- The value of a digit, letters counting on from ten in either case; 36 for other characters. -/
def digitValue (c : Char) : Nat :=
  if c.isDigit then c.toNat - '0'.toNat
  else if c.isAlpha then c.toLower.toNat - 'a'.toNat + 10
  else 36

/-- The number that digits write, whatever their base allows. -/
def digitsValue (base : Nat) (t : Text) : Nat :=
  t.foldl (fun n d => n * base + digitValue d) 0

/-- The number that digits of a base write, at least one. -/
def natural? (base : Nat) (t : Text) : Option Nat :=
  if t.isEmpty || !t.all (digitValue · < base) then none else some (digitsValue base t)

/-- The whole number that decimal digits write, with a sign if need be. -/
def whole? : Text → Option Int
  | '+' :: rest => (natural? 10 rest).map Int.ofNat
  | '-' :: rest => (natural? 10 rest).map fun n => -Int.ofNat n
  | digits => (natural? 10 digits).map Int.ofNat

end VbaWorkbench.Text
