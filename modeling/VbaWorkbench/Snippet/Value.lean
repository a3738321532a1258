import VbaWorkbench.Text.Digits

namespace VbaWorkbench.Snippet

/-- A value that a caller gives for a placeholder. -/
inductive Value where
  | text (t : Text)
  | integer (n : Int)
  | boolean (b : Bool)
deriving DecidableEq, Repr

def Value.display : Value → Text
  | text t => t
  | integer n => Text.ofInt n
  | boolean b => if b then "true".toList else "false".toList

/-- The whole numbers of 64 bits. -/
def isInteger (n : Int) : Bool :=
  -9223372036854775808 ≤ n && n ≤ 9223372036854775807

/-- The whole number of 64 bits that a text writes: a sign if need be, and digits. -/
def integer? (t : Text) : Option Int :=
  (Text.whole? t).filter isInteger

end VbaWorkbench.Snippet
