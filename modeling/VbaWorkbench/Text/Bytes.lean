import VbaWorkbench.Text.Basic

namespace VbaWorkbench.Text

/-- The characters in the first `n` bytes. -/
def takeBytes (n : Nat) : Text → Text
  | [] => []
  | c :: rest => if c.utf8Size ≤ n then c :: takeBytes (n - c.utf8Size) rest else []

/-- The characters after the first `n` bytes. -/
def dropBytes (n : Nat) : Text → Text
  | [] => []
  | c :: rest => if c.utf8Size ≤ n then dropBytes (n - c.utf8Size) rest else c :: rest

/-- The byte offset of each character and of the end, when the first stands at `start`. -/
def byteOffsets (start : Nat) : Text → List Nat
  | [] => [start]
  | c :: rest => start :: byteOffsets (start + c.utf8Size) rest

end VbaWorkbench.Text
