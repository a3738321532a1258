import VbaWorkbench.Text.Basic

namespace VbaWorkbench.TypeSuffix

/-- The characters that end a name to declare its type. -/
def isSuffix (c : Char) : Bool :=
  c ∈ ['%', '&', '!', '#', '@', '$']

def of? (name : Text) : Option Char :=
  name.getLast?.filter isSuffix

/-- The name without its type suffix. -/
def strip (name : Text) : Text :=
  if (of? name).isSome then name.dropLast else name

end VbaWorkbench.TypeSuffix
