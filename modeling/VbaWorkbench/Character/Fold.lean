import VbaWorkbench.Character.CaseMapping

namespace VbaWorkbench.Character

/-- The lower case of a character, if it is one character. -/
def fold (c : Char) : Char :=
  match lower c with
  | [l] => l
  | _ => c

/-- The upper case of a character, if it is one character. -/
def unfold (c : Char) : Char :=
  match upper c with
  | [u] => u
  | _ => c

end VbaWorkbench.Character
