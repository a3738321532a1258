import VbaWorkbench.Character.CaseMapping
import VbaWorkbench.Character.LetterCase
import VbaWorkbench.Text.Basic

namespace VbaWorkbench.Text

/-- The first character that casing does not look through is a letter with case. -/
def meetsCased (t : Text) : Bool :=
  match t.dropWhile Character.isCaseIgnorable with
  | [] => false
  | c :: _ => Character.isCased c

/-- A capital sigma ends its word: a cased letter comes before it and none after it. `before` is
read backwards from the sigma. -/
def endsWord (before after : Text) : Bool :=
  meetsCased before && !meetsCased after

def lowercaseAfter (before : Text) : Text → Text
  | [] => []
  | c :: rest =>
    let lowered :=
      if c = 'Σ' then [if endsWord before rest then 'ς' else 'σ'] else Character.lower c
    lowered ++ lowercaseAfter (c :: before) rest

/-- Full lower case; a sigma at the end of a word takes its final form. -/
def lowercase (t : Text) : Text :=
  lowercaseAfter [] t

end VbaWorkbench.Text
