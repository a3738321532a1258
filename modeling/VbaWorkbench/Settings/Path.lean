import VbaWorkbench.Text.Digits

namespace VbaWorkbench.Settings

/-- One step of a path. -/
inductive Step where
  /-- To an entry of a table. -/
  | name (name : Text)
  /-- To an item of a list, counted from its end if negative. -/
  | place (n : Int)
deriving DecidableEq, Repr

def isKeyChar (c : Char) : Bool :=
  c.isAlphanum || c == '_' || c == '-' || c == ' '

/-- A place has no plus sign and fits in 64 bits. -/
def placeOfText? (t : Text) : Option Int :=
  let t := Text.trimRight Text.isBlank (t.dropWhile Text.isBlank)
  if t.head? = some '+' then none
  else (Text.whole? t).filter fun n => -9223372036854775808 ≤ n && n ≤ 9223372036854775807

/-- The steps that are written behind the first name, none of them without a character. -/
def steps? : (fuel : Nat) → Text → Option (List Step)
  | 0, _ => none
  | _ + 1, [] => some []
  | fuel + 1, '.' :: rest =>
    let name := rest.takeWhile isKeyChar
    if name.isEmpty then none
    else (steps? fuel (rest.dropWhile isKeyChar)).map (.name name :: ·)
  | fuel + 1, '[' :: rest =>
    match rest.dropWhile (· != ']') with
    | [] => none
    | _ :: after => do
      let n ← placeOfText? (rest.takeWhile (· != ']'))
      return .place n :: (← steps? fuel after)
  | _ + 1, _ => none

/-- The path that a key writes: names with points between them, and places in brackets behind a
name. -/
def keyPath? (key : Text) : Option (List Step) :=
  steps? (key.length + 2) ('.' :: key)

end VbaWorkbench.Settings
