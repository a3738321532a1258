import VbaWorkbench.Character.CaseMapping
import VbaWorkbench.Character.LetterCase
import VbaWorkbench.Character.Number
import VbaWorkbench.Text.Lowercase

namespace VbaWorkbench.Name

/-- A capital begins a new word after a small letter or a number, and as the last of several
capitals when a small letter follows it. -/
def beginsWord (previous c : Char) (rest : Text) : Bool :=
  Character.isUppercase c &&
    (Character.isLowercase previous || Character.isNumeric previous ||
      (Character.isUppercase previous && rest.head?.any Character.isLowercase))

/-- The words of a name whose current word is `current`, read backwards. -/
def wordsAfter (current : Text) : Text → List Text
  | [] => if current.isEmpty then [] else [current.reverse]
  | c :: rest =>
    if c = '_' then
      if current.isEmpty then wordsAfter [] rest else current.reverse :: wordsAfter [] rest
    else if current.head?.any (beginsWord · c rest) then current.reverse :: wordsAfter [c] rest
    else wordsAfter (c :: current) rest

/-- The words of a name, cut at underscores and where the case changes. Digits stay with the word
before them. -/
def words (name : Text) : List Text :=
  wordsAfter [] name

/-- First letter in upper case, the others in lower case. -/
def capitalize : Text → Text
  | [] => []
  | c :: rest => Character.upper c ++ Text.lowercase rest

def pascal (words : List Text) : Text :=
  words.flatMap capitalize

def camel : List Text → Text
  | [] => []
  | word :: rest => Text.lowercase word ++ pascal rest

/-- The type tag before the words. A name of several words that begins with its tag keeps it
once. -/
def hungarian (tag : Text) : List Text → Text
  | first :: second :: rest =>
    if Text.sameAscii first tag then tag ++ pascal (second :: rest)
    else tag ++ pascal (first :: second :: rest)
  | words => tag ++ pascal words

end VbaWorkbench.Name
