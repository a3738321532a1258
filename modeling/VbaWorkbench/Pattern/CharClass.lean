import VbaWorkbench.Character.Fold

namespace VbaWorkbench.Pattern

/-- ASCII letters, digits and the underscore. -/
def isWordChar (c : Char) : Bool :=
  c.isAlphanum || c == '_'

def isSpace (c : Char) : Bool :=
  c ∈ [' ', '\t', '\n', '\r', '\x0b', '\x0c']

def isLineTerminator (c : Char) : Bool :=
  c ∈ ['\n', '\r', '\u2028', '\u2029']

/-- A set of characters named in a class. -/
inductive ClassItem where
  | range (first last : Char)
  | digit (negated : Bool)
  | word (negated : Bool)
  | space (negated : Bool)
deriving DecidableEq, Repr

def ClassItem.contains (c : Char) : ClassItem → Bool
  | range first last => first ≤ c && c ≤ last
  | digit negated => c.isDigit != negated
  | word negated => isWordChar c != negated
  | space negated => isSpace c != negated

/-- The characters in one of the items, or in none of them. -/
structure CharClass where
  negated : Bool
  items : List ClassItem
deriving DecidableEq, Repr

namespace CharClass

def single (item : ClassItem) : CharClass :=
  ⟨false, [item]⟩

def hasItemFor (cls : CharClass) (c : Char) : Bool :=
  cls.items.any (·.contains c)

/-- Ignoring case, a character is in a class when it or its other case is named. -/
def accepts (cls : CharClass) (ignoreCase : Bool) (c : Char) : Bool :=
  let named := cls.hasItemFor c ||
    (ignoreCase && (cls.hasItemFor (Character.fold c) || cls.hasItemFor (Character.unfold c)))
  named != cls.negated

end CharClass
end VbaWorkbench.Pattern
