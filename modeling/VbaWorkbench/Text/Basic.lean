namespace VbaWorkbench

/-- Source text as its characters in order. -/
abbrev Text := List Char

namespace Text

/-- The length of the text in UTF-8. -/
def byteLength : Text → Nat
  | [] => 0
  | c :: rest => c.utf8Size + byteLength rest

/-- ASCII letters in lower case; every other character stays. -/
def lowerAscii (t : Text) : Text :=
  t.map Char.toLower

/-- ASCII letters in upper case; every other character stays. -/
def upperAscii (t : Text) : Text :=
  t.map Char.toUpper

/-- Equal up to the case of ASCII letters. -/
def sameAscii (s t : Text) : Bool :=
  lowerAscii s == lowerAscii t

def isLineBreak (c : Char) : Bool :=
  c == '\n' || c == '\r'

theorem isLineBreak_iff {c : Char} : isLineBreak c = true ↔ c = '\n' ∨ c = '\r' := by
  simp [isLineBreak]

/-- Spaces and tabs are the only blanks inside a line. -/
def isBlank (c : Char) : Bool :=
  c == ' ' || c == '\t'

/-- The text without the characters at its end for which `p` holds. -/
def trimRight (p : Char → Bool) (t : Text) : Text :=
  (t.reverse.dropWhile p).reverse

def repeated (t : Text) (n : Nat) : Text :=
  (List.replicate n t).flatten

/-- The texts with `mark` between neighbours. -/
def joined (mark : Text) : List Text → Text
  | [] => []
  | [t] => t
  | t :: ts => t ++ mark ++ joined mark ts

/-- The decimal digits of a number. -/
def ofNat (n : Nat) : Text :=
  Nat.toDigits 10 n

def ofInt : Int → Text
  | .ofNat n => ofNat n
  | .negSucc n => '-' :: ofNat (n + 1)

@[simp] theorem byteLength_append (s t : Text) :
    byteLength (s ++ t) = byteLength s + byteLength t := by
  induction s with
  | nil => simp [byteLength]
  | cons c s ih => simp [byteLength, ih, Nat.add_assoc]

end Text
end VbaWorkbench
