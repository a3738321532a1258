import VbaWorkbench.Pattern.Dialect
import VbaWorkbench.Pattern.Error
import VbaWorkbench.Pattern.Escape

namespace VbaWorkbench.Pattern

/-- What one place in a class names. -/
inductive ClassAtom where
  | char (c : Char)
  | item (item : ClassItem)
  | dropped
deriving DecidableEq, Repr

/-- Something read from a pattern: its value, the foreign constructs in it and the number of
characters it takes. -/
structure Reading (α : Type) where
  value : α
  warnings : List Warning
  length : Nat
deriving DecidableEq, Repr

/-- The property escape whose brace begins `rest`; the backslash is at `offset`. -/
def readProperty (offset : Nat) (rest : Text) : Except Malformed (Reading Unit) :=
  match through? '}' rest with
  | some n => .ok ⟨(), [⟨.unicodeProperty, offset⟩], n + 2⟩
  | none => .error ⟨offset, .missing '}'⟩

def isPropertyEscape (c : Char) (rest : Text) : Bool :=
  (c == 'p' || c == 'P') && rest.head? == some '{'

/-- Reads one place of the class that was opened at `opening`. -/
def readClassAtom (opening offset : Nat) : Text → Except Malformed (Reading ClassAtom)
  | [] => .error ⟨opening, .missing ']'⟩
  | '\\' :: [] => .error ⟨offset, .trailingBackslash⟩
  | '\\' :: c :: rest =>
    match classEscape? c with
    | some item => .ok ⟨.item item, [], 2⟩
    | none =>
      if c = 'b' then .ok ⟨.char '\x08', [], 2⟩
      else if isPropertyEscape c rest then
        (readProperty offset rest).map fun r => ⟨.dropped, r.warnings, r.length⟩
      else
        let (d, n) := if isOctalDigit c then octal c rest else charEscape c rest
        .ok ⟨.char d, [], n + 2⟩
  | c :: _ => .ok ⟨.char c, [], 1⟩

/-- The items of one place. -/
def ClassAtom.items : ClassAtom → List ClassItem
  | char c => [.range c c]
  | item i => [i]
  | dropped => []

/-- Reads one place or a range. A dash before the end of the class stands for itself, and so does
one beside a class escape. -/
def readClassPart (opening offset : Nat) (t : Text) :
    Except Malformed (Reading (List ClassItem)) := do
  let first ← readClassAtom opening offset t
  let alone : Reading (List ClassItem) := ⟨first.value.items, first.warnings, first.length⟩
  match first.value, t.drop first.length with
  | .char lo, '-' :: next :: rest =>
    if next = ']' then .ok alone
    else
      let dash := first.length + 1
      let second ← readClassAtom opening (offset + Text.byteLength (t.take dash)) (next :: rest)
      let items ←
        match second.value with
        | .char hi => if hi < lo then .error ⟨offset, .rangeOutOfOrder⟩ else .ok [.range lo hi]
        | other => .ok (.range lo lo :: .range '-' '-' :: other.items)
      .ok ⟨items, first.warnings ++ second.warnings, dash + second.length⟩
  | _, _ => .ok alone

/-- Reads the items of a class and its closing bracket. -/
def readClassItems (opening offset : Nat) :
    Text → Except Malformed (Reading (List ClassItem))
  | [] => .error ⟨opening, .missing ']'⟩
  | c :: rest =>
    if c = ']' then .ok ⟨[], [], 1⟩
    else
      match readClassPart opening offset (c :: rest) with
      | .error e => .error e
      | .ok part =>
        let n := part.length - 1
        let offset := offset + Text.byteLength (c :: rest.take n)
        (readClassItems opening offset (rest.drop n)).map fun more =>
          ⟨part.value ++ more.value, part.warnings ++ more.warnings, n + 1 + more.length⟩
termination_by t => t.length
decreasing_by simp only [List.length_cons, List.length_drop]; omega

/-- Reads a class after its opening bracket. -/
def readClass (opening : Nat) (t : Text) : Except Malformed (Reading CharClass) :=
  match t with
  | '^' :: rest =>
    (readClassItems opening (opening + 2) rest).map fun r =>
      ⟨⟨true, r.value⟩, r.warnings, r.length + 1⟩
  | _ =>
    (readClassItems opening (opening + 1) t).map fun r => ⟨⟨false, r.value⟩, r.warnings, r.length⟩

end VbaWorkbench.Pattern
