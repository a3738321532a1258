import VbaWorkbench.Pattern.ClassReading
import VbaWorkbench.Pattern.Tree

namespace VbaWorkbench.Pattern

/-- What a parenthesis can open. -/
inductive GroupKind where
  | capturing
  | nonCapturing
  | lookahead (negated : Bool)
deriving DecidableEq, Repr

/-- The lexical units of a pattern. -/
inductive Symbol where
  | atom (node : Node)
  /-- A backslash and digits: a back reference if there are so many groups. -/
  | number (digits : Text)
  | opening (kind : GroupKind)
  | closing
  | bar
  | quantifier (min : Nat) (max : Option Nat) (greedy : Bool)
deriving Repr

/-- How a group begins. -/
inductive GroupHead where
  | opens (kind : GroupKind)
  | foreign (construct : ForeignConstruct)
deriving DecidableEq, Repr

/-- What follows an opening parenthesis, and `none` if it is no group. -/
def groupHead? : Text → Option GroupHead
  | '?' :: ':' :: _ => some (.opens .nonCapturing)
  | '?' :: '=' :: _ => some (.opens (.lookahead false))
  | '?' :: '!' :: _ => some (.opens (.lookahead true))
  | '?' :: '<' :: '=' :: _ | '?' :: '<' :: '!' :: _ => some (.foreign .lookbehind)
  | '?' :: '<' :: _ | '?' :: 'P' :: '<' :: _ => some (.foreign .namedGroup)
  | '?' :: '>' :: _ => some (.foreign .atomicGroup)
  | '?' :: c :: _ => if c.isAlpha || c == '-' then some (.foreign .inlineModifier) else none
  | ['?'] => none
  | _ => some (.opens .capturing)

/-- The characters after the parenthesis that say what kind of group it opens. -/
def GroupKind.width : GroupKind → Nat
  | capturing => 0
  | nonCapturing | lookahead _ => 2

/-- The largest count in a quantifier. -/
def maxCount : Nat := 1000

/-- How often a quantifier lets its atom match. -/
structure Bounds where
  min : Nat
  max : Option Nat
deriving DecidableEq, Repr

/-- A count written in digits. -/
def count (offset : Nat) (digits : Text) : Except Malformed Nat :=
  let n := Text.digitsValue 10 digits
  if n ≤ maxCount then .ok n else .error ⟨offset, .countTooLarge⟩

/-- The bounds between braces, and `none` if the brace at `offset` begins no quantifier. -/
def braceBounds? (offset : Nat) (rest : Text) : Except Malformed (Option (Reading Bounds)) :=
  let low := rest.takeWhile Char.isDigit
  let after := rest.drop low.length
  let (high, length) : Option Text × Nat :=
    match after with
    | ',' :: more =>
      let high := more.takeWhile Char.isDigit
      (if high.isEmpty then none else some high, low.length + 1 + high.length)
    | _ => (some low, low.length)
  if low.isEmpty ∨ (rest.drop length).head? ≠ some '}' then .ok none
  else do
    let min ← count offset low
    match high with
    | none => .ok (some ⟨⟨min, none⟩, [], length + 1⟩)
    | some high =>
      let max ← count offset high
      if max < min then .error ⟨offset, .countsOutOfOrder⟩
      else .ok (some ⟨⟨min, some max⟩, [], length + 1⟩)

/-- The quantifier with these bounds, of which `length` characters are read, and the mark after it.
A second plus would make it possessive in other dialects. -/
def marked (offset : Nat) (bounds : Bounds) (length : Nat) (rest : Text) : Reading Symbol :=
  match rest with
  | '?' :: _ => ⟨.quantifier bounds.min bounds.max false, [], length + 1⟩
  | '+' :: _ =>
    ⟨.quantifier bounds.min bounds.max true, [⟨.possessiveQuantifier, offset + length⟩], length + 1⟩
  | _ => ⟨.quantifier bounds.min bounds.max true, [], length⟩

/-- Reads an escape after its backslash at `offset`. -/
def readEscape (offset : Nat) : Text → Except Malformed (Reading Symbol)
  | [] => .error ⟨offset, .trailingBackslash⟩
  | c :: rest =>
    let atom (node : Node) (n : Nat) : Except Malformed (Reading Symbol) :=
      .ok ⟨.atom node, [], n + 2⟩
    let dropped (r : Reading Unit) : Reading Symbol := ⟨.atom .empty, r.warnings, r.length⟩
    match classEscape? c with
    | some item => atom (.charClass (.single item)) 0
    | none =>
      if c = 'b' then atom (.wordBoundary false) 0
      else if c = 'B' then atom (.wordBoundary true) 0
      else if c ∈ ['A', 'Z', 'z', 'G'] then .ok (dropped ⟨(), [⟨.absoluteAnchor, offset⟩], 2⟩)
      else if isPropertyEscape c rest then (readProperty offset rest).map dropped
      else if c = 'k' ∧ rest.head? = some '<' then
        match through? '>' rest with
        | some n => .ok (dropped ⟨(), [⟨.namedBackreference, offset⟩], n + 2⟩)
        | none => .error ⟨offset, .missing '>'⟩
      else if '1' ≤ c ∧ c ≤ '9' then
        let digits := c :: rest.takeWhile Char.isDigit
        .ok ⟨.number digits, [], digits.length + 1⟩
      else
        let (d, n) := if c = '0' then octal c rest else charEscape c rest
        atom (.char d) n

/-- Reads the group whose parenthesis is at `offset`. -/
def readGroup (offset : Nat) (rest : Text) : Except Malformed (Reading Symbol) :=
  match groupHead? rest with
  | none => .error ⟨offset, .invalidGroup⟩
  | some (.opens kind) => .ok ⟨.opening kind, [], kind.width + 1⟩
  | some (.foreign construct) =>
    match groupReach? 0 rest with
    | some n => .ok ⟨.atom .empty, [⟨construct, offset⟩], n + 1⟩
    | none => .error ⟨offset, .missing ')'⟩

/-- Reads the symbol that begins with `c` at a byte offset. -/
def readSymbol (offset : Nat) (c : Char) (rest : Text) : Except Malformed (Reading Symbol) :=
  let one (s : Symbol) : Except Malformed (Reading Symbol) := .ok ⟨s, [], 1⟩
  match c with
  | '(' => readGroup offset rest
  | ')' => one .closing
  | '|' => one .bar
  | '[' => (readClass offset rest).map fun r => ⟨.atom (.charClass r.value), r.warnings, r.length + 1⟩
  | '\\' => readEscape offset rest
  | '.' => one (.atom .any)
  | '^' => one (.atom .lineStart)
  | '$' => one (.atom .lineEnd)
  | '*' => .ok (marked offset ⟨0, none⟩ 1 rest)
  | '+' => .ok (marked offset ⟨1, none⟩ 1 rest)
  | '?' => .ok (marked offset ⟨0, some 1⟩ 1 rest)
  | '{' =>
    (braceBounds? offset rest).map fun
      | none => ⟨.atom (.char '{'), [], 1⟩
      | some r => marked offset r.value (r.length + 1) (rest.drop r.length)
  | c => one (.atom (.char c))

/-- A symbol at its byte offset, with the foreign constructs in it. -/
structure PlacedSymbol where
  symbol : Symbol
  offset : Nat
  warnings : List Warning
deriving Repr

/-- The symbols of a pattern up to the first one that cannot be read. -/
structure Symbols where
  symbols : List PlacedSymbol
  flaw : Option Malformed
deriving Repr

def readSymbols (offset : Nat) : Text → Symbols
  | [] => ⟨[], none⟩
  | c :: rest =>
    match readSymbol offset c rest with
    | .error e => ⟨[], some e⟩
    | .ok r =>
      let n := r.length - 1
      let more := readSymbols (offset + Text.byteLength (c :: rest.take n)) (rest.drop n)
      { more with symbols := ⟨r.value, offset, r.warnings⟩ :: more.symbols }
termination_by t => t.length
decreasing_by simp only [List.length_cons, List.length_drop]; omega

end VbaWorkbench.Pattern
