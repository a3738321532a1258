import VbaWorkbench.Text.Basic

namespace VbaWorkbench

inductive TokenKind where
  | keyword
  | identifier
  | stringLiteral
  | numericLiteral
  | operator
  | punctuation
  | comment
  | lineContinuation
  | statementSeparator
  | newline
  | whitespace
  | endOfInput
deriving DecidableEq, Repr

/-- Whitespace and the end marker carry no syntax. -/
def TokenKind.isTrivia : TokenKind → Bool
  | .whitespace | .endOfInput => true
  | _ => false

/-- A classified piece of source text, wherever it stands. -/
structure Lexeme where
  kind : TokenKind
  text : Text
deriving DecidableEq, Repr

/-- A lexeme at its byte offset in the source. -/
structure Token extends Lexeme where
  start : Nat
deriving DecidableEq, Repr

namespace Token

/-- The byte offset just after the token. -/
def stop (t : Token) : Nat :=
  t.start + Text.byteLength t.text

/-- The keyword `word`, in any ASCII case. -/
def isKeyword (word : String) (t : Token) : Bool :=
  t.kind == .keyword && Text.sameAscii t.text word.toList

def isPunctuation (c : Char) (t : Token) : Bool :=
  t.kind == .punctuation && t.text == [c]

/-- Lexemes at the offsets that they have when the first stands at `start`. -/
def place (start : Nat) : List Lexeme → List Token
  | [] => []
  | l :: ls => ⟨l, start⟩ :: place (start + Text.byteLength l.text) ls

/-- The source that the tokens were read from. -/
def sourceText (tokens : List Token) : Text :=
  tokens.flatMap (·.text)

end Token
end VbaWorkbench
