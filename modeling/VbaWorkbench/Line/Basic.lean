import VbaWorkbench.Token.Basic

namespace VbaWorkbench

/-- One or more physical lines joined by continuations. -/
structure Line where
  tokens : List Token
  /-- The newline token that ends the line; the last line has none. -/
  newline : Option Token
deriving DecidableEq, Repr

namespace Line

/-- The line that begins with `t` and goes on with the first of `lines`. -/
def push (t : Token) : List Line → List Line
  | [] => [⟨[t], none⟩]
  | line :: lines => { line with tokens := t :: line.tokens } :: lines

/-- The lines of a token stream, without the end marker. -/
def ofTokens : List Token → List Line
  | [] => []
  | t :: ts =>
    match t.kind with
    | .newline => ⟨[], some t⟩ :: ofTokens ts
    | .endOfInput => ⟨[], none⟩ :: ofTokens ts
    | _ => push t (ofTokens ts)

def isBlank (line : Line) : Bool :=
  line.tokens.all (·.kind == .whitespace)

/-- The statements of the line, cut at its separators. -/
def statements (line : Line) : List (List Token) :=
  line.tokens.splitOnP (·.kind == .statementSeparator)

/-- The pieces of the line, cut at its continuations. -/
def segments (line : Line) : List (List Token) :=
  line.tokens.splitOnP (·.kind == .lineContinuation)

end Line

/-- Whitespace, continuations and comments say nothing about the statement they stand in. -/
def Token.isSignificant (t : Token) : Bool :=
  match t.kind with
  | .whitespace | .lineContinuation | .comment | .endOfInput => false
  | _ => true

/-- The tokens that make up the statement. -/
def significant (tokens : List Token) : List Token :=
  tokens.filter Token.isSignificant

/-- The words of a statement after its line number. -/
def withoutLineNumber : List Token → List Token
  | [] => []
  | t :: ts => if t.kind = .numericLiteral then ts else t :: ts

/-- The words that may stand before a declaration. -/
def Token.isModifier (t : Token) : Bool :=
  ["public", "private", "friend", "static", "global"].any (t.isKeyword ·)

end VbaWorkbench
