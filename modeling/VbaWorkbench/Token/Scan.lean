import VbaWorkbench.Character.Alphabetic
import VbaWorkbench.Token.Basic
import VbaWorkbench.Token.Keyword
import VbaWorkbench.Token.Shape

namespace VbaWorkbench

/-- What the lexemes already read say about the next one. -/
structure ScanState where
  /-- No statement has begun since the last line break or separator. -/
  statementStart : Bool
  /-- The last lexeme is whitespace. -/
  afterBlank : Bool
deriving DecidableEq, Repr

def ScanState.initial : ScanState := ⟨true, false⟩

namespace Lexeme

/-- A word as a name or keyword. A bang before a letter is the member operator and not a type
suffix. -/
def ofWord (word next : Text) : List Lexeme :=
  if word.getLast? = some '!' ∧ next.head?.any Character.isAlphabetic then
    let base := word.dropLast
    [⟨if Keyword.isKeyword base then .keyword else .identifier, base⟩, ⟨.punctuation, ['!']⟩]
  else
    [⟨if (TypeSuffix.of? word).isNone && Keyword.isKeyword word then .keyword else .identifier,
      word⟩]

/-- The lexemes of a piece of text by its shape. An underscore at the end of a line continues the
line only after whitespace. -/
def ofShape (state : ScanState) (shape : Shape) (text next : Text) : List Lexeme :=
  match shape with
  | .whitespace => [⟨.whitespace, text⟩]
  | .newline => [⟨.newline, text⟩]
  | .brokenUnderscore =>
    if state.afterBlank then [⟨.lineContinuation, text⟩]
    else [⟨.punctuation, text.take 1⟩, ⟨.newline, text.drop 1⟩]
  | .comment => [⟨.comment, text⟩]
  | .quoted => [⟨.stringLiteral, text⟩]
  | .word => ofWord text next
  | .number => [⟨.numericLiteral, text⟩]
  | .separator => [⟨.statementSeparator, text⟩]
  | .operator => [⟨.operator, text⟩]
  | .other => [⟨.punctuation, text⟩]

end Lexeme

/-- Line breaks and separators begin a statement; blanks, comments and continuations leave the
beginning open. -/
def ScanState.after (state : ScanState) (shape : Shape) : ScanState :=
  match shape with
  | .whitespace => ⟨state.statementStart, true⟩
  | .newline | .separator => ⟨true, false⟩
  | .brokenUnderscore => ⟨state.statementStart || !state.afterBlank, false⟩
  | .comment => ⟨state.statementStart, false⟩
  | .quoted | .word | .number | .operator | .other => ⟨false, false⟩

/-- A remark runs to the end of its line when `Rem` begins the statement. -/
def beginsRemark (state : ScanState) (shape : Shape) (text : Text) : Bool :=
  shape == .word && state.statementStart && Text.sameAscii text "rem".toList

/-- The lexemes that begin with `c`, how many characters of `rest` they take, and what the next one
has to know. -/
def scanStep (state : ScanState) (c : Char) (rest : Text) : List Lexeme × Nat × ScanState :=
  let (shape, n) := Shape.read c rest
  let text := c :: rest.take n
  if beginsRemark state shape text then
    let n := Reach.many (fun d => !Text.isLineBreak d) rest
    ([⟨.comment, c :: rest.take n⟩], n, ⟨true, false⟩)
  else (Lexeme.ofShape state shape text (rest.drop n), n, state.after shape)

def scanFrom (state : ScanState) : Text → List Lexeme
  | [] => []
  | c :: rest =>
    let (lexemes, n, state') := scanStep state c rest
    lexemes ++ scanFrom state' (rest.drop n)
termination_by t => t.length
decreasing_by simp only [List.length_cons, List.length_drop]; omega

/-- The tokens of a source. They cover it without gaps, and the end marker comes last. -/
def tokenize (source : Text) : List Token :=
  Token.place 0 (scanFrom .initial source ++ [⟨.endOfInput, []⟩])

namespace Token

/-- A literal has an even number of quotes exactly when it is closed. -/
def isUnterminated (t : Token) : Bool :=
  t.kind == .stringLiteral && t.text.count '"' % 2 == 1

end Token

/-- The offsets of the string literals that end at the end of their line without a closing
quote. -/
def unterminatedStrings (tokens : List Token) : List Nat :=
  (tokens.filter Token.isUnterminated).map (·.start)

/-- One word, with or without a type suffix. Keywords are identifiers in this sense. -/
def isIdentifier (text : Text) : Bool :=
  match text with
  | [] => false
  | c :: rest => Shape.read c rest == (.word, rest.length)

end VbaWorkbench
