import VbaWorkbench.Layout.Options
import VbaWorkbench.Line.Basic

namespace VbaWorkbench

def KeywordStyle.apply (style : KeywordStyle) (word : Text) : Text :=
  match style with
  | .preserve => word
  | .upper => Text.upperAscii word
  | .lower => Text.lowerAscii word
  | .title => (Keyword.canonical? word).getD word

namespace Layout

/-- The new text of a token. Names and keywords after a dot or bang are members of something and
keep their spelling. -/
def respell (options : LayoutOptions) (plan : RenamePlan) (member : Bool) (t : Token) : Token :=
  match t.kind, member with
  | .keyword, false => { t with text := options.keywordStyle.apply t.text }
  | .identifier, false => { t with text := (plan.renamed? t.text).getD t.text }
  | _, _ => t

def respellAll (options : LayoutOptions) (plan : RenamePlan) (member : Bool) :
    List Token → List Token
  | [] => []
  | t :: rest =>
    let member' :=
      if t.kind = .whitespace ∨ t.kind = .lineContinuation then member
      else t.isPunctuation '.' || t.isPunctuation '!'
    respell options plan member t :: respellAll options plan member' rest

/-- The tokens of a segment without the whitespace at its edges. -/
def core (segment : List Token) : List Token :=
  let blank (t : Token) : Bool := t.kind == .whitespace
  ((segment.dropWhile blank).reverse.dropWhile blank).reverse

/-- The text of a segment without blanks at its edges. A comment may end with blanks of its
own. -/
def piece (segment : List Token) : Text :=
  let tokens := core segment
  let text := Token.sourceText tokens
  if tokens.getLast?.any (·.kind == .comment) then Text.trimRight Text.isBlank text else text

/-- The texts between the continuations of a line, without empty ones. -/
def pieces (options : LayoutOptions) (plan : RenamePlan) (line : Line) : List Text :=
  let respelled : Line := { line with tokens := respellAll options plan false line.tokens }
  (respelled.segments.map piece).filter (!·.isEmpty)

/-- Whitespace before a lone underscore would make it a continuation. -/
def indented (indent piece : Text) : Text :=
  if piece = ['_'] then piece else indent ++ piece

/-- A continued line joined into one, where the options ask for it and it is short enough. -/
def collapsed? (options : LayoutOptions) (indent : Text) (pieces : List Text) : Option Text :=
  let text := indent ++ Text.joined [' '] pieces
  if options.continuationStyle = .collapseWhenShort ∧ pieces.getLast? ≠ some ['_'] ∧
      text.length ≤ options.maxLineWidth then some text
  else none

/-- The pieces after the first one, each on a line of its own. -/
def continued (hanging newline : Text) (pieces : List Text) : Text :=
  pieces.flatMap fun p => " _".toList ++ newline ++ indented hanging p

/-- The text of a line at a depth, without the newline at its end. -/
def emit (options : LayoutOptions) (newline : Text) (depth : Nat) (pieces : List Text) : Text :=
  let indent := Text.repeated options.indentUnit depth
  match pieces with
  | [] => []
  | [p] => indented indent p
  | p :: rest =>
    (collapsed? options indent (p :: rest)).getD
      (indented indent p ++ continued (indent ++ options.indentUnit) newline rest)

end Layout
end VbaWorkbench
