import VbaWorkbench.Block.Basic
import VbaWorkbench.Line.Basic

namespace VbaWorkbench.Statement

/-- The block that a declaration opens, whatever modifiers stand before it. -/
def declares? (lead : Token) (rest : List Token) : Option BlockKind :=
  let next (p : Token → Bool) : Bool := rest.head?.any p
  if lead.isKeyword "sub" then some .sub
  else if lead.isKeyword "function" then some .function
  else if lead.isKeyword "property" then
    if next fun t => ["get", "let", "set"].any (t.isKeyword ·) then some .property else none
  else if lead.isKeyword "type" && next (·.kind == .identifier) then some .type
  else if lead.isKeyword "enum" && next (·.kind == .identifier) then some .enum
  else none

/-- The blocks that are opened by their first word alone. -/
def loops : List (String × BlockKind) :=
  [("for", .forLoop), ("do", .doLoop), ("while", .whileLoop), ("with", .withObject)]

/-- The blocks that `End` and a second word close. -/
def endTargets : List (String × BlockKind) :=
  [("if", .ifThen), ("select", .selectCase), ("with", .withObject), ("sub", .sub),
    ("function", .function), ("property", .property), ("type", .type), ("enum", .enum)]

def named? (table : List (String × BlockKind)) (t : Token) : Option BlockKind :=
  (table.find? fun entry => t.isKeyword entry.1).map (·.2)

def twoWords (first second : Token) : Text :=
  first.text ++ ' ' :: second.text

/-- An `If` is a block when `Then` is its last word and no code follows on its line. -/
def ofIf (first : Token) (rest : List Token) (codeFollows : Bool) : Statement :=
  match rest.findIdx? (·.isKeyword "then") with
  | none => ⟨.plain, [], first.start⟩
  | some i =>
    if i + 1 = rest.length ∧ codeFollows = false then ⟨.opener .ifThen, first.text, first.start⟩
    else ⟨.singleLineIf, [], first.start⟩

/-- A statement that begins with the keyword `first` and declares nothing. -/
def ofKeyword (first : Token) (rest : List Token) (codeFollows : Bool) : Statement :=
  let plain : Statement := ⟨.plain, [], first.start⟩
  let one (role : Role) : Statement := ⟨role, first.text, first.start⟩
  if first.isKeyword "if" then ofIf first rest codeFollows
  else if first.isKeyword "elseif" || first.isKeyword "else" then one (.clause .ifThen)
  else if first.isKeyword "case" then one (.clause .selectCase)
  else if first.isKeyword "select" then
    match rest.head?.filter (·.isKeyword "case") with
    | some second => ⟨.opener .selectCase, twoWords first second, first.start⟩
    | none => plain
  else if first.isKeyword "next" then
    one (.closer .forLoop ((rest.filter (·.isPunctuation ',')).length + 1))
  else if first.isKeyword "loop" then one (.closer .doLoop 1)
  else if first.isKeyword "wend" then one (.closer .whileLoop 1)
  else if first.isKeyword "end" then
    match rest with
    | [] => plain
    | second :: _ =>
      match named? endTargets second with
      | some kind => ⟨.closer kind 1, twoWords first second, first.start⟩
      | none => plain
  else
    match named? loops first with
    | some kind => one (.opener kind)
    | none => plain

/-- Classifies a statement by its leading keywords. `codeFollows` says whether a later statement of
the same line has code. -/
def ofTokens (tokens : List Token) (codeFollows : Bool) : Statement :=
  match withoutLineNumber (significant tokens) with
  | [] => ⟨.plain, [], 0⟩
  | first :: rest =>
    let plain : Statement := ⟨.plain, [], first.start⟩
    match (first :: rest).dropWhile Token.isModifier with
    | [] => plain
    | lead :: following =>
      match declares? lead following with
      | some kind => ⟨.opener kind, lead.text, lead.start⟩
      | none =>
        if first.isModifier || first.kind ≠ .keyword then plain
        else ofKeyword first rest codeFollows

end VbaWorkbench.Statement
