import VbaWorkbench.Line.Basic
import VbaWorkbench.Name.TypeTag
import VbaWorkbench.Text.Lowercase

namespace VbaWorkbench

/-- What a name is declared as. -/
inductive NameRole where
  | variable
  | procedure
  | typeName
  /-- A field of a type or a member of an enumeration. -/
  | member
deriving DecidableEq, Repr

/-- One place where a name is declared. -/
structure Mention where
  name : Text
  role : NameRole
  tag : Option Text
deriving DecidableEq, Repr

namespace Mention

/-- The body of a type or enumeration, whose statements declare members. -/
inductive Body where
  | type
  | enum
deriving DecidableEq, Repr

def ofToken? (role : NameRole) (tag : Option Text) (t : Token) : Option Mention :=
  if t.kind = .identifier then some ⟨TypeSuffix.strip t.text, role, tag⟩ else none

/-- The name at the head of a declarator. -/
def ofDeclarator? (declarator : List Token) : Option Mention :=
  declarator.head?.bind (ofToken? .variable (TypeTag.ofDeclarator? declarator))

/-- The parts between commas that stand outside brackets. -/
def commaParts (depth : Nat) : List Token → List (List Token)
  | [] => [[]]
  | t :: rest =>
    if t.isPunctuation '(' then (commaParts (depth + 1) rest).modifyHead (t :: ·)
    else if t.isPunctuation ')' then (commaParts (depth - 1) rest).modifyHead (t :: ·)
    else if depth = 0 ∧ t.isPunctuation ',' then [] :: commaParts depth rest
    else (commaParts depth rest).modifyHead (t :: ·)

/-- The tokens before the bracket that closes an open one. -/
def enclosed? (depth : Nat) : List Token → Option (List Token)
  | [] => none
  | t :: rest =>
    if t.isPunctuation '(' then (enclosed? (depth + 1) rest).map (t :: ·)
    else if t.isPunctuation ')' then
      match depth with
      | 0 => some []
      | depth + 1 => (enclosed? depth rest).map (t :: ·)
    else (enclosed? depth rest).map (t :: ·)

/-- A list of variables, each with bounds and a type. -/
def ofDeclarators (words : List Token) : List Mention :=
  (commaParts 0 words).filterMap fun part =>
    ofDeclarator? (match part with
      | t :: rest => if t.isKeyword "withevents" then rest else part
      | [] => [])

def isParameterModifier (t : Token) : Bool :=
  ["optional", "byval", "byref", "paramarray"].any (t.isKeyword ·)

/-- A procedure's name and its parameters. -/
def ofProcedure (words : List Token) : List Mention :=
  match words.head?.bind (ofToken? .procedure none) with
  | none => []
  | some procedure =>
    match enclosed? 0 (words.dropWhile fun t => !t.isPunctuation '(').tail with
    | none => [procedure]
    | some inside =>
      procedure :: (commaParts 0 inside).filterMap fun part =>
        ofDeclarator? (part.dropWhile isParameterModifier)

/-- The names that a statement inside a body declares, and the body that goes on after it. -/
def ofMember (body : Body) (words : List Token) : List Mention × Option Body :=
  match words with
  | [] => ([], some body)
  | t :: _ =>
    if t.isKeyword "end" then ([], none)
    else
      let tag := match body with
        | .type => TypeTag.ofDeclarator? words
        | .enum => none
      ((ofToken? .member tag t).toList, some body)

/-- The names that a statement outside all bodies declares, and the body that it begins. -/
def ofDeclaration (words : List Token) : List Mention × Option Body :=
  match words.dropWhile Token.isModifier with
  | [] => ([], none)
  | lead :: rest =>
    if lead.isKeyword "dim" || lead.isKeyword "const" then (ofDeclarators rest, none)
    else if lead.isKeyword "redim" then
      (ofDeclarators (if rest.head?.any (·.isKeyword "preserve") then rest.tail else rest), none)
    else if lead.isKeyword "sub" || lead.isKeyword "function" then (ofProcedure rest, none)
    else if lead.isKeyword "property" then
      if rest.head?.any fun t => ["get", "let", "set"].any (t.isKeyword ·) then
        (ofProcedure rest.tail, none)
      else ([], none)
    else if lead.isKeyword "type" || lead.isKeyword "enum" then
      match rest.head?.bind (ofToken? .typeName none) with
      | some name => ([name], some (if lead.isKeyword "type" then .type else .enum))
      | none => ([], none)
    else if words.head?.any Token.isModifier &&
        (lead.kind == .identifier || lead.isKeyword "withevents") then
      (ofDeclarators (lead :: rest), none)
    else ([], none)

/-- The names that a statement declares. A statement without words leaves the body open. -/
def ofStatement (body : Option Body) (words : List Token) : List Mention × Option Body :=
  match words, body with
  | [], body => ([], body)
  | words, some body => ofMember body words
  | words, none => ofDeclaration words

/-- The declarations of a list of statements in order. -/
def ofStatements (body : Option Body) : List (List Token) → List Mention
  | [] => []
  | statement :: statements =>
    let (mentions, body) := ofStatement body (withoutLineNumber (significant statement))
    mentions ++ ofStatements body statements

def ofLines (lines : List Line) : List Mention :=
  ofStatements none (lines.flatMap Line.statements)

end Mention

/-- A declared name: the first spelling and role, and whether later mentions disagree. -/
structure Declaration where
  name : Text
  role : NameRole
  tag : Option Text
  conflicting : Bool
deriving DecidableEq, Repr

namespace Declaration

/-- Names are the same when their lower-case forms are. -/
def key (d : Declaration) : Text :=
  Text.lowercase d.name

/-- The declaration after one more mention of its name. -/
def merge (d : Declaration) (m : Mention) : Declaration where
  name := d.name
  role := d.role
  tag := d.tag.or m.tag
  conflicting :=
    d.conflicting || d.role ≠ m.role || (d.tag.isSome && m.tag.isSome && d.tag ≠ m.tag)

def record (m : Mention) : List Declaration → List Declaration
  | [] => [⟨m.name, m.role, m.tag, false⟩]
  | d :: ds => if d.key = Text.lowercase m.name then d.merge m :: ds else d :: record m ds

/-- The declared names, each once, in the order of their first mentions. -/
def ofMentions (mentions : List Mention) : List Declaration :=
  mentions.foldl (fun ds m => record m ds) []

end Declaration
end VbaWorkbench
