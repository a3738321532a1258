import VbaWorkbench.Snippet.Value
import VbaWorkbench.Token.Scan

namespace VbaWorkbench.Snippet

/-- What may stand in a placeholder. -/
inductive PlaceholderKind where
  | string
  | identifier
  | integer
  | enumChoice
  | boolean
deriving DecidableEq, Repr

structure Placeholder where
  name : Text
  kind : PlaceholderKind
  default : Option Value
  choices : List Text
  min : Option Int
  max : Option Int
deriving DecidableEq, Repr

/-- A value that suits its placeholder. -/
inductive Resolved where
  | text (t : Text)
  | flag (b : Bool)
deriving DecidableEq, Repr

def Resolved.render : Resolved → Text
  | text t => t
  | flag b => if b then "True".toList else "False".toList

/-- The rule that a value breaks. -/
inductive Constraint where
  | textValue
  | singleLine
  | identifier
  | wholeNumber (min max : Option Int)
  | oneOf (choices : List Text)
  | trueOrFalse
deriving DecidableEq, Repr

def Constraint.message : Constraint → String
  | textValue => "a text value"
  | singleLine => "a single-line string"
  | identifier => "a VBA identifier that is not a reserved keyword"
  | wholeNumber (some min) (some max) =>
    "a whole number between " ++ toString min ++ " and " ++ toString max
  | wholeNumber (some min) none => "a whole number of at least " ++ toString min
  | wholeNumber none (some max) => "a whole number of at most " ++ toString max
  | wholeNumber none none => "a whole number"
  | oneOf choices => "one of: " ++ String.ofList (Text.joined ", ".toList choices)
  | trueOrFalse => "true or false"

/-- The text inside a string literal that stands for `t`. -/
def doubleQuotes (t : Text) : Text :=
  t.flatMap fun c => if c = '"' then ['"', '"'] else [c]

namespace Placeholder

def inRange (p : Placeholder) (n : Int) : Bool :=
  p.min.all (· ≤ n) && p.max.all (n ≤ ·)

def resolveString : Value → Except Constraint Resolved
  | .boolean _ => .error .textValue
  | value =>
    if value.display.any Text.isLineBreak then .error .singleLine
    else .ok (.text (doubleQuotes value.display))

def resolveIdentifier : Value → Except Constraint Resolved
  | .text t =>
    if isIdentifier t && !Keyword.isKeyword t then .ok (.text t) else .error .identifier
  | _ => .error .identifier

def resolveInteger (p : Placeholder) (value : Value) : Except Constraint Resolved :=
  let number : Option Int :=
    match value with
    | .integer n => some n
    | .text t => integer? t
    | .boolean _ => none
  match number.filter p.inRange with
  | some n => .ok (.text (Text.ofInt n))
  | none => .error (.wholeNumber p.min p.max)

/-- A choice is taken in its own spelling, whatever the case of the value. -/
def resolveChoice (p : Placeholder) (value : Value) : Except Constraint Resolved :=
  let chosen : Option Text :=
    match value with
    | .text t => p.choices.find? (Text.sameAscii · t)
    | _ => none
  match chosen with
  | some choice => .ok (.text choice)
  | none => .error (.oneOf p.choices)

def resolveBoolean : Value → Except Constraint Resolved
  | .boolean b => .ok (.flag b)
  | .text t =>
    if Text.sameAscii t "true".toList then .ok (.flag true)
    else if Text.sameAscii t "false".toList then .ok (.flag false)
    else .error .trueOrFalse
  | .integer _ => .error .trueOrFalse

/-- The value as it will be written, or the rule that it breaks. -/
def resolve (p : Placeholder) (value : Value) : Except Constraint Resolved :=
  match p.kind with
  | .string => resolveString value
  | .identifier => resolveIdentifier value
  | .integer => p.resolveInteger value
  | .enumChoice => p.resolveChoice value
  | .boolean => resolveBoolean value

end Placeholder
end VbaWorkbench.Snippet
