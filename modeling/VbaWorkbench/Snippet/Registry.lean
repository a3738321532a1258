import VbaWorkbench.Snippet.Template

namespace VbaWorkbench.Snippet

/-- A template whose body has been read. -/
structure Prepared where
  template : Template
  fragments : List Fragment
deriving Repr

/-- The templates that can be used, each under its own id. -/
structure Registry where
  prepared : List Prepared
deriving Repr

/-- Why templates make no registry. -/
inductive RegistryError where
  | unreadable
  | invalid (id : Text) (flaw : TemplateFlaw)
  | duplicateId (id : Text)
deriving DecidableEq, Repr

/-- Why no text is generated. -/
inductive GenerationError where
  | unknownTemplate (id : Text)
  | missing (placeholder : Text)
  | invalidValue (placeholder : Text) (constraint : Constraint)
deriving DecidableEq, Repr

def RegistryError.message : RegistryError → String
  | unreadable => "template registry is not valid YAML"
  | invalid id flaw => "template `" ++ String.ofList id ++ "` is invalid: " ++ flaw.message
  | duplicateId id => "template id `" ++ String.ofList id ++ "` is used twice"

def GenerationError.message : GenerationError → String
  | unknownTemplate id => "unknown template `" ++ String.ofList id ++ "`"
  | missing placeholder => "missing value for placeholder `" ++ String.ofList placeholder ++ "`"
  | invalidValue placeholder constraint =>
    "invalid value for placeholder `" ++ String.ofList placeholder ++ "`: expected " ++
      constraint.message

/-- The values that a caller gives, by the names of the placeholders. -/
abbrev Parameters := List (Text × Value)

/-- The value of every placeholder: the caller's, or else its default. The first one that is missing
or does not suit is reported. -/
def resolveAll (parameters : Parameters) :
    List Placeholder → Except GenerationError Fragment.Values
  | [] => .ok []
  | p :: ps =>
    match (parameters.lookup p.name).or p.default with
    | none => .error (.missing p.name)
    | some value =>
      match p.resolve value with
      | .error constraint => .error (.invalidValue p.name constraint)
      | .ok r => (resolveAll parameters ps).map ((p.name, r) :: ·)

namespace Registry

/-- Prepares templates in order; none may use an id in `seen`. -/
def prepareAll (seen : List Text) : List Template → Except RegistryError (List Prepared)
  | [] => .ok []
  | t :: ts =>
    if t.id ∈ seen then .error (.duplicateId t.id)
    else
      match t.prepare with
      | .error flaw => .error (.invalid t.id flaw)
      | .ok fs => (prepareAll (t.id :: seen) ts).map (⟨t, fs⟩ :: ·)

def ofTemplates (templates : List Template) : Except RegistryError Registry :=
  (prepareAll [] templates).map Registry.mk

def templates (r : Registry) : List Template :=
  r.prepared.map (·.template)

def find? (r : Registry) (id : Text) : Option Prepared :=
  r.prepared.find? (·.template.id == id)

/-- The text of a template with the caller's values in it. -/
def generate (r : Registry) (id : Text) (parameters : Parameters) :
    Except GenerationError Text :=
  match r.find? id with
  | none => .error (.unknownTemplate id)
  | some p =>
    (resolveAll parameters p.template.placeholders).map fun values =>
      Fragment.renderAll values p.fragments

end Registry
end VbaWorkbench.Snippet
