import VbaWorkbench.Snippet.Fragment

namespace VbaWorkbench.Snippet

/-- A named piece of source with markers in it. -/
structure Template where
  id : Text
  version : Text
  description : Text
  placeholders : List Placeholder
  body : Text
deriving DecidableEq, Repr

/-- Why a template cannot be used. -/
inductive TemplateFlaw where
  | declaredTwice (name : Text)
  | noChoices (name : Text)
  | minAboveMax (name : Text)
  | badDefault (name : Text) (constraint : Constraint)
  | nesting (flaw : NestingFlaw)
  | unknownMarker (name : Text)
  | unknownFlag (flag : Text)
  | notBoolean (flag : Text)
deriving DecidableEq, Repr

def TemplateFlaw.message : TemplateFlaw → String
  | declaredTwice name => "placeholder `" ++ String.ofList name ++ "` is declared twice"
  | noChoices name => "enumChoice placeholder `" ++ String.ofList name ++ "` has no choices"
  | minAboveMax name => "placeholder `" ++ String.ofList name ++ "` has min above max"
  | badDefault name constraint =>
    "default of `" ++ String.ofList name ++ "` is not " ++ constraint.message
  | nesting flaw => flaw.message
  | unknownMarker name => "marker `" ++ String.ofList name ++ "` has no placeholder"
  | unknownFlag flag => "conditional `" ++ String.ofList flag ++ "` has no placeholder"
  | notBoolean flag => "conditional on non-boolean placeholder `" ++ String.ofList flag ++ "`"

namespace Placeholder

/-- What is wrong with a placeholder by itself. -/
def flaw? (p : Placeholder) : Option TemplateFlaw :=
  if p.kind = .enumChoice ∧ p.choices = [] then some (.noChoices p.name)
  else if p.min.any fun min => p.max.any (· < min) then some (.minAboveMax p.name)
  else
    match p.default.map p.resolve with
    | some (.error constraint) => some (.badDefault p.name constraint)
    | _ => none

/-- The first flaw of a list of placeholders after those named in `seen`. -/
def firstFlaw? (seen : List Text) : List Placeholder → Option TemplateFlaw
  | [] => none
  | p :: ps =>
    if p.name ∈ seen then some (.declaredTwice p.name)
    else p.flaw?.or (firstFlaw? (p.name :: seen) ps)

end Placeholder

namespace Template

def placeholder? (t : Template) (name : Text) : Option Placeholder :=
  t.placeholders.find? (·.name == name)

end Template

namespace Fragment

mutual
/-- The first marker that names no placeholder of the right kind. -/
def flaw? (t : Template) : Fragment → Option TemplateFlaw
  | text _ => none
  | value name => if (t.placeholder? name).isSome then none else some (.unknownMarker name)
  | conditional flag _ chosen other =>
    match t.placeholder? flag with
    | none => some (.unknownFlag flag)
    | some p =>
      if p.kind = .boolean then (firstFlaw? t chosen).or (firstFlaw? t other)
      else some (.notBoolean flag)

def firstFlaw? (t : Template) : List Fragment → Option TemplateFlaw
  | [] => none
  | f :: fs => (f.flaw? t).or (firstFlaw? t fs)
end

end Fragment

namespace Template

/-- The fragments of a template in which everything fits together. -/
def prepare (t : Template) : Except TemplateFlaw (List Fragment) :=
  match Placeholder.firstFlaw? [] t.placeholders with
  | some flaw => .error flaw
  | none =>
    match fragments t.body with
    | .error flaw => .error (.nesting flaw)
    | .ok fs =>
      match Fragment.firstFlaw? t fs with
      | some flaw => .error flaw
      | none => .ok fs

end Template
end VbaWorkbench.Snippet
