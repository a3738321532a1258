import VbaWorkbench.Name.Declaration
import VbaWorkbench.Name.Words
import VbaWorkbench.Token.Keyword

namespace VbaWorkbench

/-- How declared names are spelled. -/
inductive NameStyle where
  | preserve
  | camel
  | pascal
  | hungarian
deriving DecidableEq, Repr

/-- The spelling of a declared name in a style. Only variables carry a type tag. -/
def Declaration.styled? (style : NameStyle) (d : Declaration) : Option Text :=
  let words := Name.words d.name
  if words.isEmpty then none
  else
    match style, d.role with
    | .preserve, _ => none
    | .camel, _ => some (Name.camel words)
    | .pascal, _ => some (Name.pascal words)
    | .hungarian, .variable => some (Name.hungarian (d.tag.getD "var".toList) words)
    | .hungarian, _ => some (Name.pascal words)

/-- A new spelling for the name whose lower-case form is `key`. -/
structure Rename where
  key : Text
  target : Text
deriving DecidableEq, Repr

namespace Rename

def targetKey (r : Rename) : Text :=
  Text.lowercase r.target

/-- The rename that a declaration asks for by itself. Event handlers keep their names, members only
change case, and a name declared with two types gets no tag. -/
def proposed? (style : NameStyle) (d : Declaration) : Option Rename :=
  if d.role = .procedure ∧ '_' ∈ d.name then none
  else if d.conflicting ∧ style = .hungarian then none
  else
    match d.styled? style with
    | none => none
    | some target =>
      if target = d.name ∨ Keyword.isKeyword target then none
      else if d.role = .member ∧ Text.lowercase target ≠ d.key then none
      else some ⟨d.key, target⟩

/-- No other name is declared with this spelling and no other rename leads to it. -/
def isFree (declarations : List Declaration) (proposals : List Rename) (r : Rename) : Bool :=
  (proposals.filter (·.targetKey == r.targetKey)).length ≤ 1 &&
    (r.targetKey == r.key || !declarations.any (·.key == r.targetKey))

end Rename

/-- The new spellings of declared names. -/
structure RenamePlan where
  renames : List Rename
deriving DecidableEq, Repr

namespace RenamePlan

def ofDeclarations (style : NameStyle) (declarations : List Declaration) : RenamePlan :=
  let proposals := declarations.filterMap (Rename.proposed? style)
  ⟨proposals.filter (Rename.isFree declarations proposals)⟩

def ofLines (style : NameStyle) (lines : List Line) : RenamePlan :=
  match style with
  | .preserve => ⟨[]⟩
  | _ => ofDeclarations style (Declaration.ofMentions (Mention.ofLines lines))

def isEmpty (plan : RenamePlan) : Bool :=
  plan.renames.isEmpty

/-- The new spelling of an occurrence, which keeps its type suffix. -/
def renamed? (plan : RenamePlan) (name : Text) : Option Text :=
  let base := TypeSuffix.strip name
  (plan.renames.find? (·.key == Text.lowercase base)).map
    fun r => r.target ++ name.drop base.length

end RenamePlan
end VbaWorkbench
