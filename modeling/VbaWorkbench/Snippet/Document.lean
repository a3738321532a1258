import VbaWorkbench.Snippet.Registry
import VbaWorkbench.Yaml.Alias
import VbaWorkbench.Yaml.Number
import VbaWorkbench.Yaml.Reader

namespace VbaWorkbench.Snippet

namespace Document

open Yaml (Extracting follow)

/-- Any scalar is taken as the text that it is written with. Like the other readers this one fails
for content of the wrong kind. -/
def readText (v : Yaml.Value) : Extracting Text := do
  match ← follow v with
  | .scalar t _ _ => return t
  | _ => failure

def readItems {α : Type} (read : Yaml.Value → Extracting α) (v : Yaml.Value) :
    Extracting (List α) := do
  match ← follow v with
  | .sequence items => items.mapM read
  | .scalar [] .plain _ => return []
  | _ => failure

/-- The named entries of a mapping. A name may be written twice only if it is not one of `known`. -/
def readEntries (known : List String) (v : Yaml.Value) :
    Extracting (List (Text × Yaml.Value)) := do
  let pairs ←
    match ← follow v with
    | .mapping pairs => pure pairs
    | .scalar [] .plain _ => pure []
    | _ => failure
  let entries ← pairs.mapM fun (key, value) => do return (← readText key, value)
  let used := (entries.map (·.1)).filter fun name => known.any (·.toList == name)
  if used.eraseDups.length = used.length then return entries else failure

/-- The value of an optional entry. -/
def optional {α : Type} (read : Yaml.Value → Extracting α) (default : α)
    (entries : List (Text × Yaml.Value)) (name : String) : Extracting α :=
  match entries.lookup name.toList with
  | none => return default
  | some v => read v

def required {α : Type} (read : Yaml.Value → Extracting α)
    (entries : List (Text × Yaml.Value)) (name : String) : Extracting α :=
  match entries.lookup name.toList with
  | none => failure
  | some v => read v

/-- Something is written, and not null. A plain scalar with the tag of null must be null. -/
def isPresent? : Yaml.Value → Option Bool
  | .scalar t .plain (some tag) =>
    if tag ≠ Yaml.coreTag "null" then some true
    else if Yaml.isNullText t then some false
    else none
  | .scalar t .plain none => some !(t.isEmpty || Yaml.isNullText t)
  | _ => some true

/-- Reads what may be null. -/
def readPresent {α : Type} (meaning? : Yaml.Value → Option α) (v : Yaml.Value) :
    Extracting (Option α) := do
  let v ← follow v
  match isPresent? v, meaning? v with
  | some false, _ => return none
  | some true, some a => return some a
  | _, _ => failure

/-- A whole number of 64 bits. It is plain, or literal with the tag of whole numbers. -/
def wholeNumber? : Yaml.Value → Option Int
  | .scalar t style tag =>
    if style = .plain ∨ (style = .literal ∧ tag = some (Yaml.coreTag "int")) then
      (Yaml.integer? t).filter isInteger
    else none
  | _ => none

/-- What a plain scalar means where truth values, whole numbers and texts may stand. Null and numbers
that are no whole ones of 64 bits are none of these. -/
def plainValue? (t : Text) : Option Value :=
  if t.isEmpty || Yaml.isNullText t then none
  else
    match Yaml.boolean? t, Yaml.wideInteger? t with
    | some b, _ => some (.boolean b)
    | none, some n => if isInteger n then some (.integer n) else none
    | none, none => if Yaml.isFloat t then none else some (.text t)

/-- The meaning of a scalar by its tag. Tags that only this document knows mean nothing, if their names
are texts; if not, they leave plain scalars as they are. Other tags mean texts. -/
def taggedValue? (t : Text) (style : Yaml.Style) (tag : Yaml.TagName) : Option Value :=
  if tag = Yaml.coreTag "bool" then (Yaml.boolean? t).map .boolean
  else if tag = Yaml.coreTag "int" then ((Yaml.wideInteger? t).filter isInteger).map .integer
  else if tag = Yaml.coreTag "float" ∨ tag = Yaml.coreTag "null" then none
  else if tag.localText?.isSome then none
  else if tag.head? = some '!'.toUInt8 ∧ style = .plain then plainValue? t
  else some (.text t)

/-- A default is a truth value, a whole number or a text. -/
def default? : Yaml.Value → Option Value
  | .scalar t style (some tag) => taggedValue? t style tag
  | .scalar t .plain none => plainValue? t
  | .scalar t _ none => some (.text t)
  | _ => none

def kinds : List (String × PlaceholderKind) :=
  [("string", .string), ("identifier", .identifier), ("integer", .integer),
    ("enumChoice", .enumChoice), ("boolean", .boolean)]

def kindNamed? (t : Text) : Option PlaceholderKind :=
  (kinds.find? (·.1.toList == t)).map (·.2)

/-- A kind is written as its name, or as a tag beside which nothing stands. -/
def kind? : Yaml.Value → Option PlaceholderKind
  | .scalar t style tag =>
    match tag.bind Yaml.TagName.localText? with
    | some name =>
      if style = .plain ∧ (t.isEmpty ∨ Yaml.isNullText t) then kindNamed? name else none
    | none => kindNamed? t
  | _ => none

def readKind (v : Yaml.Value) : Extracting PlaceholderKind := do
  match kind? (← follow v) with
  | some kind => return kind
  | none => failure

def readPlaceholder (v : Yaml.Value) : Extracting Placeholder := do
  let entries ← readEntries ["name", "kind", "default", "choices", "min", "max"] v
  return {
    name := ← required readText entries "name"
    kind := ← required readKind entries "kind"
    default := ← optional (readPresent default?) none entries "default"
    choices := ← optional (readItems readText) [] entries "choices"
    min := ← optional (readPresent wholeNumber?) none entries "min"
    max := ← optional (readPresent wholeNumber?) none entries "max" }

def readTemplate (v : Yaml.Value) : Extracting Template := do
  let entries ← readEntries ["id", "version", "description", "placeholders", "body"] v
  return {
    id := ← required readText entries "id"
    version := ← required readText entries "version"
    description := ← optional readText [] entries "description"
    placeholders := ← optional (readItems readPlaceholder) [] entries "placeholders"
    body := ← required readText entries "body" }

/-- The templates that a text lists. -/
def templates? (text : Text) : Option (List Template) :=
  (Yaml.read? text).bind (Yaml.extract? (readItems readTemplate))

end Document

/-- The registry of the templates that a text lists. -/
def Registry.ofText (text : Text) : Except RegistryError Registry :=
  match Document.templates? text with
  | none => .error .unreadable
  | some templates => Registry.ofTemplates templates

end VbaWorkbench.Snippet
