import VbaWorkbench.Pattern.Basic
import VbaWorkbench.Settings.Option
import VbaWorkbench.Toml.Reader

namespace VbaWorkbench

/-- What the settings decide. -/
structure Settings where
  layout : LayoutOptions
  /-- The instructions that one search may take. -/
  stepLimit : Nat
deriving DecidableEq, Repr

/-- Why layers make no settings. -/
inductive SettingsError where
  | missingFile
  | unreadable
  | badKey (key : Text)
  | noSection (name : String)
  | badOption (name : String)
deriving DecidableEq, Repr

namespace Settings

open Toml (Value)

/-- The options of a search under the settings. -/
def matchOptions (s : Settings) : Pattern.MatchOptions :=
  { Pattern.MatchOptions.default with stepLimit := s.stepLimit }

/-- A source of settings. -/
inductive Layer where
  /-- A text with settings. -/
  | document (text : Text)
  /-- A file, by its content if there is such a file. -/
  | file (content : Option Text) (required : Bool)
  /-- One value, which goes before those of all texts and files. -/
  | override (key : Text) (value : Value)
deriving Repr

/-- What holds where no layer says otherwise. -/
def defaults : Value :=
  let d := LayoutOptions.default
  let entry (name : String) (v : Value) : Text × Value := (name.toList, v)
  let name (n : String) : Value := .text n.toList
  .table [
    entry "formatter" (.table [
      entry "indent_unit" (.text d.indentUnit),
      entry "identifier_case" (name (nameOf nameStyles d.nameStyle)),
      entry "keyword_case" (name (nameOf keywordStyles d.keywordStyle)),
      entry "line_continuation_style" (name (nameOf continuationStyles d.continuationStyle)),
      entry "max_line_width" (.integer d.maxLineWidth),
      entry "max_blank_lines" (.integer d.maxBlankLines)]),
    entry "evaluator" (.table [
      entry "step_limit" (.integer Pattern.MatchOptions.default.stepLimit)])]

/-- Lays the texts and files over a table, in order. -/
def mergeFiles (v : Value) : List Layer → Except SettingsError Value
  | [] => .ok v
  | .override _ _ :: rest => mergeFiles v rest
  | .file none true :: _ => .error .missingFile
  | .file none false :: rest => mergeFiles v rest
  | .document text :: rest | .file (some text) _ :: rest =>
    match Toml.read? text with
    | none => .error .unreadable
    | some entries => mergeFiles (mergeDocument v entries) rest

/-- Lays the single values over a table, in order. -/
def mergeOverrides (v : Value) : List Layer → Except SettingsError Value
  | [] => .ok v
  | .override key value :: rest =>
    match keyPath? key with
    | none => .error (.badKey key)
    | some path => mergeOverrides (mergeAt value path v) rest
  | _ :: rest => mergeOverrides v rest

/-- A section has to be there. It is a table of its options, or a list of them in order. -/
def section? (v : Value) (name : String) : Except SettingsError Value :=
  match find? v name with
  | some (.table entries) => .ok (.table entries)
  | some (.list items) => .ok (.list items)
  | _ => .error (.noSection name)

/-- What a section says about an option. -/
def written? (part : Value) (place : Nat) (name : String) : Option Value :=
  match part with
  | .list items => items[place]?
  | v => find? v name

/-- The value of an option, or what holds without it. -/
def optionD {α : Type} (read : Value → Option α) (part : Value) (place : Nat) (name : String)
    (default : α) : Except SettingsError α :=
  match written? part place name with
  | none => .ok default
  | some v =>
    match read v with
    | some a => .ok a
    | none => .error (.badOption name)

def layoutOf (part : Value) : Except SettingsError LayoutOptions := do
  let d := LayoutOptions.default
  return {
    indentUnit := ← optionD text? part 0 "indent_unit" d.indentUnit
    nameStyle := ← optionD (choice? nameStyles) part 1 "identifier_case" d.nameStyle
    keywordStyle := ← optionD (choice? keywordStyles) part 2 "keyword_case" d.keywordStyle
    continuationStyle :=
      ← optionD (choice? continuationStyles) part 3 "line_continuation_style" d.continuationStyle
    maxLineWidth := ← optionD number? part 4 "max_line_width" d.maxLineWidth
    maxBlankLines := ← optionD number? part 5 "max_blank_lines" d.maxBlankLines }

/-- The step limit, which has to be there. -/
def stepLimitOf (part : Value) : Except SettingsError Nat :=
  match (written? part 0 "step_limit").bind number? with
  | some n => .ok n
  | none => .error (.badOption "step_limit")

def ofTable (v : Value) : Except SettingsError Settings := do
  let layout ← layoutOf (← section? v "formatter")
  let stepLimit ← stepLimitOf (← section? v "evaluator")
  return ⟨layout, stepLimit⟩

/-- The settings that the layers make, the later ones over the earlier ones. -/
def ofLayers (layers : List Layer) : Except SettingsError Settings := do
  ofTable (← mergeOverrides (← mergeFiles defaults layers) layers)

end Settings
end VbaWorkbench
