import VbaWorkbench.Pattern.Parse
import VbaWorkbench.Pattern.Replacement
import VbaWorkbench.Pattern.Search

namespace VbaWorkbench

/-- A pattern that is ready to be matched. -/
structure Pattern where
  program : Pattern.Program
  warnings : List Pattern.Warning

namespace Pattern

def compile (pattern : Text) : Except Malformed Pattern := do
  let parsed ← parse pattern
  let program ← Program.ofNode parsed.node parsed.groups
  return ⟨program, parsed.warnings⟩

structure MatchOptions where
  /-- All matches are wanted and not only the first one. -/
  global : Bool
  ignoreCase : Bool
  multiline : Bool
  stepLimit : Nat
deriving DecidableEq, Repr

def MatchOptions.default : MatchOptions :=
  ⟨false, false, false, 1000000⟩

def machine (p : Pattern) (subject : Text) (options : MatchOptions) : Machine :=
  ⟨p.program, subject.toArray, options.ignoreCase, options.multiline⟩

/-- The record of a match in `input`, whose characters stand at `offsets`. -/
def record (input : Array Char) (offsets : Array Nat) (f : Found) : MatchRecord :=
  let text (start stop : Nat) : Text := (input.extract start stop).toList
  ⟨text f.start f.stop, (offsets[f.start]?).getD 0, (offsets[f.stop]?).getD 0,
    f.groups.map fun span => span.map fun (start, stop) => text start stop⟩

/-- The matches in a subject, from left to right. The step that goes beyond the limit is counted. -/
def evaluate (p : Pattern) (subject : Text) (options : MatchOptions) :
    Except Error (List MatchRecord) :=
  let m := p.machine subject options
  match m.find options.global options.stepLimit with
  | (some found, _) =>
    let offsets := (Text.byteOffsets 0 subject).toArray
    .ok (found.map (record m.input offsets))
  | (none, left) => .error (.timeout (options.stepLimit - left + 1))

/-- Whether the pattern matches anywhere. -/
def test (p : Pattern) (subject : Text) (options : MatchOptions) : Except Error Bool :=
  (p.evaluate subject { options with global := false }).map (!·.isEmpty)

/-- A text with replacements in it, and how many there are. -/
structure Replaced where
  text : Text
  count : Nat
deriving DecidableEq, Repr

/-- The rest of a subject from byte `at` on with its matches replaced. -/
def splice (subject replacement : Text) (start : Nat) (rest : Text) : List MatchRecord → Text
  | [] => rest
  | r :: rs =>
    Text.takeBytes (r.start - start) rest ++ r.expand subject replacement ++
      splice subject replacement r.stop (Text.dropBytes (r.stop - start) rest) rs

def replace (p : Pattern) (subject replacement : Text) (options : MatchOptions) :
    Except Error Replaced :=
  (p.evaluate subject options).map fun matches_ =>
    ⟨splice subject replacement 0 subject matches_, matches_.length⟩

end Pattern
end VbaWorkbench
