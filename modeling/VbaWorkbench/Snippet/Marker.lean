import VbaWorkbench.Character.WhiteSpace
import VbaWorkbench.Text.Basic

namespace VbaWorkbench.Snippet

/-- The two kinds of conditional. -/
inductive Tag where
  | whenSet
  | unlessSet
deriving DecidableEq, Repr

/-- What a pair of double braces in a body says. -/
inductive Marker where
  | value (name : Text)
  | opening (tag : Tag) (flag : Text)
  | otherwise
  | closing (tag : Tag)
deriving DecidableEq, Repr

/-- All markers but values belong to conditionals. -/
def Marker.isTag : Marker → Bool
  | value _ => false
  | _ => true

def Tag.word : Tag → String
  | whenSet => "if"
  | unlessSet => "unless"

/-- What is left of the text after a word at its front. -/
def after? (word : Text) (t : Text) : Option Text :=
  if word.isPrefixOf t then some (t.drop word.length) else none

def skipSpace (t : Text) : Text :=
  t.dropWhile Character.isWhiteSpace

/-- The name at the front of a text and what is left. -/
def name? : Text → Option (Text × Text)
  | [] => none
  | c :: rest =>
    let isPart (d : Char) : Bool := d.isAlphanum || d == '_'
    if c.isAlpha then some (c :: rest.takeWhile isPart, rest.dropWhile isPart) else none

/-- The flag of an opening tag after its word; a space must come between. -/
def flag? (t : Text) : Option (Text × Text) :=
  if t.head?.any Character.isWhiteSpace then name? (skipSpace t) else none

/-- What stands between the braces, and what is left. -/
def markerBody? (t : Text) : Option (Marker × Text) :=
  let opening (tag : Tag) (rest : Text) : Option (Marker × Text) :=
    (flag? rest).map fun (flag, rest) => (.opening tag flag, rest)
  match t with
  | '#' :: rest =>
    match after? "if".toList rest, after? "unless".toList rest with
    | some rest, _ => opening .whenSet rest
    | none, some rest => opening .unlessSet rest
    | none, none => none
  | '/' :: rest =>
    match after? "if".toList rest, after? "unless".toList rest with
    | some rest, _ => some (.closing .whenSet, rest)
    | none, some rest => some (.closing .unlessSet, rest)
    | none, none => none
  | _ =>
    (name? t).map fun (name, rest) =>
      (if name = "else".toList then .otherwise else .value name, rest)

/-- The marker at the front of a text and its length. -/
def marker? (t : Text) : Option (Marker × Nat) :=
  match after? "\x7b\x7b".toList t with
  | none => none
  | some inside =>
    match markerBody? (skipSpace inside) with
    | none => none
    | some (marker, rest) =>
      (after? "\x7d\x7d".toList (skipSpace rest)).map fun rest =>
        (marker, t.length - rest.length)

/-- A marker as it is written, and the text between it and the next one. -/
structure Part where
  marker : Marker
  source : Text
  after : Text
deriving DecidableEq, Repr

/-- The text before the first marker, and the markers. -/
def parts : Text → Text × List Part
  | [] => ([], [])
  | c :: rest =>
    match marker? (c :: rest) with
    | some (marker, n) =>
      let (text, more) := parts (rest.drop (n - 1))
      ([], ⟨marker, c :: rest.take (n - 1), text⟩ :: more)
    | none =>
      let (text, more) := parts rest
      (c :: text, more)
termination_by t => t.length
decreasing_by all_goals simp only [List.length_cons, List.length_drop]; omega

/-- The markers and what stands between them, as they are written. -/
def sourceOf (ps : List Part) : Text :=
  ps.flatMap fun p => p.source ++ p.after

/-- A marker with all that stands before and after it. -/
structure Occurrence where
  before : Text
  marker : Marker
  source : Text
  after : Text
deriving DecidableEq, Repr

/-- The markers of a text of which `before` has been read. -/
def occurrencesAfter (before : Text) : List Part → List Occurrence
  | [] => []
  | p :: ps =>
    ⟨before, p.marker, p.source, p.after ++ sourceOf ps⟩ ::
      occurrencesAfter (before ++ p.source ++ p.after) ps

def occurrences (body : Text) : List Occurrence :=
  let (before, ps) := parts body
  occurrencesAfter before ps

/-- The last line of a text, which has no line feed. -/
def lastLine (t : Text) : Text :=
  (t.reverse.takeWhile (· != '\n')).reverse

/-- The first line of a text with its line feed. -/
def firstLine (t : Text) : Text :=
  t.take ((t.takeWhile (· != '\n')).length + 1)

def isBlankLine (t : Text) : Bool :=
  t.all fun c => c == ' ' || c == '\t' || c == '\r' || c == '\n'

/-- The characters of a text from `start` up to `stop`. -/
structure Span where
  start : Nat
  stop : Nat
deriving DecidableEq, Repr

namespace Occurrence

/-- There is nothing else on the line. -/
def standsAlone (o : Occurrence) : Bool :=
  isBlankLine (lastLine o.before) && isBlankLine (firstLine o.after)

/-- What the marker takes from the body. A tag that stands alone takes its line with it. -/
def span (o : Occurrence) : Span :=
  let start := o.before.length
  let stop := start + o.source.length
  if o.marker.isTag && o.standsAlone then
    ⟨start - (lastLine o.before).length, stop + (firstLine o.after).length⟩
  else ⟨start, stop⟩

end Occurrence
end VbaWorkbench.Snippet
