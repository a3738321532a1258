import VbaWorkbench.Snippet.Marker
import VbaWorkbench.Snippet.Placeholder

namespace VbaWorkbench.Snippet

/-- A part of a template's body. -/
inductive Fragment where
  | text (t : Text)
  | value (name : Text)
  | conditional (flag : Text) (negated : Bool) (chosen other : List Fragment)
deriving Repr

/-- Why the markers of a body cannot be put together. -/
inductive NestingFlaw where
  /-- What a marker takes begins before the end of what the one before it took. -/
  | overlapping (offset : Nat)
  | elseOutside
  | unbalanced (tag : Tag)
  | neverClosed (flag : Text)
deriving DecidableEq, Repr

def NestingFlaw.message : NestingFlaw → String
  | overlapping offset => "overlapping markers near offset " ++ toString offset
  | elseOutside => "`\x7b\x7belse\x7d\x7d` outside a conditional"
  | unbalanced tag => "unbalanced `\x7b\x7b/" ++ tag.word ++ "\x7d\x7d`"
  | neverClosed flag => "conditional on `" ++ String.ofList flag ++ "` is never closed"

/-- A conditional whose end has not been met. Fragments are kept last first. -/
structure OpenConditional where
  tag : Tag
  flag : Text
  /-- The fragments before the conditional. -/
  outer : List Fragment
  /-- The first branch, once the second has begun. -/
  chosen : Option (List Fragment)
deriving Repr

/-- The fragments read so far at the innermost level, last first, and the open conditionals. -/
structure Nesting where
  fragments : List Fragment
  conditionals : List OpenConditional
deriving Repr

namespace Nesting

def push (n : Nesting) (f : Fragment) : Nesting :=
  { n with fragments := f :: n.fragments }

def pushText (n : Nesting) (t : Text) : Nesting :=
  if t.isEmpty then n else n.push (.text t)

def OpenConditional.close (c : OpenConditional) (fragments : List Fragment) : Fragment :=
  let branch := fragments.reverse
  match c.chosen with
  | none => .conditional c.flag (c.tag == .unlessSet) branch []
  | some chosen => .conditional c.flag (c.tag == .unlessSet) chosen.reverse branch

/-- The nesting after a marker. -/
def step (n : Nesting) : Marker → Except NestingFlaw Nesting
  | .value name => .ok (n.push (.value name))
  | .opening tag flag => .ok ⟨[], ⟨tag, flag, n.fragments, none⟩ :: n.conditionals⟩
  | .otherwise =>
    match n.conditionals with
    | ⟨tag, flag, outer, none⟩ :: rest => .ok ⟨[], ⟨tag, flag, outer, some n.fragments⟩ :: rest⟩
    | _ => .error .elseOutside
  | .closing tag =>
    match n.conditionals with
    | [] => .error (.unbalanced tag)
    | c :: rest =>
      if c.tag = tag then .ok ⟨OpenConditional.close c n.fragments :: c.outer, rest⟩
      else .error (.unbalanced tag)

/-- At the end of a body no conditional is open. -/
def finish (n : Nesting) : Except NestingFlaw (List Fragment) :=
  match n.conditionals with
  | [] => .ok n.fragments.reverse
  | c :: _ => .error (.neverClosed c.flag)

/-- The fragments of a body that has been read up to `cursor`, where the markers that are left
stand. -/
def readFrom (body : Text) (cursor : Nat) (n : Nesting) :
    List Occurrence → Except NestingFlaw (List Fragment)
  | [] => (n.pushText (body.drop cursor)).finish
  | o :: os =>
    if o.span.start < cursor then .error (.overlapping (Text.byteLength o.before))
    else
      match (n.pushText ((body.drop cursor).take (o.span.start - cursor))).step o.marker with
      | .error e => .error e
      | .ok n => readFrom body o.span.stop n os

end Nesting

/-- The fragments of a body. -/
def fragments (body : Text) : Except NestingFlaw (List Fragment) :=
  Nesting.readFrom body 0 ⟨[], []⟩ (occurrences body)

namespace Fragment

/-- The values that the placeholders have. -/
abbrev Values := List (Text × Resolved)

mutual
/-- The text of a fragment. A flag that is not set counts as false. -/
def render (values : Values) : Fragment → Text
  | text t => t
  | value name =>
    match values.lookup name with
    | some r => r.render
    | none => []
  | conditional flag negated chosen other =>
    if (values.lookup flag == some (.flag true)) != negated then renderAll values chosen
    else renderAll values other

def renderAll (values : Values) : List Fragment → Text
  | [] => []
  | f :: fs => f.render values ++ renderAll values fs
end

end Fragment
end VbaWorkbench.Snippet
