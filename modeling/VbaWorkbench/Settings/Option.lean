import VbaWorkbench.Binary64.Shortest
import VbaWorkbench.Layout.Options
import VbaWorkbench.Settings.Merge
import VbaWorkbench.Text.Digits

namespace VbaWorkbench.Settings

open Toml (Value)

/-- The largest number that an option may have. -/
def largest : Nat := 18446744073709551615

def yes : List String := ["true", "on", "yes"]

def no : List String := ["false", "off", "no"]

/-- The number that a text stands for. -/
def numberOfText? (t : Text) : Option Nat :=
  let word := Text.lowercase t
  if yes.any (·.toList == word) then some 1
  else if no.any (·.toList == word) then some 0
  else
    (match t with
      | '+' :: digits => Text.natural? 10 digits
      | digits => Text.natural? 10 digits).filter (· ≤ largest)

/-- The number that an option has, whatever kind of value it is written with. -/
def number? : Value → Option Nat
  | .integer n => if 0 ≤ n ∧ n ≤ largest then some n.toNat else none
  | .number x => some (x.roundWithin largest)
  | .boolean b => some (if b then 1 else 0)
  | .text t => numberOfText? t
  | .list _ | .table _ => none

def text? : Value → Option Text
  | .text t => some t
  | .integer n => some (Text.ofInt n)
  | .number x => some x.text
  | .boolean b => some (if b then "true".toList else "false".toList)
  | .list _ | .table _ => none

/-- The choice that a name stands for, whatever its case. -/
def named? {α : Type} (choices : List (String × α)) (name : Text) : Option α :=
  (choices.find? fun c => Text.lowercase c.1.toList == Text.lowercase name).map (·.2)

/-- A choice is written by its name, or by a table with its name alone. -/
def choice? {α : Type} (choices : List (String × α)) : Value → Option α
  | .text t => named? choices t
  | .table [(name, _)] => named? choices name
  | _ => none

def nameStyles : List (String × NameStyle) :=
  [("preserve", .preserve), ("camelCase", .camel), ("PascalCase", .pascal),
    ("hungarian-prefix", .hungarian)]

def keywordStyles : List (String × KeywordStyle) :=
  [("preserve", .preserve), ("upper", .upper), ("lower", .lower), ("titlecase", .title)]

def continuationStyles : List (String × ContinuationStyle) :=
  [("preserve", .preserve), ("collapse-when-short", .collapseWhenShort)]

/-- The name of a choice. -/
def nameOf {α : Type} [DecidableEq α] (choices : List (String × α)) (a : α) : String :=
  ((choices.find? (·.2 = a)).map (·.1)).getD ""

end VbaWorkbench.Settings
