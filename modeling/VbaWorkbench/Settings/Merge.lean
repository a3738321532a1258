import VbaWorkbench.Settings.Path
import VbaWorkbench.Text.Lowercase
import VbaWorkbench.Toml.Value

namespace VbaWorkbench.Settings

open Toml (Value)

/-- The values of a table by name; anything else has none. -/
def entries : Value → List (Text × Value)
  | .table entries => entries
  | _ => []

def find? (v : Value) (name : String) : Option Value :=
  (entries v).lookup name.toList

/-- Puts a value under a name, which is taken in lower case. What is no table becomes one. -/
def put (v : Value) (name : Text) (new : Value) : Value :=
  let es := entries v
  if (es.lookup name).isSome then .table (es.map fun e => if e.1 == name then (name, new) else e)
  else .table (es ++ [(name, new)])

/-- The value under a name, or an empty table. -/
def child (v : Value) (name : Text) : Value :=
  ((entries v).lookup name).getD (.table [])

mutual
/-- Lays a value over another one. Tables are merged, and all else is replaced. -/
def merge (v : Value) : Value → Value
  | .table entries => mergeAll v entries
  | new => new

def mergeAll (v : Value) : List (Text × Value) → Value
  | [] => v
  | (name, new) :: rest =>
    let name := Text.lowercase name
    mergeAll (put v name (merge (child v name) new)) rest
end

/-- The items of a list; anything else has none. -/
def items : Value → List Value
  | .list items => items
  | _ => []

/-- Changes the item at a place. A list that is too short is first filled up with empty tables: behind
its items, or before them if the place is before its start. -/
def changeAt (items : List Value) (place : Int) (change : Value → Value) : List Value :=
  let blank (n : Nat) : List Value := List.replicate n (.table [])
  match if place < 0 then place + items.length else place with
  | .ofNat n => (items ++ blank (n + 1 - items.length)).modify n change
  | .negSucc n => (blank (n + 1)).modify 0 change ++ items

/-- Lays a value over the one at a path. In a list it takes the place of an item. -/
def mergeAt (new : Value) : (path : List Step) → Value → Value
  | [], v => merge v new
  | .name name :: rest, v =>
    let name := Text.lowercase name
    put v name (mergeAt new rest (child v name))
  | [.place n], v => .list (changeAt (items v) n fun _ => new)
  | .place n :: rest, v => .list (changeAt (items v) n (mergeAt new rest))

/-- Lays the entries of a document over a table. A name that is a path leads to its value. -/
def mergeDocument (v : Value) : List (Text × Value) → Value
  | [] => v
  | (name, new) :: rest => mergeDocument (mergeAt new ((keyPath? name).getD [.name name]) v) rest

end VbaWorkbench.Settings
