import VbaWorkbench.Yaml.Value

namespace VbaWorkbench.Yaml

mutual
/-- The nodes with numbers, in the order in which they begin. -/
def Value.numbered : Value → List (Nat × Value)
  | .scalar _ _ _ | .alias _ => []
  | .sequence items => numberedItems items
  | .mapping entries => numberedEntries entries
  | .named n v => (n, v) :: v.numbered

def numberedItems : List Value → List (Nat × Value)
  | [] => []
  | v :: rest => v.numbered ++ numberedItems rest

def numberedEntries : List (Value × Value) → List (Nat × Value)
  | [] => []
  | (key, v) :: rest => key.numbered ++ (v.numbered ++ numberedEntries rest)
end

mutual
/-- The signs that a value is made of: a scalar or an alias is one, and what has parts has a beginning
and an end beside them. -/
def Value.signs : Value → Nat
  | .scalar _ _ _ | .alias _ => 1
  | .sequence items => signsOfItems items + 2
  | .mapping entries => signsOfEntries entries + 2
  | .named _ v => v.signs

def signsOfItems : List Value → Nat
  | [] => 0
  | v :: rest => v.signs + signsOfItems rest

def signsOfEntries : List (Value × Value) → Nat
  | [] => 0
  | (key, v) :: rest => key.signs + (v.signs + signsOfEntries rest)
end

/-- Reading of a document by the numbers of its nodes, of two with one number the later one. It knows
how many more times an alias may be followed. -/
abbrev Extracting := ReaderT (List (Nat × Value)) (StateT Nat Option)

/-- The node that a value is or stands for. -/
def follow : Value → Extracting Value
  | .alias n => do
    match ← get with
    | 0 => failure
    | left + 1 =>
      set left
      match (← read).lookup n with
      | some v => return v
      | none => failure
  | .named _ v => return v
  | v => return v

/-- Reads a document's content. Aliases may be followed a hundred times for each of its signs. -/
def extract? {α : Type} (read : Value → Extracting α) (v : Value) : Option α :=
  ((read v).run v.numbered.reverse).run' (100 * v.signs)

end VbaWorkbench.Yaml
