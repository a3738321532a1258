import VbaWorkbench.Toml.Value

namespace VbaWorkbench.Toml

/-- How a table has come about. -/
inductive Origin where
  /-- A header names it, or it is the whole document. -/
  | header
  /-- It stands on the way to a table with a header. -/
  | implied
  /-- It stands on the way to a dotted key. -/
  | dotted
deriving DecidableEq, Repr

/-- A document while it is read. -/
inductive Node where
  | value (v : Value)
  | table (origin : Origin) (entries : List (Text × Node))
  /-- The tables of a list whose headers are read one by one; the last one still grows. -/
  | tables (before : List (List (Text × Node))) (last : List (Text × Node))
deriving Repr

abbrev Table := List (Text × Node)

namespace Table

/-- The table with another node under a name that it has, or with one more. -/
def put (t : Table) (name : Text) (node : Node) : Table :=
  if (t.lookup name).isSome then t.map fun e => if e.1 == name then (name, node) else e
  else t ++ [(name, node)]

/-- Adds a value under a dotted key, which may go neither through a table with a header nor into a
table that no dotted key has made. -/
def add? (v : Value) : (key : List Text) → Table → Option Table
  | [], _ => none
  | [name], t => if (t.lookup name).isSome then none else some (t.put name (.value v))
  | name :: rest, t =>
    match t.lookup name with
    | none => (add? v rest []).map fun inner => t.put name (.table .dotted inner)
    | some (.value _) => none
    | some (.table origin inner) =>
      if origin = .header ∨ (rest.length = 1 ∧ origin ≠ .dotted) then none
      else (add? v rest inner).map fun inner => t.put name (.table origin inner)
    | some (.tables before last) =>
      if rest.length = 1 then none
      else (add? v rest last).map fun last => t.put name (.tables before last)

/-- Changes the table at a path, in which the tables that are missing are made. Of a list of tables it
is the last one. -/
def reach? (f : Table → Option Table) : (path : List Text) → Table → Option Table
  | [], t => f t
  | name :: rest, t =>
    match t.lookup name with
    | none => (reach? f rest []).map fun inner => t.put name (.table .implied inner)
    | some (.value _) => none
    | some (.table origin inner) =>
      (reach? f rest inner).map fun inner => t.put name (.table origin inner)
    | some (.tables before last) =>
      (reach? f rest last).map fun last => t.put name (.tables before last)

/-- Gives a table its header, which it may have only once. -/
def openTable? (name : Text) (t : Table) : Option Table :=
  match t.lookup name with
  | none => some (t.put name (.table .header []))
  | some (.table .implied inner) => some (t.put name (.table .header inner))
  | some _ => none

/-- Begins one more table of a list. -/
def openItem? (name : Text) (t : Table) : Option Table :=
  match t.lookup name with
  | none => some (t.put name (.tables [] []))
  | some (.tables before last) => some (t.put name (.tables (before ++ [last]) []))
  | some _ => none

/-- Opens what the last name of a path stands for. -/
def open? (openLast : Text → Table → Option Table) (path : List Text) (t : Table) : Option Table :=
  match path.getLast? with
  | none => none
  | some name => reach? (openLast name) path.dropLast t

end Table

mutual
def Node.toValue : Node → Value
  | .value v => v
  | .table _ entries => .table (Table.toEntries entries)
  | .tables before last => .list (Table.toTables before ++ [.table (Table.toEntries last)])

def Table.toEntries : List (Text × Node) → List (Text × Value)
  | [] => []
  | (name, node) :: rest => (name, node.toValue) :: Table.toEntries rest

def Table.toTables : List (List (Text × Node)) → List Value
  | [] => []
  | entries :: rest => .table (Table.toEntries entries) :: Table.toTables rest
end

/-- One line of a document. -/
inductive Statement where
  | header (path : List Text)
  /-- The header of one more table of a list. -/
  | itemHeader (path : List Text)
  | entry (key : List Text) (v : Value)
deriving Repr

namespace Table

/-- Adds the statements in order, below the header at `path`. -/
def addAll? (t : Table) (path : List Text) : List Statement → Option Table
  | [] => some t
  | .header path :: rest =>
    match t.open? openTable? path with
    | none => none
    | some t => addAll? t path rest
  | .itemHeader path :: rest =>
    match t.open? openItem? path with
    | none => none
    | some t => addAll? t path rest
  | .entry key v :: rest =>
    match t.reach? (add? v key) path with
    | none => none
    | some t => addAll? t path rest

def ofStatements? (statements : List Statement) : Option Table :=
  addAll? [] [] statements

end Table
end VbaWorkbench.Toml
