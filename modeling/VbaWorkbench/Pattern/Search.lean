import VbaWorkbench.Pattern.Machine

namespace VbaWorkbench.Pattern

/-- A match, in character positions. -/
structure Found where
  start : Nat
  stop : Nat
  /-- The span of each group, from the first group on. -/
  groups : List (Option (Nat × Nat))
deriving DecidableEq, Repr

/-- Where to look for the next match. An empty match is not found twice. -/
def Found.resume (f : Found) : Nat :=
  if f.stop = f.start then f.stop + 1 else f.stop

/-- What a search ends with. -/
inductive SearchResult where
  /-- A match, and what its run has left in the marks. -/
  | found (f : Found) (marks : Array Nat)
  | absent
  | exhausted
deriving DecidableEq, Repr

namespace Machine

def found (m : Machine) (start : Nat) (c : Config) : Found :=
  ⟨start, c.pos, (List.range m.program.groups).map fun i => captured? c.slots (i + 1)⟩

/-- Tries `n` positions from `start` on, and says how much of the budget is left. Each run begins
without captures, but the marks are never emptied. A run that fails has undone its writes. -/
def searchFrom (m : Machine) (marks : Array Nat) (start budget : Nat) :
    (n : Nat) → SearchResult × Nat
  | 0 => (.absent, budget)
  | n + 1 =>
    match m.run budget { Config.initial m.program start with marks := marks } with
    | (.accepted c, budget) => (.found (m.found start c) c.marks, budget)
    | (.failed, budget) => m.searchFrom marks (start + 1) budget n
    | (.exhausted, budget) => (.exhausted, budget)

/-- The leftmost match that begins at `start` or after it. -/
def search (m : Machine) (marks : Array Nat) (start budget : Nat) : SearchResult × Nat :=
  m.searchFrom marks start budget (m.input.size + 1 - start)

/-- The marks of a machine that has not run yet. -/
def newMarks (m : Machine) : Array Nat :=
  Array.replicate m.program.marks 0

/-- At most `n` matches from `start` on, or `none` when the budget does not suffice, and how much of
the budget is left. -/
def findFrom (m : Machine) (marks : Array Nat) (start budget : Nat) :
    (n : Nat) → Option (List Found) × Nat
  | 0 => (some [], budget)
  | n + 1 =>
    match m.search marks start budget with
    | (.found f marks, budget) =>
      let (rest, budget) := m.findFrom marks f.resume budget n
      (rest.map (f :: ·), budget)
    | (.absent, budget) => (some [], budget)
    | (.exhausted, budget) => (none, budget)

/-- The first match, or all of them. Each begins at a position of its own. -/
def find (m : Machine) (all : Bool) (budget : Nat) : Option (List Found) × Nat :=
  m.findFrom m.newMarks 0 budget (if all then m.input.size + 1 else 1)

end Machine

/-- A machine that counts its steps over several searches. -/
structure Matcher where
  machine : Machine
  limit : Nat
  used : Nat

/-- One search. What earlier searches have left in the marks would make no difference, so each begins
with new ones. After a timeout each further search stops at its first step. -/
def Matcher.search (m : Matcher) (start : Nat) : Except Nat (Option Found) × Matcher :=
  let budget := m.limit - m.used
  let (result, left) := m.machine.search m.machine.newMarks start budget
  let used := m.used + (budget - left)
  match result with
  | .found f _ => (.ok (some f), { m with used := used })
  | .absent => (.ok none, { m with used := used })
  | .exhausted => (.error (used + 1), { m with used := used + 1 })

end VbaWorkbench.Pattern
