namespace VbaWorkbench.Character

/-- The code points `first, first + step, …, last`. -/
structure Run where
  first : Nat
  last : Nat
  step : Nat

def Run.contains (run : Run) (code : Nat) : Bool :=
  run.first ≤ code && code ≤ run.last && (code - run.first) % run.step == 0

/-- A character class as runs in increasing order that do not overlap. -/
abbrev Runs := List Run

/-- Stops at the first run that begins above the code point. -/
def Runs.contains : Runs → Nat → Bool
  | [], _ => false
  | run :: runs, code =>
    if code < run.first then false else run.contains code || Runs.contains runs code

def Runs.holds (runs : Runs) (c : Char) : Bool :=
  runs.contains c.toNat

end VbaWorkbench.Character
