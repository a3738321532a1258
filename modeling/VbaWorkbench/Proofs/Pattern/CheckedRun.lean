import VbaWorkbench.Pattern.Search
import VbaWorkbench.Proofs.Pattern.StateBounds

namespace VbaWorkbench.Pattern

namespace Machine

/-- A run that gives up where an index is out of range. -/
def run? (m : Machine) : (budget : Nat) → Config → Option (Verdict × Nat)
  | 0, _ => some (.exhausted, 0)
  | budget + 1, c =>
    if c.Safe m then
      match m.step c with
      | .running c => m.run? budget c
      | .accepted c => some (.accepted c, budget)
      | .failed => some (.failed, budget)
    else none

def searchFrom? (m : Machine) (marks : Array Nat) (start budget : Nat) :
    (n : Nat) → Option (SearchResult × Nat)
  | 0 => some (.absent, budget)
  | n + 1 => do
    match ← m.run? budget (.starting m.program marks start) with
    | (.accepted c, budget) => some (.found (m.found start c) c.marks, budget)
    | (.failed, budget) => m.searchFrom? marks (start + 1) budget n
    | (.exhausted, budget) => some (.exhausted, budget)

def search? (m : Machine) (marks : Array Nat) (start budget : Nat) :
    Option (SearchResult × Nat) :=
  m.searchFrom? marks start budget (m.input.size + 1 - start)

end Machine

section Runs

variable {m : Machine} {node : Node} {marks : Array Nat} {start : Nat}

theorem run?_eq (hp : m.program.Realizes node) {c : Config} (h : c.Bounded m) (budget : Nat) :
    m.run? budget c = some (m.run budget c) := by
  induction budget generalizing c with
  | zero => rfl
  | succ budget ih =>
    have hnext := step_bounded hp h
    rw [Machine.run?, if_pos (safe_of_bounded hp h), Machine.run]
    cases hstep : m.step c with
    | running c' =>
      rw [hstep] at hnext
      exact ih hnext
    | accepted c' => rfl
    | failed => rfl

theorem searchFrom?_eq (hp : m.program.Realizes node) (hm : marks.size = m.program.marks)
    (budget n : Nat) (hn : start + n ≤ m.input.size + 1) :
    m.searchFrom? marks start budget n = some (m.searchFrom marks start budget n) := by
  induction n generalizing start budget with
  | zero => rfl
  | succ n ih =>
    have hstart := starting_bounded hp hm (show start ≤ m.input.size by omega)
    rw [Machine.searchFrom?, run?_eq hp hstart, Machine.searchFrom, ← Config.starting]
    cases m.run budget (.starting m.program marks start) with
    | mk verdict left =>
      cases verdict with
      | failed => exact ih left (by omega)
      | accepted c => rfl
      | exhausted => rfl

theorem search?_eq (hp : m.program.Realizes node) (hm : marks.size = m.program.marks)
    (hs : start ≤ m.input.size + 1) (budget : Nat) :
    m.search? marks start budget = some (m.search marks start budget) :=
  searchFrom?_eq hp hm budget _ (by omega)

end Runs
end VbaWorkbench.Pattern
