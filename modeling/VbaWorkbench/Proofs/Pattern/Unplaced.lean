import VbaWorkbench.Proofs.Pattern.ParsedTree
import VbaWorkbench.Proofs.Pattern.Rendering

namespace VbaWorkbench.Pattern

namespace Node

theorem unplacedAll_eq (nodes : List Node) : unplacedAll nodes = nodes.map unplaced := by
  induction nodes with
  | nil => rfl
  | cons node nodes ih => rw [unplacedAll, ih, List.map_cons]

@[simp] theorem isEmpty_unplaced (node : Node) : node.unplaced.isEmpty = node.isEmpty := by
  cases node <;> rfl

theorem unplaced_ofItems (nodes : List Node) :
    (ofItems nodes).unplaced = ofItems (nodes.map unplaced) := by
  cases nodes with
  | nil => rfl
  | cons node nodes =>
    cases nodes with
    | nil => rfl
    | cons next nodes => simp only [ofItems, unplaced, unplacedAll_eq, List.map_cons]

theorem unplaced_ofBranches (nodes : List Node) :
    (ofBranches nodes).unplaced = ofBranches (nodes.map unplaced) := by
  cases nodes with
  | nil => rfl
  | cons node nodes =>
    cases nodes with
    | nil => rfl
    | cons next nodes => simp only [ofBranches, unplaced, unplacedAll_eq, List.map_cons]

@[simp] theorem unplaced_numberAtoms (total : Nat) (digits : Text) :
    (numberAtoms total digits).map unplaced = numberAtoms total digits := by
  have hchars : ∀ t : Text, (t.map Node.char).map unplaced = t.map Node.char := by
    intro t
    rw [List.map_map]
    rfl
  unfold numberAtoms
  split
  · rfl
  · split
    · rfl
    · rw [List.map_cons, hchars]
      rfl

end Node

namespace Level

/-- What has been read at a level without the offsets of quantifiers. -/
def unplaced (level : Level) : Level :=
  ⟨level.branches.map Node.unplaced, level.items.map Node.unplaced, level.atom.map Node.unplaced⟩

theorem unplaced_settle (level : Level) : level.settle.unplaced = level.unplaced.settle := by
  obtain ⟨branches, items, atom⟩ := level
  cases atom with
  | none => rfl
  | some node => cases h : node.isEmpty <;> simp [settle, unplaced, h]

@[simp] theorem unplaced_push (node : Node) (level : Level) :
    (level.push node).unplaced = level.unplaced.push node.unplaced := by
  rw [push, push, ← unplaced_settle]
  rfl

@[simp] theorem unplaced_pushAll (nodes : List Node) (level : Level) :
    (level.pushAll nodes).unplaced = level.unplaced.pushAll (nodes.map Node.unplaced) := by
  induction nodes generalizing level with
  | nil => rfl
  | cons node nodes ih =>
    rw [pushAll, List.foldl_cons, ← pushAll, ih, unplaced_push]
    rfl

theorem unplaced_branch (level : Level) : level.branch.unplaced = level.unplaced.branch := by
  rw [branch, branch, Node.unplaced_ofItems, List.map_reverse, ← unplaced_settle]
  rfl

@[simp] theorem unplaced_bar (level : Level) : level.bar.unplaced = level.unplaced.bar := by
  rw [bar, bar, ← unplaced_branch]
  rfl

@[simp] theorem unplaced_node (level : Level) : level.node.unplaced = level.unplaced.node := by
  rw [node, node, Node.unplaced_ofBranches, List.map_reverse, List.map_cons, unplaced_branch]
  rfl

end Level

def OpenGroup.unplaced (group : OpenGroup) : OpenGroup :=
  ⟨group.kind, group.index, 0, group.outer.unplaced⟩

@[simp] theorem OpenGroup.unplaced_close (group : OpenGroup) (body : Node) :
    (group.close body).unplaced = group.unplaced.close body.unplaced := by
  obtain ⟨kind, index, offset, outer⟩ := group
  cases kind <;> rfl

def Symbol.unplaced : Symbol → Symbol
  | .atom node => .atom node.unplaced
  | s => s

/-- A symbol at no place in particular. -/
def PlacedSymbol.ofSymbol (s : Symbol) : PlacedSymbol :=
  ⟨s.unplaced, 0, []⟩

namespace ParseState

def unplaced (s : ParseState) : ParseState :=
  ⟨s.level.unplaced, s.groups.map OpenGroup.unplaced, s.count⟩

/-- Takes symbols into account wherever they stand. -/
def run (total : Nat) (s : ParseState) (symbols : List Symbol) : Except Malformed ParseState :=
  s.steps total (symbols.map .ofSymbol)

/-- Where a symbol stands does not tell what it does, apart from offsets. -/
theorem step_unplaced (total : Nat) (s : ParseState) (p : PlacedSymbol) :
    (s.unplaced.step total (.ofSymbol p.symbol)).mapError Malformed.flaw =
      ((s.step total p).map unplaced).mapError Malformed.flaw := by
  obtain ⟨level, groups, count⟩ := s
  obtain ⟨symbol, offset, warnings⟩ := p
  have hlevel : ∀ (rest : List OpenGroup) {l l' : Level}, l.unplaced = l' →
      (Except.ok ⟨l', rest.map OpenGroup.unplaced, count⟩ : Except Flaw ParseState) =
        .ok (unplaced ⟨l, rest, count⟩) := by
    rintro rest l _ rfl
    rfl
  cases symbol with
  | atom node => exact hlevel groups (Level.unplaced_push node level)
  | number digits =>
    refine hlevel groups ?_
    rw [Level.unplaced_pushAll, Node.unplaced_numberAtoms]
    rfl
  | bar => exact hlevel groups (Level.unplaced_bar level)
  | opening kind => cases kind <;> rfl
  | closing =>
    cases groups with
    | nil => rfl
    | cons group groups =>
      refine hlevel groups ?_
      rw [Level.unplaced_push, OpenGroup.unplaced_close, Level.unplaced_node]
      rfl
  | quantifier min max greedy =>
    obtain ⟨branches, items, atom⟩ := level
    cases atom <;> rfl

theorem run_eq (total : Nat) (s : ParseState) (ps : List PlacedSymbol) :
    (s.unplaced.run total (ps.map (·.symbol))).mapError Malformed.flaw =
      ((s.steps total ps).map unplaced).mapError Malformed.flaw := by
  induction ps generalizing s with
  | nil => rfl
  | cons p ps ih =>
    have hstep := step_unplaced total s p
    rw [List.map_cons, run, List.map_cons, steps, steps]
    generalize s.unplaced.step total (.ofSymbol p.symbol) = moved at *
    cases hs : s.step total p with
    | error e =>
      rw [hs] at hstep
      cases moved with
      | ok t => cases hstep
      | error e' => exact congrArg Except.error (Except.error.inj hstep)
    | ok t =>
      rw [hs] at hstep
      cases moved with
      | error e' => cases hstep
      | ok t' =>
        obtain rfl := Except.ok.inj hstep
        exact ih t

end ParseState
end VbaWorkbench.Pattern
