import VbaWorkbench.Proofs.Pattern.Unplaced
import VbaWorkbench.Proofs.Text.Decimal

namespace VbaWorkbench.Pattern

namespace Level

/-- The level with more items behind its last atom. -/
def add (nodes : List Node) (level : Level) : Level :=
  { level.settle with items := nodes.reverse ++ level.settle.items }

theorem settle_of_atom_none {level : Level} (h : level.atom = none) : level.settle = level := by
  rw [settle, h]

theorem add_nil (level : Level) : level.add [] = level.settle :=
  rfl

theorem add_add {level level' : Level} {nodes : List Node} (h : level'.settle = level.add nodes)
    (more : List Node) : level'.add more = level.add (nodes ++ more) := by
  simp [add, h]

theorem settle_push {node : Node} (h : node.isEmpty = false) (level : Level) :
    (level.push node).settle = level.add [node] := by
  have hatom := settle_atom level
  rw [push, add]
  generalize level.settle = settled at *
  obtain ⟨branches, items, atom⟩ := settled
  obtain rfl : atom = none := hatom
  simp [settle, h]

/-- A branch that begins after others. -/
def fresh (branches : List Node) : Level := ⟨branches, [], none⟩

theorem branch_of_add {level : Level} {branches nodes : List Node}
    (h : level.settle = (fresh branches).add nodes) :
    level.branch = .ofItems nodes ∧ level.branches = branches := by
  refine ⟨?_, ?_⟩
  · rw [branch, h]
    simp [add, fresh, settle]
  · rw [← settle_branches, h]
    rfl

end Level

namespace ParseState

theorem steps_append (total : Nat) (s : ParseState) (ps qs : List PlacedSymbol) :
    s.steps total (ps ++ qs) = (s.steps total ps).bind (·.steps total qs) := by
  induction ps generalizing s with
  | nil => rfl
  | cons p ps ih =>
    rw [List.cons_append, steps, steps]
    cases s.step total p with
    | error e => rfl
    | ok t => exact ih t

theorem run_append (total : Nat) (s : ParseState) (ss ss' : List Symbol) :
    s.run total (ss ++ ss') = (s.run total ss).bind (·.run total ss') := by
  rw [run, List.map_append, steps_append]
  rfl

end ParseState

/-- The symbols lead from each level to one that is related to it, open and close the same groups and
count on from `count` to `count'`. -/
def Leads (total count : Nat) (symbols : List Symbol) (count' : Nat) (R : Level → Level → Prop) :
    Prop :=
  ∀ level groups, ∃ level',
    (ParseState.mk level groups count).run total symbols = .ok ⟨level', groups, count'⟩ ∧
      R level level'

namespace Leads

variable {total a b c : Nat} {ss ss' : List Symbol} {R R' S : Level → Level → Prop}

theorem mono (h : Leads total a ss b R) (hR : ∀ l l', R l l' → R' l l') :
    Leads total a ss b R' := by
  intro level groups
  obtain ⟨level', hrun, hrel⟩ := h level groups
  exact ⟨level', hrun, hR _ _ hrel⟩

theorem append (h : Leads total a ss b R) (h' : Leads total b ss' c R')
    (hS : ∀ l l' l'', R l l' → R' l' l'' → S l l'') : Leads total a (ss ++ ss') c S := by
  intro level groups
  obtain ⟨level', hrun, hrel⟩ := h level groups
  obtain ⟨level'', hrun', hrel'⟩ := h' level' groups
  refine ⟨level'', ?_, hS _ _ _ hrel hrel'⟩
  rw [ParseState.run_append, hrun]
  exact hrun'

theorem nil (total count : Nat) : Leads total count [] count fun l l' => l' = l :=
  fun level _ => ⟨level, rfl, rfl⟩

theorem atom (total count : Nat) (node : Node) :
    Leads total count [.atom node] count fun l l' => l' = l.push node.unplaced :=
  fun _ _ => ⟨_, rfl, rfl⟩

theorem bar (total count : Nat) : Leads total count [.bar] count fun l l' => l' = l.bar :=
  fun _ _ => ⟨_, rfl, rfl⟩

end Leads

/-- The symbols are read as an alternation of its own. -/
def Whole (total count : Nat) (symbols : List Symbol) (count' : Nat) (node : Node) : Prop :=
  Leads total count symbols count' fun l l' => l = .empty → l'.node = node

/-- The symbols are read as further items. -/
def Items (total count : Nat) (symbols : List Symbol) (count' : Nat) (nodes : List Node) : Prop :=
  Leads total count symbols count' fun l l' => l'.settle = l.add nodes

/-- The symbols are read as further branches, the first of them from its beginning. -/
def Branches (total count : Nat) (symbols : List Symbol) (count' : Nat) (nodes : List Node) : Prop :=
  Leads total count symbols count' fun l l' =>
    ∀ before, l = .fresh before → l'.branch :: l'.branches = nodes.reverse ++ before

/-- The symbols are read as one atom. -/
def Atom (total count : Nat) (symbols : List Symbol) (count' : Nat) (node : Node) : Prop :=
  Leads total count symbols count' fun l l' => l' = l.push node

section Forms

variable {total a b c : Nat} {ss ss' : List Symbol} {node : Node} {nodes nodes' : List Node}

theorem Atom.items (h : Atom total a ss b node) (hne : node.isEmpty = false) :
    Items total a ss b [node] :=
  h.mono fun l l' hl => by rw [hl, Level.settle_push hne]

theorem Items.nil (total count : Nat) : Items total count [] count [] :=
  (Leads.nil total count).mono fun l l' hl => by rw [hl, Level.add_nil]

theorem Items.append (h : Items total a ss b nodes) (h' : Items total b ss' c nodes') :
    Items total a (ss ++ ss') c (nodes ++ nodes') :=
  Leads.append h h' fun l l' l'' hl hl' => by rw [hl', Level.add_add hl]

theorem Items.branch (h : Items total a ss b nodes) : Branches total a ss b [.ofItems nodes] := by
  refine h.mono fun l l' hl before hfresh => ?_
  subst hfresh
  obtain ⟨hbranch, hbranches⟩ := Level.branch_of_add hl
  rw [hbranch, hbranches]
  rfl

theorem Branches.append (h : Branches total a ss b nodes) (h' : Branches total b ss' c nodes') :
    Branches total a (ss ++ .bar :: ss') c (nodes ++ nodes') := by
  have hbar : Leads total b (.bar :: ss') c fun l l' =>
      l'.branch :: l'.branches = nodes'.reverse ++ (l.branch :: l.branches) :=
    (Leads.bar total b).append h' fun l l' l'' hl hl' => hl' (l.branch :: l.branches) hl
  refine Leads.append h hbar fun l l' l'' hl hl' before hfresh => ?_
  rw [hl', hl before hfresh, List.reverse_append, List.append_assoc]

theorem Branches.whole (h : Branches total a ss b nodes) : Whole total a ss b (.ofBranches nodes) := by
  refine h.mono fun l l' hl hempty => ?_
  rw [Level.node, hl [] hempty, List.append_nil, List.reverse_reverse]

theorem Items.whole (h : Items total a ss b nodes) : Whole total a ss b (.ofItems nodes) :=
  h.branch.whole

/-- A quantifier takes the atom before it. -/
theorem Atom.repeated (h : Atom total a ss b node) (min : Nat) (max : Option Nat) (greedy : Bool) :
    Items total a (ss ++ [.quantifier min max greedy]) b [.repeated min max greedy 0 node] := by
  intro level groups
  obtain ⟨level', hrun, rfl⟩ := h level groups
  have hnext : level.add [.repeated min max greedy 0 node] =
      ⟨level.settle.branches, .repeated min max greedy 0 node :: level.settle.items, none⟩ := by
    rw [Level.add, Level.settle_atom]
    rfl
  refine ⟨level.add [.repeated min max greedy 0 node], ?_, ?_⟩
  · rw [ParseState.run_append, hrun, hnext]
    rfl
  · exact Level.settle_of_atom_none (Level.settle_atom level)

/-- An alternation in parentheses is an atom. -/
theorem Whole.group {count : Nat} {kind : GroupKind} {node' : Node} (h : Whole total a ss b node)
    (hcount : a = if kind = .capturing then count + 1 else count)
    (hclose : ∀ outer, (OpenGroup.mk kind a 0 outer).close node = node') :
    Atom total count (.opening kind :: ss ++ [.closing]) b node' := by
  intro level groups
  obtain ⟨level', hrun, hnode⟩ := h .empty (⟨kind, a, 0, level⟩ :: groups)
  refine ⟨_, ?_, rfl⟩
  have hopen : (ParseState.mk level groups count).run total (.opening kind :: ss) =
      .ok ⟨level', ⟨kind, a, 0, level⟩ :: groups, b⟩ := by
    subst hcount
    exact hrun
  rw [ParseState.run_append, hopen, ← hclose level, ← hnode rfl]
  rfl

theorem Atom.number (a : Nat) {n : Nat} (h : n ≤ total) :
    Atom total a [.number (Text.ofNat n)] a (.backref n) := by
  have hatoms : numberAtoms total (Text.ofNat n) = [.backref n] := by
    simp only [numberAtoms, Text.digitsValue_ofNat, if_pos h]
  intro level groups
  refine ⟨level.push (.backref n), ?_, rfl⟩
  have hpush : level.push (.backref n) = level.pushAll (numberAtoms total (Text.ofNat n)) := by
    rw [hatoms]
    rfl
  rw [hpush]
  rfl

end Forms

end VbaWorkbench.Pattern
