import VbaWorkbench.Pattern.Symbol
import VbaWorkbench.Proofs.Pattern.Numbering

namespace VbaWorkbench.Pattern

/-- A range does not run backwards. -/
def ClassItem.Ordered : ClassItem → Prop
  | range first last => first ≤ last
  | _ => True

/-- Counts that a quantifier can have. -/
def Bounds.Allowed (bounds : Bounds) : Prop :=
  bounds.min ≤ maxCount ∧ ∀ max ∈ bounds.max, bounds.min ≤ max ∧ max ≤ maxCount

namespace Node

mutual
/-- A node and the nodes inside it, each before those inside it. -/
def subtrees : Node → List Node
  | group index body => group index body :: body.subtrees
  | lookahead negated body => lookahead negated body :: body.subtrees
  | repeated min max greedy offset body => repeated min max greedy offset body :: body.subtrees
  | concat nodes => concat nodes :: subtreesAll nodes
  | alternate branches => alternate branches :: subtreesAll branches
  | node => [node]

def subtreesAll : List Node → List Node
  | [] => []
  | node :: nodes => node.subtrees ++ subtreesAll nodes
end

/-- The number of a capturing group. -/
def index? : Node → Option Nat
  | group index _ => some index
  | _ => none

mutual
theorem groups_eq (node : Node) : node.groups = node.subtrees.filterMap index? := by
  match node with
  | .group index body => simp only [groups, subtrees, List.filterMap_cons, index?, groups_eq body]
  | lookahead _ body => simp only [groups, subtrees, List.filterMap_cons, index?, groups_eq body]
  | repeated _ _ _ _ body =>
    simp only [groups, subtrees, List.filterMap_cons, index?, groups_eq body]
  | concat nodes => simp only [groups, subtrees, List.filterMap_cons, index?, groupsAll_eq nodes]
  | alternate branches =>
    simp only [groups, subtrees, List.filterMap_cons, index?, groupsAll_eq branches]
  | empty | char _ | any | charClass _ | lineStart | lineEnd | wordBoundary _ | backref _ => rfl

theorem groupsAll_eq (nodes : List Node) :
    groupsAll nodes = (subtreesAll nodes).filterMap index? := by
  match nodes with
  | [] => rfl
  | node :: nodes =>
    simp only [groupsAll, subtreesAll, List.filterMap_append, groups_eq node, groupsAll_eq nodes]
end

theorem mem_subtreesAll {sub : Node} {nodes : List Node} :
    sub ∈ subtreesAll nodes ↔ ∃ node ∈ nodes, sub ∈ node.subtrees := by
  induction nodes with
  | nil => simp [subtreesAll]
  | cons node nodes ih => simp [subtreesAll, ih]

mutual
/-- The groups of a subtree stand together among the groups of the tree. -/
theorem groups_within (node : Node) {sub : Node} (h : sub ∈ node.subtrees) :
    sub.groups <:+: node.groups := by
  match node with
  | .group index body =>
    rcases List.mem_cons.mp h with rfl | h
    · exact List.infix_rfl
    · exact List.infix_cons (groups_within body h)
  | lookahead negated body =>
    rcases List.mem_cons.mp h with rfl | h
    · exact List.infix_rfl
    · exact groups_within body h
  | repeated min max greedy offset body =>
    rcases List.mem_cons.mp h with rfl | h
    · exact List.infix_rfl
    · exact groups_within body h
  | concat nodes =>
    rcases List.mem_cons.mp h with rfl | h
    · exact List.infix_rfl
    · exact groupsAll_within h
  | alternate branches =>
    rcases List.mem_cons.mp h with rfl | h
    · exact List.infix_rfl
    · exact groupsAll_within h
  | empty | char _ | any | charClass _ | lineStart | lineEnd | wordBoundary _ | backref _ =>
    obtain rfl := List.mem_singleton.mp h
    exact List.infix_rfl

theorem groupsAll_within {nodes : List Node} {sub : Node} (h : sub ∈ subtreesAll nodes) :
    sub.groups <:+: groupsAll nodes := by
  match nodes with
  | [] => cases h
  | node :: nodes =>
    rcases List.mem_append.mp h with h | h
    · exact (groups_within node h).trans (List.prefix_append _ _).isInfix
    · exact (groupsAll_within h).trans (List.suffix_append _ _).isInfix
end

/-- What is true of one node of a pattern of `total` groups: its class and its counts are in order, it
wraps nothing that needs no wrapping, and a back reference has a group to refer to. -/
def Sound (total : Nat) : Node → Prop
  | charClass cls => ∀ item ∈ cls.items, item.Ordered
  | repeated min max _ _ _ => (Bounds.mk min max).Allowed
  | concat nodes => 2 ≤ nodes.length ∧ ∀ node ∈ nodes, node.isEmpty = false
  | alternate branches => 2 ≤ branches.length
  | backref n => 1 ≤ n ∧ n ≤ total
  | _ => True

/-- Every node of a tree is sound. -/
def AllSound (total : Nat) (node : Node) : Prop :=
  ∀ sub ∈ node.subtrees, sub.Sound total

/-- The nodes inside a node. -/
def inner : Node → List Node
  | group _ body | lookahead _ body | repeated _ _ _ _ body => body.subtrees
  | concat nodes => subtreesAll nodes
  | alternate branches => subtreesAll branches
  | _ => []

theorem allSound_iff {total : Nat} {node : Node} :
    node.AllSound total ↔ node.Sound total ∧ ∀ sub ∈ node.inner, sub.Sound total := by
  rw [← List.forall_mem_cons]
  cases node <;> exact Iff.rfl

mutual
theorem branched_of_allSound {total : Nat} (node : Node) (h : node.AllSound total) :
    node.Branched := by
  match node with
  | .group _ body | lookahead _ body | repeated _ _ _ _ body =>
    exact branched_of_allSound body (List.forall_mem_cons.mp h).2
  | concat nodes => exact branchedAll_of_allSound (List.forall_mem_cons.mp h).2
  | alternate branches =>
    obtain ⟨hlength, hb⟩ := List.forall_mem_cons.mp h
    have htwo : 2 ≤ branches.length := hlength
    exact ⟨List.ne_nil_of_length_pos (by omega), branchedAll_of_allSound hb⟩
  | empty | char _ | any | charClass _ | lineStart | lineEnd | wordBoundary _ | backref _ => trivial

theorem branchedAll_of_allSound {total : Nat} {nodes : List Node}
    (h : ∀ sub ∈ subtreesAll nodes, sub.Sound total) : BranchedAll nodes := by
  match nodes with
  | [] => trivial
  | node :: nodes =>
    obtain ⟨hn, hns⟩ := List.forall_mem_append.mp h
    exact ⟨branched_of_allSound node hn, branchedAll_of_allSound hns⟩
end

end Node

namespace Consecutive

theorem within {gs hs : List Nat} (h : Consecutive hs) (hi : gs <:+: hs) : Consecutive gs := by
  obtain ⟨left, right, rfl⟩ := hi
  exact h.append.1.append.2.1

end Consecutive
end VbaWorkbench.Pattern
