import VbaWorkbench.Proofs.Pattern.Outcomes

namespace VbaWorkbench.Pattern

namespace GroupSpan

/-- The span from the lowest to the highest of some groups. -/
def ofGroups : List Nat → Option GroupSpan
  | [] => none
  | g :: gs => union? (some ⟨g, g⟩) (ofGroups gs)

theorem union?_assoc (a b c : Option GroupSpan) :
    union? (union? a b) c = union? a (union? b c) := by
  cases a <;> cases b <;> cases c <;> simp [union?, Nat.min_assoc, Nat.max_assoc]

theorem ofGroups_append (gs hs : List Nat) :
    ofGroups (gs ++ hs) = union? (ofGroups gs) (ofGroups hs) := by
  induction gs with
  | nil => cases hs' : ofGroups hs <;> simp [ofGroups, union?, hs']
  | cons g gs ih => rw [List.cons_append, ofGroups, ofGroups, ih, union?_assoc]

theorem ofGroups_range (first n : Nat) :
    ofGroups (List.range' first (n + 1)) = some ⟨first, first + n⟩ := by
  induction n generalizing first with
  | zero => rfl
  | succ n ih =>
    rw [List.range'_succ, ofGroups, ih]
    simp [union?]
    omega

end GroupSpan

/-- Groups numbered one after the other without a gap. -/
def Consecutive (groups : List Nat) : Prop :=
  ∃ first n, groups = List.range' first n

namespace Consecutive

theorem append {gs hs : List Nat} (h : Consecutive (gs ++ hs)) :
    Consecutive gs ∧ Consecutive hs ∧ ∀ g ∈ gs, g ∉ hs := by
  obtain ⟨first, n, h⟩ := h
  obtain ⟨k, hk, rfl, rfl⟩ := List.range'_eq_append_iff.mp h.symm
  refine ⟨⟨_, _, rfl⟩, ⟨_, _, rfl⟩, ?_⟩
  intro g hg hg'
  simp only [List.mem_range'_1] at hg hg'
  omega

theorem cons {g : Nat} {gs : List Nat} (h : Consecutive (g :: gs)) :
    Consecutive gs ∧ g ∉ gs := by
  have happ : Consecutive ([g] ++ gs) := h
  obtain ⟨_, hgs, hne⟩ := happ.append
  exact ⟨hgs, hne g (by simp)⟩

end Consecutive

namespace Node

mutual
theorem groupSpan?_eq (node : Node) : node.groupSpan? = GroupSpan.ofGroups node.groups := by
  match node with
  | .group index body => simp only [groupSpan?, groups, GroupSpan.ofGroups, groupSpan?_eq body]
  | lookahead _ body => simp only [groupSpan?, groups, groupSpan?_eq body]
  | repeated _ _ _ _ body => simp only [groupSpan?, groups, groupSpan?_eq body]
  | concat nodes => simp only [groupSpan?, groups, groupSpanAll?_eq nodes]
  | alternate branches => simp only [groupSpan?, groups, groupSpanAll?_eq branches]
  | empty | char _ | any | charClass _ | lineStart | lineEnd | wordBoundary _ | backref _ => rfl

theorem groupSpanAll?_eq (nodes : List Node) :
    groupSpanAll? nodes = GroupSpan.ofGroups (groupsAll nodes) := by
  match nodes with
  | [] => rfl
  | node :: nodes =>
    simp only [groupSpanAll?, groupsAll, GroupSpan.ofGroups_append, groupSpan?_eq node,
      groupSpanAll?_eq nodes]
end

theorem groups_of_span_none {node : Node} (h : node.groupSpan? = none) : node.groups = [] := by
  rw [groupSpan?_eq] at h
  cases hg : node.groups with
  | nil => rfl
  | cons g gs =>
    rw [hg] at h
    cases hs : GroupSpan.ofGroups gs <;> simp [GroupSpan.ofGroups, GroupSpan.union?, hs] at h

/-- The span of a node has no group in it that is not inside the node. -/
theorem mem_groups_iff {node : Node} {span : GroupSpan} (hc : Consecutive node.groups)
    (h : node.groupSpan? = some span) (g : Nat) :
    g ∈ node.groups ↔ span.first ≤ g ∧ g < span.last + 1 := by
  obtain ⟨first, n, hg⟩ := hc
  rw [groupSpan?_eq, hg] at h
  cases n with
  | zero => simp [GroupSpan.ofGroups] at h
  | succ n =>
    rw [GroupSpan.ofGroups_range, Option.some.injEq] at h
    subst h
    rw [hg, List.mem_range'_1]
    simp only [Nat.add_assoc]

mutual
/-- Each alternation has a branch. -/
def Branched : Node → Prop
  | group _ body => body.Branched
  | lookahead _ body => body.Branched
  | repeated _ _ _ _ body => body.Branched
  | concat nodes => BranchedAll nodes
  | alternate branches => branches ≠ [] ∧ BranchedAll branches
  | _ => True

def BranchedAll : List Node → Prop
  | [] => True
  | node :: nodes => node.Branched ∧ BranchedAll nodes
end

theorem groupsAll_append (ns ms : List Node) :
    groupsAll (ns ++ ms) = groupsAll ns ++ groupsAll ms := by
  induction ns with
  | nil => rfl
  | cons n ns ih => simp [groupsAll, ih]

end Node
end VbaWorkbench.Pattern
