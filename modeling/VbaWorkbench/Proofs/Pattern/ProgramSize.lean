import VbaWorkbench.Proofs.Pattern.Compiled
import VbaWorkbench.Proofs.Pattern.Subtrees

namespace VbaWorkbench.Pattern

/-- If no piece is too large, neither is the last. -/
theorem check_last {size : Nat} {check : Nat → Option Nat} (n pc : Nat)
    (h : firstOversized? size check (n + 1) pc = none) : check (pc + n * size) = none := by
  induction n generalizing pc with
  | zero =>
    rw [firstOversized?, Option.or_eq_none_iff] at h
    rw [Nat.zero_mul, Nat.add_zero]
    exact h.1
  | succ n ih =>
    rw [firstOversized?, Option.or_eq_none_iff] at h
    by_cases hsize : size = 0
    · rw [hsize, Nat.mul_zero, Nat.add_zero]
      exact h.1
    · rw [if_neg hsize] at h
      rw [Nat.succ_mul, Nat.add_comm (n * size), ← Nat.add_assoc]
      exact ih (pc + size) h.2

namespace Node

section Repetitions

variable {min : Nat} {max : Option Nat} {greedy : Bool} {offset pc : Nat} {body : Node}

/-- An iteration that is not reported ends within the limit. -/
theorem iteration_within {inside : Option Nat} {size : Nat}
    (h : inside.or (if maxProgramSize < pc + size then some offset else none) = none) :
    pc + size ≤ maxProgramSize := by
  have hlimit := (Option.or_eq_none_iff.mp h).2
  split at hlimit
  · cases hlimit
  · omega

/-- A repetition without iterations adds nothing, and any other ends at most two instructions after
its last iteration. -/
theorem repeated_within (h : (repeated min max greedy offset body).oversized? pc = none) :
    (repeated min max greedy offset body).size = 0 ∨
      pc + (repeated min max greedy offset body).size ≤ maxProgramSize + 2 := by
  rw [oversized?, Option.or_eq_none_iff] at h
  obtain ⟨hrequired, hoptional⟩ := h
  have hnone : max.isNone.toNat ≤ optionalCount min max := by
    cases max <;> simp [optionalCount]
  have hone : max.isNone.toNat ≤ 1 := Bool.toNat_le max.isNone
  rw [size_repeated, iterationSize]
  cases hcount : optionalCount min max with
  | succ n =>
    rw [hcount] at hoptional
    have hlast := iteration_within (check_last n _ hoptional)
    right
    rw [Nat.succ_mul]
    omega
  | zero =>
    rw [hcount] at hnone
    cases min with
    | zero =>
      left
      omega
    | succ n =>
      have hlast := iteration_within (check_last n _ hrequired)
      right
      rw [Nat.succ_mul]
      omega

end Repetitions

-- A node of one instruction, or what a group, a lookahead or a choice has around its parts, is far
-- less than what each node may add; two of it are kept back for the jump that leaves a branch.
mutual
/-- Behind a node the program is no further beyond the limit than before it, but for what its nodes
may add. The limit is looked at only where an iteration ends, so the nodes outside of repetitions go
beyond it unseen. -/
theorem size_within (node : Node) {pc : Nat} (h : node.oversized? pc = none) :
    pc + node.size + 2 ≤ max pc maxProgramSize + 4 * node.subtrees.length := by
  match node with
  | empty | char _ | any | charClass _ | lineStart | lineEnd | wordBoundary _ | backref _ =>
    simp only [size, subtrees, List.length_singleton]
    omega
  | .group index body | lookahead negated body =>
    rw [oversized?] at h
    have hbody := size_within body h
    simp only [size, subtrees, List.length_cons]
    omega
  | repeated min max greedy offset body =>
    have hsize := repeated_within h
    simp only [subtrees, List.length_cons]
    omega
  | concat nodes =>
    rw [oversized?] at h
    have hall := sizeAll_within nodes h
    simp only [size, subtrees, List.length_cons]
    omega
  | alternate branches =>
    rw [oversized?] at h
    have hbranches := sizeBranches_within branches h
    simp only [size, subtrees, List.length_cons]
    omega

theorem sizeAll_within (nodes : List Node) {pc : Nat} (h : oversizedAll? pc nodes = none) :
    pc + sizeAll nodes ≤ max pc maxProgramSize + 4 * (subtreesAll nodes).length := by
  match nodes with
  | [] =>
    simp only [sizeAll, subtreesAll, List.length_nil]
    omega
  | node :: nodes =>
    rw [oversizedAll?, Option.or_eq_none_iff] at h
    have hfirst := size_within node h.1
    have hrest := sizeAll_within nodes h.2
    simp only [sizeAll, subtreesAll, List.length_append]
    omega

theorem sizeBranches_within (branches : List Node) {pc : Nat}
    (h : oversizedBranches? pc branches = none) :
    pc + (sizeAll branches + 2 * (branches.length - 1)) ≤
      max pc maxProgramSize + 4 * (subtreesAll branches).length := by
  match branches with
  | [] =>
    simp only [sizeAll, subtreesAll, List.length_nil]
    omega
  | [node] =>
    rw [oversizedBranches?] at h
    have hlast := size_within node h
    simp only [sizeAll, subtreesAll, List.length_append, List.length_cons, List.length_nil]
    omega
  | node :: next :: nodes =>
    rw [oversizedBranches?, Option.or_eq_none_iff] at h
    · have hfirst := size_within node h.1
      have hrest := sizeBranches_within (next :: nodes) h.2
      rw [sizeAll, subtreesAll, List.length_append, List.length_cons]
      rw [List.length_cons] at hrest ⊢
      omega
    · simp
end

end Node

/-- The program of any tree, whoever made it, is larger than the limit by no more than its nodes can
add. -/
theorem Program.size_ofNode {node : Node} {groups : Nat} {program : Program}
    (h : ofNode node groups = .ok program) :
    program.insts.size + 1 ≤ maxProgramSize + 4 * node.subtrees.length := by
  rw [ofNode_ok h]
  rw [ofNode] at h
  split at h
  · cases h
  · rename_i hwithin
    have hsize := Node.size_within node hwithin
    simp only [List.size_toArray, List.length_append, Node.length_code, List.length_singleton]
    omega

/-- The program of a pattern has no more instructions beyond the limit than four for each node of
the pattern's tree and three, however deep its repetitions are nested. -/
theorem compile_size_within {pattern : Text} {p : Pattern} (h : compile pattern = .ok p) :
    ∃ parsed, parse pattern = .ok parsed ∧
      p.program.insts.size ≤ maxProgramSize + 4 * parsed.node.subtrees.length + 3 := by
  obtain ⟨parsed, hparse, hnode⟩ := compile_ok h
  refine ⟨parsed, hparse, ?_⟩
  have hsize := Program.size_ofNode hnode
  omega

/-- Counts inside counts, with a group, a lookahead and a choice between them. -/
theorem compile_size_within_nested :
    let pattern := "(?:(a{2,}|b)(?=c){3}){2,4}".toList
    ∃ p parsed, compile pattern = .ok p ∧ parse pattern = .ok parsed ∧
      p.program.insts.size ≤ maxProgramSize + 4 * parsed.node.subtrees.length + 3 := by
  intro pattern
  have hsome : (compile pattern).toOption.isSome = true := by decide +kernel
  obtain ⟨p, hp⟩ := Option.isSome_iff_exists.mp hsome
  obtain ⟨parsed, hparse, hsize⟩ := compile_size_within (ok_of_toOption hp)
  exact ⟨p, parsed, ok_of_toOption hp, hparse, hsize⟩

end VbaWorkbench.Pattern
