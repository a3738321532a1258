import VbaWorkbench.Proofs.Pattern.CodePlacement
import VbaWorkbench.Proofs.Pattern.Numbering

namespace VbaWorkbench.Pattern

/-- How far the operands of a piece of code may go: to the address at which it is left, the last
group and the mark behind its last. -/
structure Reach where
  exit : Nat
  groups : Nat
  marks : Nat

/-- The operands of an instruction lie within these limits. -/
def Inst.Fits (r : Reach) : Inst → Prop
  | .split first second => first ≤ r.exit ∧ second ≤ r.exit
  | .jump target => target ≤ r.exit
  | .save slot => slot / 2 ≤ r.groups
  | .reset span => span.last ≤ r.groups
  | .mark index => index < r.marks
  | .progress index => index < r.marks
  | .look _ next => next ≤ r.exit
  | _ => True

/-- All the instructions of a piece of code do so. -/
def FitsAll (r : Reach) (code : List Inst) : Prop :=
  ∀ inst ∈ code, inst.Fits r

namespace FitsAll

variable {r : Reach} {inst : Inst} {code more : List Inst}

theorem nil (r : Reach) : FitsAll r [] := by
  simp [FitsAll]

theorem cons (h : inst.Fits r) (hc : FitsAll r code) : FitsAll r (inst :: code) :=
  List.forall_mem_cons.mpr ⟨h, hc⟩

theorem append (h : FitsAll r code) (hm : FitsAll r more) : FitsAll r (code ++ more) :=
  List.forall_mem_append.mpr ⟨h, hm⟩

theorem single (h : inst.Fits r) : FitsAll r [inst] :=
  cons h (nil r)

theorem mono {exit exit' groups marks marks' : Nat} (h : FitsAll ⟨exit, groups, marks⟩ code)
    (he : exit ≤ exit') (hm : marks ≤ marks') : FitsAll ⟨exit', groups, marks'⟩ code := by
  intro inst hi
  have hf := h inst hi
  cases inst with
  | split first second => exact ⟨Nat.le_trans hf.1 he, Nat.le_trans hf.2 he⟩
  | jump target => exact Nat.le_trans hf he
  | save slot => exact hf
  | reset span => exact hf
  | mark index => exact Nat.lt_of_lt_of_le hf hm
  | progress index => exact Nat.lt_of_lt_of_le hf hm
  | look negated next => exact Nat.le_trans hf he
  | char _ | any | charClass _ | lineStart | lineEnd | wordBoundary _ | backref _ | succeed
  | accept => trivial

theorem copies {size marks : Nat} {piece : Place → List Inst} (n pc mark : Nat)
    (h : ∀ k < n, FitsAll r (piece ⟨pc + k * size, mark + k * marks⟩)) :
    FitsAll r (copies size marks piece n ⟨pc, mark⟩) := by
  induction n generalizing pc mark with
  | zero => exact nil r
  | succ n ih =>
    refine append (by simpa using h 0 (Nat.succ_pos n)) (ih _ _ fun k hk => ?_)
    have hnext := h (k + 1) (Nat.succ_lt_succ hk)
    rwa [Nat.succ_mul, Nat.succ_mul, Nat.add_comm (k * size), Nat.add_comm (k * marks),
      ← Nat.add_assoc, ← Nat.add_assoc] at hnext

end FitsAll

theorem last_le_of_span {groups : List Nat} {span : GroupSpan} {n : Nat}
    (hs : GroupSpan.ofGroups groups = some span) (h : ∀ g ∈ groups, g ≤ n) : span.last ≤ n := by
  induction groups generalizing span with
  | nil => cases hs
  | cons g gs ih =>
    obtain ⟨hg, hgs⟩ := List.forall_mem_cons.mp h
    rw [GroupSpan.ofGroups] at hs
    cases hrest : GroupSpan.ofGroups gs with
    | none =>
      rw [hrest] at hs
      cases hs
      exact hg
    | some rest =>
      rw [hrest] at hs
      cases hs
      exact Nat.max_le.mpr ⟨hg, ih hrest hgs⟩

section Repetitions

variable {body : Node} {groups : Nat}

/-- What the code of a body fits in, wherever it is placed. -/
def Node.Contained (groups : Nat) (body : Node) : Prop :=
  ∀ pc mark, FitsAll ⟨pc + body.size, groups, mark + body.marks⟩ (body.code ⟨pc, mark⟩)

theorem fits_iteration (hb : body.Contained groups) (hg : ∀ g ∈ body.groups, g ≤ groups)
    (pc mark : Nat) : FitsAll ⟨pc + body.iterationSize, groups, mark + body.marks⟩
      (body.iterationCode ⟨pc, mark⟩) := by
  unfold Node.iterationCode Node.iterationSize iteration
  cases hspan : body.groupSpan? with
  | none => exact hb pc mark
  | some span =>
    have hlast : span.last ≤ groups := last_le_of_span (Node.groupSpan?_eq body ▸ hspan) hg
    refine .cons hlast ((hb (pc + 1) mark).mono ?_ (Nat.le_refl _))
    simp only [Option.isSome_some, Bool.toNat_true]
    omega

theorem fits_choice (hb : body.Contained groups) (hg : ∀ g ∈ body.groups, g ≤ groups)
    (greedy : Bool) {exit pc : Nat} (mark : Nat) (hexit : pc + (body.iterationSize + 3) ≤ exit) :
    FitsAll ⟨exit, groups, mark + (body.marks + 1)⟩ (body.choiceCode greedy exit ⟨pc, mark⟩) := by
  have hbranch : (branch greedy (pc + 1) exit).Fits ⟨exit, groups, mark + (body.marks + 1)⟩ := by
    have hnext : pc + 1 ≤ exit := by omega
    cases greedy with
    | true => exact ⟨hnext, Nat.le_refl _⟩
    | false => exact ⟨Nat.le_refl _, hnext⟩
  have hmark : mark < mark + (body.marks + 1) := by omega
  have hiteration := fits_iteration hb hg (pc + 1 + 1) (mark + 1)
  exact .cons hbranch (.append (.cons hmark (hiteration.mono (by omega) (by omega)))
    (.single hmark))

theorem fits_optional (hb : body.Contained groups) (hg : ∀ g ∈ body.groups, g ≤ groups)
    (min : Nat) (max : Option Nat) (greedy : Bool) (pc mark : Nat) :
    FitsAll ⟨pc + optionalCount min max * (body.iterationSize + 3) + max.isNone.toNat, groups,
      mark + optionalCount min max * (body.marks + 1)⟩
      (body.optionalCode max min greedy ⟨pc, mark⟩) := by
  cases max with
  | none =>
    simp only [optionalCount, Nat.one_mul, Option.isNone_none, Bool.toNat_true]
    have hback : pc ≤ pc + (body.iterationSize + 3) + 1 := by omega
    exact .append (fits_choice hb hg greedy mark (by omega)) (.single hback)
  | some max =>
    simp only [optionalCount, Option.isNone_some, Bool.toNat_false, Nat.add_zero]
    refine .copies _ pc mark fun k hk => ?_
    have hsize : (k + 1) * (body.iterationSize + 3) ≤ (max - min) * (body.iterationSize + 3) :=
      Nat.mul_le_mul_right _ hk
    have hmarks : (k + 1) * (body.marks + 1) ≤ (max - min) * (body.marks + 1) :=
      Nat.mul_le_mul_right _ hk
    rw [Nat.succ_mul] at hsize hmarks
    have hexit : pc + k * (body.iterationSize + 3) + (body.iterationSize + 3) ≤
        pc + (max - min) * (body.iterationSize + 3) := by omega
    exact (fits_choice hb hg greedy _ hexit).mono (Nat.le_refl _) (by omega)

theorem fits_repeated (hb : body.Contained groups) (hg : ∀ g ∈ body.groups, g ≤ groups)
    (min : Nat) (max : Option Nat) (greedy : Bool) (offset : Nat) :
    (Node.repeated min max greedy offset body).Contained groups := by
  intro pc mark
  rw [Node.code_repeated, Node.size_repeated, Node.marks]
  have hoptional := fits_optional hb hg min max greedy (pc + min * body.iterationSize)
    (mark + min * body.marks)
  refine .append (.copies min pc mark fun k hk => ?_) (hoptional.mono (by omega) (by omega))
  have hsize : (k + 1) * body.iterationSize ≤ min * body.iterationSize :=
    Nat.mul_le_mul_right _ hk
  have hmarks : (k + 1) * body.marks ≤ min * body.marks := Nat.mul_le_mul_right _ hk
  rw [Nat.succ_mul] at hsize hmarks
  exact (fits_iteration hb hg _ _).mono (by omega) (by omega)

end Repetitions

namespace Node

mutual
/-- The code of a node leads nowhere but into itself and to its end, and writes only the slots of
its groups and the marks that are set aside for it. -/
theorem contained {groups : Nat} (node : Node) (hg : ∀ g ∈ node.groups, g ≤ groups) :
    node.Contained groups := by
  intro pc mark
  match node with
  | empty => exact .nil _
  | char _ | any | charClass _ | lineStart | lineEnd | wordBoundary _ | backref _ =>
    exact .single trivial
  | .group index body =>
    obtain ⟨hindex, hbody⟩ := List.forall_mem_cons.mp hg
    have hstart : (2 * index) / 2 ≤ groups := by omega
    have hstop : (2 * index + 1) / 2 ≤ groups := by omega
    have hsize : pc + 1 + body.size ≤ pc + (body.size + 2) := by omega
    have hb := contained body hbody (pc + 1) mark
    exact .cons hstart (.append (hb.mono hsize (Nat.le_refl _)) (.single hstop))
  | lookahead negated body =>
    have hsize : pc + 1 + body.size ≤ pc + (body.size + 2) := by omega
    have hb := contained body hg (pc + 1) mark
    exact .cons (Nat.le_refl _) (.append (hb.mono hsize (Nat.le_refl _)) (.single trivial))
  | repeated min max greedy offset body =>
    exact fits_repeated (contained body hg) hg min max greedy offset pc mark
  | concat nodes => exact contained_all nodes hg pc mark
  | alternate branches => exact contained_any branches hg pc mark _ (Nat.le_refl _)

theorem contained_all {groups : Nat} (nodes : List Node) (hg : ∀ g ∈ groupsAll nodes, g ≤ groups)
    (pc mark : Nat) :
    FitsAll ⟨pc + sizeAll nodes, groups, mark + marksAll nodes⟩ (codeAll ⟨pc, mark⟩ nodes) := by
  match nodes with
  | [] => exact .nil _
  | node :: nodes =>
    obtain ⟨hl, hr⟩ := List.forall_mem_append.mp hg
    have hsize : sizeAll (node :: nodes) = node.size + sizeAll nodes := rfl
    have hmarks : marksAll (node :: nodes) = node.marks + marksAll nodes := rfl
    rw [hsize, hmarks]
    have hfirst := contained node hl pc mark
    have hrest := contained_all nodes hr (pc + node.size) (mark + node.marks)
    exact .append (hfirst.mono (by omega) (by omega)) (hrest.mono (by omega) (by omega))

theorem contained_any {groups : Nat} (branches : List Node)
    (hg : ∀ g ∈ groupsAll branches, g ≤ groups) (pc mark exit : Nat)
    (hexit : pc + (sizeAll branches + 2 * (branches.length - 1)) ≤ exit) :
    FitsAll ⟨exit, groups, mark + marksAll branches⟩ (codeBranches ⟨pc, mark⟩ exit branches) := by
  match branches with
  | [] => exact .nil _
  | [node] =>
    obtain ⟨hl, -⟩ := List.forall_mem_append.mp hg
    have hsize : sizeAll [node] = node.size + 0 := rfl
    have hmarks : marksAll [node] = node.marks + 0 := rfl
    rw [hsize] at hexit
    rw [hmarks]
    exact (contained node hl pc mark).mono (by omega) (by omega)
  | node :: next :: nodes =>
    obtain ⟨hl, hr⟩ := List.forall_mem_append.mp hg
    have hsize : sizeAll (node :: next :: nodes) = node.size + sizeAll (next :: nodes) := rfl
    have hmarks : marksAll (node :: next :: nodes) = node.marks + marksAll (next :: nodes) := rfl
    simp only [List.length_cons] at hexit
    rw [hsize] at hexit
    rw [hmarks]
    have hsplit : pc + 1 ≤ exit ∧ pc + node.size + 2 ≤ exit := by omega
    have hfirst := contained node hl (pc + 1) mark
    have hrest := contained_any (next :: nodes) hr (pc + node.size + 2) (mark + node.marks) exit
      (by simp only [List.length_cons]; omega)
    exact .cons hsplit (.append (hfirst.mono (by omega) (by omega))
      (.cons (Nat.le_refl _) (hrest.mono (Nat.le_refl _) (by omega))))
end

end Node
end VbaWorkbench.Pattern
