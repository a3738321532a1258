import VbaWorkbench.Proofs.Pattern.Compiled

namespace VbaWorkbench.Pattern

/-- The addresses that an instruction at `pc` may lead to. A lookahead leads to its body and to what
stands behind it. -/
def Inst.successors (pc : Nat) : Inst → List Nat
  | .split first second => [first, second]
  | .jump target => [target]
  | .look _ next => [pc + 1, next]
  | .succeed | .accept => []
  | _ => [pc + 1]

/-- An instruction that neither calls a lookahead nor ends one, nor accepts. -/
def Inst.IsPlain : Inst → Prop
  | .look _ _ | .succeed | .accept => False
  | _ => True

/-- A part of the program that no instruction leaves and that does not accept. -/
structure Program.Secludes (p : Program) (area : Nat → Prop) : Prop where
  closed : ∀ pc inst, area pc → p.insts[pc]? = some inst → ∀ t ∈ inst.successors pc, area t
  never_accepts : ∀ pc, area pc → p.insts[pc]? ≠ some .accept

/-- Code that is placed at `pc` and leads nowhere but to the addresses from `first` to `stop`. The
body of a lookahead leads nowhere but into itself and to its end. -/
inductive Framed : (first stop pc : Nat) → List Inst → Prop
  | nil (first stop pc : Nat) : Framed first stop pc []
  | cons {first stop pc : Nat} {inst : Inst} {code : List Inst} : inst.IsPlain →
      (∀ t ∈ inst.successors pc, first ≤ t ∧ t ≤ stop) → Framed first stop (pc + 1) code →
      Framed first stop pc (inst :: code)
  | look {first stop pc next : Nat} {body code : List Inst} (negated : Bool) :
      Framed (pc + 1) (pc + 1 + body.length) (pc + 1) body → next = pc + body.length + 2 →
      next ≤ stop → Framed first stop next code →
      Framed first stop pc (.look negated next :: (body ++ .succeed :: code))

/-- An instruction behind a lookahead belongs to its body, ends it, or stands behind its end. -/
theorem getElem?_block {body code : List Inst} {i : Nat} {inst : Inst}
    (h : (body ++ .succeed :: code)[i]? = some inst) :
    (i < body.length ∧ body[i]? = some inst) ∨ (i = body.length ∧ inst = .succeed) ∨
      ∃ k, i = body.length + 1 + k ∧ code[k]? = some inst := by
  rcases Nat.lt_trichotomy i body.length with hlt | rfl | hgt
  · rw [List.getElem?_append_left hlt] at h
    exact .inl ⟨hlt, h⟩
  · have hinst : Inst.succeed = inst := by simpa using h
    exact .inr (.inl ⟨rfl, hinst.symm⟩)
  · obtain ⟨k, rfl⟩ : ∃ k, i = body.length + 1 + k := ⟨i - (body.length + 1), by omega⟩
    rw [List.getElem?_append_right (by omega),
      show body.length + 1 + k - body.length = k + 1 by omega, List.getElem?_cons_succ] at h
    exact .inr (.inr ⟨k, rfl, h⟩)

namespace Framed

variable {first stop first' stop' pc i : Nat} {inst : Inst} {code more : List Inst}

/-- An instruction that leads to one address alone. -/
theorem one {t : Nat} (hp : inst.IsPlain) (ht : inst.successors pc = [t])
    (hf : first ≤ t) (hs : t ≤ stop) (h : Framed first stop (pc + 1) code) :
    Framed first stop pc (inst :: code) := by
  refine .cons hp ?_ h
  rw [ht]
  exact List.forall_mem_singleton.mpr ⟨hf, hs⟩

theorem single {t : Nat} (hp : inst.IsPlain) (ht : inst.successors pc = [t])
    (hf : first ≤ t) (hs : t ≤ stop) : Framed first stop pc [inst] :=
  .one hp ht hf hs (.nil _ _ _)

theorem mono (h : Framed first stop pc code) (hf : first' ≤ first) (hs : stop ≤ stop') :
    Framed first' stop' pc code := by
  induction h with
  | nil first stop pc => exact .nil first' stop' pc
  | cons hp ht _ ih =>
    exact .cons hp (fun t hm => ⟨Nat.le_trans hf (ht t hm).1, Nat.le_trans (ht t hm).2 hs⟩)
      (ih hf hs)
  | look negated hb hn hle _ _ ih => exact .look negated hb hn (Nat.le_trans hle hs) (ih hf hs)

theorem append (h : Framed first stop pc code) (hm : Framed first stop (pc + code.length) more) :
    Framed first stop pc (code ++ more) := by
  induction h with
  | nil first stop pc => exact hm
  | cons hp ht _ ih =>
    refine .cons hp ht (ih ?_)
    rwa [Nat.add_assoc, Nat.add_comm 1]
  | @look first stop pc next body code negated hb hn hle _ _ ih =>
    rw [List.cons_append, List.append_assoc, List.cons_append]
    refine .look negated hb hn hle (ih ?_)
    have hlength : pc + (Inst.look negated next :: (body ++ .succeed :: code)).length =
        next + code.length := by
      simp only [List.length_cons, List.length_append]
      omega
    rwa [hlength] at hm

theorem copies {size marks : Nat} {piece : Place → List Inst} (n pc mark : Nat)
    (hsize : ∀ p, (piece p).length = size)
    (h : ∀ k < n, Framed first stop (pc + k * size) (piece ⟨pc + k * size, mark + k * marks⟩)) :
    Framed first stop pc (copies size marks piece n ⟨pc, mark⟩) := by
  induction n generalizing pc mark with
  | zero => exact .nil _ _ _
  | succ n ih =>
    have hhead : Framed first stop pc (piece ⟨pc, mark⟩) := by simpa using h 0 (Nat.succ_pos n)
    refine hhead.append ?_
    rw [hsize]
    refine ih _ _ fun k hk => ?_
    have hnext := h (k + 1) (Nat.succ_lt_succ hk)
    rwa [Nat.succ_mul, Nat.succ_mul, Nat.add_comm (k * size), Nat.add_comm (k * marks),
      ← Nat.add_assoc, ← Nat.add_assoc] at hnext

/-- An instruction leads to the addresses that the code keeps to, wherever it stands. -/
theorem flow (h : Framed first stop pc code) (hf : first ≤ pc) (hs : pc + code.length ≤ stop)
    (hi : code[i]? = some inst) :
    inst ≠ .accept ∧ ∀ t ∈ inst.successors (pc + i), first ≤ t ∧ t ≤ stop := by
  induction h generalizing i with
  | nil => simp at hi
  | @cons first stop pc head code hp ht _ ih =>
    cases i with
    | zero =>
      obtain rfl : head = inst := by simpa using hi
      exact ⟨by rintro rfl; exact hp, ht⟩
    | succ i =>
      have hrest := ih (by omega) (by simp only [List.length_cons] at hs; omega) (by simpa using hi)
      rwa [Nat.add_assoc, Nat.add_comm 1] at hrest
  | @look first stop pc next body code negated hb hn hle _ ihb ih =>
    simp only [List.length_cons, List.length_append] at hs
    cases i with
    | zero =>
      obtain rfl : Inst.look negated next = inst := by simpa using hi
      refine ⟨nofun, fun t ht => ?_⟩
      rcases List.mem_pair.mp ht with rfl | rfl
      · omega
      · omega
    | succ i =>
      rcases getElem?_block hi with ⟨hlt, hi⟩ | ⟨-, rfl⟩ | ⟨k, rfl, hk⟩
      · obtain ⟨hne, ht⟩ := ihb (Nat.le_refl _) (Nat.le_refl _) hi
        refine ⟨hne, fun t hm => ?_⟩
        have hbound := ht t (by rwa [Nat.add_assoc, Nat.add_comm 1])
        omega
      · exact ⟨nofun, nofun⟩
      · have hrest := ih (by omega) (by omega) hk
        rwa [show next + k = pc + (body.length + 1 + k + 1) by omega] at hrest

/-- Behind a lookahead stands its body, and an instruction that ends it. -/
theorem body_of_look {negated : Bool} {next : Nat} (h : Framed first stop pc code)
    (hi : code[i]? = some (.look negated next)) :
    ∃ body rest, code.drop (i + 1) = body ++ .succeed :: rest ∧
      Framed (pc + i + 1) (pc + i + 1 + body.length) (pc + i + 1) body := by
  induction h generalizing i with
  | nil => simp at hi
  | @cons first stop pc head code hp ht _ ih =>
    cases i with
    | zero =>
      obtain rfl : head = .look negated next := by simpa using hi
      exact hp.elim
    | succ i =>
      have hrest := ih (by simpa using hi)
      rwa [Nat.add_assoc pc, Nat.add_comm 1] at hrest
  | @look first stop pc next' body code negated' hb hn hle _ ihb ih =>
    cases i with
    | zero => exact ⟨body, code, rfl, hb⟩
    | succ i =>
      rcases getElem?_block hi with ⟨hlt, hi⟩ | ⟨-, hne⟩ | ⟨k, rfl, hk⟩
      · obtain ⟨inner, rest, hdrop, hinner⟩ := ihb hi
        refine ⟨inner, rest ++ .succeed :: code, ?_, ?_⟩
        · rw [List.drop_succ_cons, List.drop_append_of_le_length (by omega), hdrop,
            List.append_assoc, List.cons_append]
        · rwa [Nat.add_assoc pc, Nat.add_comm 1] at hinner
      · cases hne
      · obtain ⟨inner, rest, hdrop, hinner⟩ := ih hk
        refine ⟨inner, rest, ?_, ?_⟩
        · rw [List.drop_succ_cons, List.drop_append, List.drop_of_length_le (by omega),
            show body.length + 1 + k + 1 - body.length = k + 1 + 1 by omega]
          exact hdrop
        · rwa [show next' + k = pc + (body.length + 1 + k + 1) by omega] at hinner

end Framed

section Repetitions

variable {body : Node}

/-- The code of a body keeps to itself and to its end, wherever it is placed. -/
def Node.Secluded (body : Node) : Prop :=
  ∀ pc mark, Framed pc (pc + body.size) pc (body.code ⟨pc, mark⟩)

theorem framed_iteration (hb : body.Secluded) (pc mark : Nat) :
    Framed pc (pc + body.iterationSize) pc (body.iterationCode ⟨pc, mark⟩) := by
  unfold Node.iterationCode Node.iterationSize iteration
  cases body.groupSpan? with
  | none => exact hb pc mark
  | some span =>
    simp only [Option.isSome_some, Bool.toNat_true]
    have hrest := (hb (pc + 1) mark).mono (show pc ≤ pc + 1 by omega)
      (show pc + 1 + body.size ≤ pc + (body.size + 1) by omega)
    exact .one trivial rfl (by omega) (by omega) hrest

theorem framed_choice (hb : body.Secluded) (greedy : Bool) {exit pc : Nat} (mark : Nat)
    (hexit : pc + (body.iterationSize + 3) ≤ exit) :
    Framed pc exit pc (body.choiceCode greedy exit ⟨pc, mark⟩) := by
  have hbranch : ∀ t ∈ (branch greedy (pc + 1) exit).successors pc, pc ≤ t ∧ t ≤ exit := by
    intro t ht
    have hway : t = pc + 1 ∨ t = exit := by
      cases greedy with
      | true => exact List.mem_pair.mp ht
      | false => exact (List.mem_pair.mp ht).symm
    omega
  have hplain : (branch greedy (pc + 1) exit).IsPlain := by
    cases greedy <;> trivial
  have hiteration : Framed pc exit (pc + 1 + 1) (body.iterationCode ⟨pc + 1 + 1, mark + 1⟩) :=
    (framed_iteration hb (pc + 1 + 1) (mark + 1)).mono (by omega) (by omega)
  have hlength := body.length_iterationCode ⟨pc + 1 + 1, mark + 1⟩
  have hguarded : Framed pc exit (pc + 1)
      (.mark mark :: (body.iterationCode ⟨pc + 1 + 1, mark + 1⟩ ++ [.progress mark])) :=
    .one trivial rfl (by omega) (by omega)
      (hiteration.append (.single trivial rfl (by omega) (by omega)))
  exact .cons hplain hbranch hguarded

theorem framed_optional (hb : body.Secluded) (min : Nat) (max : Option Nat) (greedy : Bool)
    (pc mark : Nat) :
    Framed pc (pc + optionalCount min max * (body.iterationSize + 3) + max.isNone.toNat) pc
      (body.optionalCode max min greedy ⟨pc, mark⟩) := by
  cases max with
  | none =>
    simp only [optionalCount, Nat.one_mul, Option.isNone_none, Bool.toNat_true]
    have hexit : pc + (body.iterationSize + 3) ≤ pc + body.iterationSize + 4 := by omega
    have hback : pc ≤ pc + body.iterationSize + 4 := by omega
    exact (framed_choice hb greedy mark hexit).append (.single trivial rfl (Nat.le_refl pc) hback)
  | some max =>
    simp only [optionalCount, Option.isNone_some, Bool.toNat_false, Nat.add_zero]
    refine .copies _ pc mark (fun p => Node.length_choiceCode _ _ _ _) fun k hk => ?_
    have hsize : (k + 1) * (body.iterationSize + 3) ≤ (max - min) * (body.iterationSize + 3) :=
      Nat.mul_le_mul_right _ hk
    rw [Nat.succ_mul] at hsize
    have hexit : pc + k * (body.iterationSize + 3) + (body.iterationSize + 3) ≤
        pc + (max - min) * (body.iterationSize + 3) := by omega
    exact (framed_choice hb greedy _ hexit).mono (Nat.le_add_right _ _) (Nat.le_refl _)

theorem framed_repeated (hb : body.Secluded) (min : Nat) (max : Option Nat) (greedy : Bool)
    (offset : Nat) : (Node.repeated min max greedy offset body).Secluded := by
  intro pc mark
  rw [Node.code_repeated, Node.size_repeated]
  have hoptional := framed_optional hb min max greedy (pc + min * body.iterationSize)
    (mark + min * body.marks)
  refine .append (.copies min pc mark (Node.length_iterationCode body) fun k hk => ?_) ?_
  · have hsize : (k + 1) * body.iterationSize ≤ min * body.iterationSize :=
      Nat.mul_le_mul_right _ hk
    rw [Nat.succ_mul] at hsize
    exact (framed_iteration hb _ _).mono (by omega) (by omega)
  · rw [length_copies _ _ _ (Node.length_iterationCode body)]
    exact hoptional.mono (by omega) (by omega)

end Repetitions

namespace Node

mutual
/-- The code of a node leads nowhere but into itself and to its end, and so do the bodies of its
lookaheads. -/
theorem secluded (node : Node) : node.Secluded := by
  intro pc mark
  match node with
  | empty => exact .nil _ _ _
  | char _ | any | charClass _ | lineStart | lineEnd | wordBoundary _ | backref _ =>
    exact .single trivial rfl (Nat.le_succ pc) (Nat.le_refl _)
  | .group index body =>
    have hb := (secluded body (pc + 1) mark).mono (show pc ≤ pc + 1 by omega)
      (show pc + 1 + body.size ≤ pc + (body.size + 2) by omega)
    have hlength := length_code body ⟨pc + 1, mark⟩
    exact .one trivial rfl (by omega) (show pc + 1 ≤ pc + (body.size + 2) by omega)
      (hb.append (.single trivial rfl (by omega) (by omega)))
  | lookahead negated body =>
    have hb := secluded body (pc + 1) mark
    rw [← length_code body ⟨pc + 1, mark⟩] at hb
    have hnext : pc + body.size + 2 = pc + (body.code ⟨pc + 1, mark⟩).length + 2 := by
      rw [length_code]
    exact .look negated hb hnext (Nat.le_of_eq (Nat.add_assoc pc _ 2)) (.nil _ _ _)
  | repeated min max greedy offset body =>
    exact framed_repeated (secluded body) min max greedy offset pc mark
  | concat nodes => exact secluded_all nodes pc mark
  | alternate branches => exact secluded_any branches pc mark _ (Nat.le_refl _)

theorem secluded_all (nodes : List Node) (pc mark : Nat) :
    Framed pc (pc + sizeAll nodes) pc (codeAll ⟨pc, mark⟩ nodes) := by
  match nodes with
  | [] => exact .nil _ _ _
  | node :: nodes =>
    have hsize : sizeAll (node :: nodes) = node.size + sizeAll nodes := rfl
    rw [hsize]
    have hfirst := secluded node pc mark
    have hrest := secluded_all nodes (pc + node.size) (mark + node.marks)
    refine (hfirst.mono (Nat.le_refl _) (by omega)).append ?_
    rw [length_code]
    exact hrest.mono (by omega) (by omega)

theorem secluded_any (branches : List Node) (pc mark exit : Nat)
    (hexit : pc + (sizeAll branches + 2 * (branches.length - 1)) ≤ exit) :
    Framed pc exit pc (codeBranches ⟨pc, mark⟩ exit branches) := by
  match branches with
  | [] => exact .nil _ _ _
  | [node] =>
    have hsize : sizeAll [node] = node.size + 0 := rfl
    rw [hsize] at hexit
    exact (secluded node pc mark).mono (Nat.le_refl _) (by omega)
  | node :: next :: nodes =>
    have hsize : sizeAll (node :: next :: nodes) = node.size + sizeAll (next :: nodes) := rfl
    simp only [List.length_cons] at hexit
    rw [hsize] at hexit
    have hfirst := (secluded node (pc + 1) mark).mono (show pc ≤ pc + 1 by omega)
      (show pc + 1 + node.size ≤ exit by omega)
    have hrest := secluded_any (next :: nodes) (pc + node.size + 2) (mark + node.marks) exit
      (by simp only [List.length_cons]; omega)
    have hsplit : ∀ t ∈ [pc + 1, pc + node.size + 2], pc ≤ t ∧ t ≤ exit := by
      intro t ht
      rcases List.mem_pair.mp ht with rfl | rfl <;> omega
    refine .cons trivial hsplit (hfirst.append (.one trivial rfl (by omega) (Nat.le_refl exit) ?_))
    rw [length_code, show pc + 1 + node.size + 1 = pc + node.size + 2 by omega]
    exact hrest.mono (by omega) (Nat.le_refl _)
end

end Node

/-- The body of a lookahead and the instruction that ends it are secluded. -/
theorem Program.Realizes.secludes_body {program : Program} {node : Node}
    (h : program.Realizes node) {pc next : Nat} {negated : Bool}
    (hi : program.insts[pc]? = some (.look negated next)) :
    ∃ area, program.Secludes area ∧ area (pc + 1) := by
  have hframed : Framed 0 node.size 0 (node.code ⟨0, 0⟩) := by
    have hsecluded := node.secluded 0 0
    rwa [Nat.zero_add] at hsecluded
  have hcode : (node.code ⟨0, 0⟩)[pc]? = some (.look negated next) := by
    have hall : (node.code ⟨0, 0⟩ ++ [Inst.accept])[pc]? = some (.look negated next) := by
      simpa [h.insts] using hi
    rcases (h.inst_fits hi).2 with hne | hlt
    · cases hne
    · rwa [List.getElem?_append_left (by rwa [Node.length_code])] at hall
  obtain ⟨body, rest, hdrop, hbody⟩ := hframed.body_of_look hcode
  rw [Nat.zero_add] at hbody
  -- What stands at an address of the body, and at its end.
  have hat : ∀ i inst, program.insts[pc + 1 + i]? = some inst → i ≤ body.length →
      body[i]? = some inst ∨ inst = .succeed := by
    intro i inst hinst hle
    have hblock : (body ++ .succeed :: rest)[i]? = some inst := by
      have hlength := congrArg List.length hdrop
      rw [List.length_drop, List.length_append, List.length_cons] at hlength
      rw [h.insts, List.getElem?_toArray, List.getElem?_append_left (by omega)] at hinst
      rwa [← hdrop, List.getElem?_drop]
    rcases getElem?_block hblock with ⟨-, hi⟩ | ⟨-, hs⟩ | ⟨k, hk, -⟩
    · exact .inl hi
    · exact .inr hs
    · omega
  refine ⟨fun a => pc + 1 ≤ a ∧ a ≤ pc + 1 + body.length, ⟨?_, ?_⟩, Nat.le_refl _, by omega⟩
  · rintro a inst ⟨hl, hr⟩ hinst
    obtain ⟨i, rfl⟩ := Nat.exists_eq_add_of_le hl
    rcases hat i inst hinst (by omega) with hi | rfl
    · exact (hbody.flow (Nat.le_refl _) (Nat.le_refl _) hi).2
    · exact nofun
  · rintro a ⟨hl, hr⟩ hinst
    obtain ⟨i, rfl⟩ := Nat.exists_eq_add_of_le hl
    rcases hat i _ hinst (by omega) with hi | hs
    · exact (hbody.flow (Nat.le_refl _) (Nat.le_refl _) hi).1 rfl
    · cases hs

end VbaWorkbench.Pattern
