import VbaWorkbench.Pattern.Program

namespace VbaWorkbench.Pattern

/-- The instructions stand in the program from `pc` on. -/
def CodeAt (insts : Array Inst) (pc : Nat) (code : List Inst) : Prop :=
  ∀ i inst, code[i]? = some inst → insts[pc + i]? = some inst

namespace CodeAt

variable {insts : Array Inst} {pc : Nat} {inst : Inst} {code more : List Inst}

theorem left (h : CodeAt insts pc (code ++ more)) : CodeAt insts pc code := by
  intro i inst hi
  exact h i inst (List.getElem?_append_left (List.getElem?_eq_some_iff.mp hi).1 ▸ hi)

theorem right (h : CodeAt insts pc (code ++ more)) : CodeAt insts (pc + code.length) more := by
  intro i inst hi
  have := h (code.length + i) inst (by rw [List.getElem?_append_right (by omega)]; simpa using hi)
  rwa [← Nat.add_assoc] at this

theorem head (h : CodeAt insts pc (inst :: code)) : insts[pc]? = some inst :=
  h 0 inst rfl

theorem tail (h : CodeAt insts pc (inst :: code)) : CodeAt insts (pc + 1) code := by
  have happ : CodeAt insts pc ([inst] ++ code) := h
  exact happ.right

end CodeAt

theorem length_iteration (span : Option GroupSpan) (code : Place → List Inst) (size : Nat)
    (hc : ∀ p, (code p).length = size) (here : Place) :
    (iteration span code here).length = size + span.isSome.toNat := by
  cases span <;> simp [iteration, hc]

theorem length_guarded (span : Option GroupSpan) (code : Place → List Inst) (size : Nat)
    (hc : ∀ p, (code p).length = size) (here : Place) :
    (guarded span code here).length = size + span.isSome.toNat + 2 := by
  simp [guarded, length_iteration span code size hc]

theorem length_copies (size marks : Nat) (code : Place → List Inst)
    (hc : ∀ p, (code p).length = size) (n : Nat) (here : Place) :
    (copies size marks code n here).length = n * size := by
  induction n generalizing here with
  | zero => simp [copies]
  | succ n ih => rw [copies, List.length_append, hc, ih, Nat.succ_mul, Nat.add_comm]

/-- Copies of nothing are nothing. -/
theorem copies_of_size_zero (marks : Nat) (code : Place → List Inst)
    (hc : ∀ p, (code p).length = 0) (n : Nat) (here : Place) :
    copies 0 marks code n here = [] :=
  List.eq_nil_of_length_eq_zero (by simp [length_copies 0 marks code hc])

namespace Node

/-- The size of one required iteration of a body. -/
def iterationSize (body : Node) : Nat :=
  body.size + body.groupSpan?.isSome.toNat

def iterationCode (body : Node) (here : Place) : List Inst :=
  iteration body.groupSpan? (fun p => body.code p) here

/-- An optional iteration behind the choice to leave for `exit`. -/
def choiceCode (greedy : Bool) (body : Node) (exit : Nat) (here : Place) : List Inst :=
  branch greedy (here.pc + 1) exit ::
    guarded body.groupSpan? (fun p => body.code p) { here with pc := here.pc + 1 }

/-- The optional iterations of a repetition. -/
def optionalCode (max : Option Nat) (min : Nat) (greedy : Bool) (body : Node) (here : Place) :
    List Inst :=
  match max with
  | none => choiceCode greedy body (here.pc + body.iterationSize + 4) here ++ [.jump here.pc]
  | some max =>
    copies (body.iterationSize + 3) (body.marks + 1)
      (choiceCode greedy body (here.pc + (max - min) * (body.iterationSize + 3))) (max - min) here

theorem size_repeated (min : Nat) (max : Option Nat) (greedy : Bool) (offset : Nat) (body : Node) :
    (repeated min max greedy offset body).size = min * body.iterationSize +
      optionalCount min max * (body.iterationSize + 3) + max.isNone.toNat := by
  rw [size]
  rfl

mutual
theorem length_code (node : Node) (here : Place) : (node.code here).length = node.size := by
  match node with
  | empty | char _ | any | charClass _ | lineStart | lineEnd | wordBoundary _ | backref _ => rfl
  | .group index body => simp [code, size, length_code body]
  | lookahead negated body => simp [code, size, length_code body]
  | repeated min max greedy offset body =>
    have hc : ∀ p, (body.code p).length = body.size := length_code body
    have hi : ∀ p, (iteration body.groupSpan? (fun q => body.code q) p).length =
        body.size + body.groupSpan?.isSome.toNat := length_iteration _ _ _ hc
    have hg : ∀ p, (guarded body.groupSpan? (fun q => body.code q) p).length =
        body.size + body.groupSpan?.isSome.toNat + 2 := length_guarded _ _ _ hc
    cases max with
    | none =>
      simp only [code, size, optionalCount, List.length_append, List.length_cons, List.length_nil,
        hg]
      split
      · rename_i h0
        simp [h0]
      · rw [length_copies _ _ _ hi]
        simp
    | some max =>
      simp only [code, size, optionalCount, List.length_append]
      rw [length_copies _ _ _ fun p => by rw [List.length_cons, hg]]
      split
      · rename_i h0
        simp [h0]
      · rw [length_copies _ _ _ hi]
        simp
  | concat nodes => exact length_codeAll nodes here
  | alternate branches => exact length_codeBranches branches here _

theorem length_codeAll (nodes : List Node) (here : Place) :
    (codeAll here nodes).length = sizeAll nodes := by
  match nodes with
  | [] => rfl
  | node :: nodes => simp [codeAll, sizeAll, length_code node, length_codeAll nodes]

theorem length_codeBranches (branches : List Node) (here : Place) (exit : Nat) :
    (codeBranches here exit branches).length = sizeAll branches + 2 * (branches.length - 1) := by
  match branches with
  | [] => rfl
  | [node] => simp [codeBranches, sizeAll, length_code node]
  | node :: next :: nodes =>
    simp [codeBranches, sizeAll, length_code node, length_codeBranches (next :: nodes)]
    omega
end

theorem length_iterationCode (body : Node) (here : Place) :
    (body.iterationCode here).length = body.iterationSize :=
  length_iteration _ _ _ (length_code body) here

theorem length_choiceCode (greedy : Bool) (body : Node) (exit : Nat) (here : Place) :
    (choiceCode greedy body exit here).length = body.iterationSize + 3 := by
  rw [choiceCode, List.length_cons, length_guarded _ _ _ (length_code body)]
  rfl

/-- The required iterations and then the optional ones. -/
theorem code_repeated (min : Nat) (max : Option Nat) (greedy : Bool) (offset : Nat) (body : Node)
    (here : Place) :
    (repeated min max greedy offset body).code here =
      copies body.iterationSize body.marks body.iterationCode min here ++
        optionalCode max min greedy body
          ⟨here.pc + min * body.iterationSize, here.mark + min * body.marks⟩ := by
  have hrequired : (if body.iterationSize = 0 then []
      else copies body.iterationSize body.marks body.iterationCode min here) =
      copies body.iterationSize body.marks body.iterationCode min here := by
    split
    · rename_i h0
      rw [h0, copies_of_size_zero _ _ fun p => by rw [length_iterationCode, h0]]
    · rfl
  rw [← hrequired]
  cases max with
  | none =>
    simp only [code, List.append_assoc]
    rfl
  | some max =>
    simp only [code]
    rfl

end Node
end VbaWorkbench.Pattern
