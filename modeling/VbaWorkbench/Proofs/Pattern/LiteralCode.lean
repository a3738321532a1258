import VbaWorkbench.Proofs.Pattern.GroupScan
import VbaWorkbench.Proofs.Pattern.Leading
import VbaWorkbench.Proofs.Pattern.RenderedSymbols
import VbaWorkbench.Pattern.Basic

namespace VbaWorkbench.Pattern

/-- The characters that can begin something other than themselves. -/
def isOperator (c : Char) : Bool :=
  c ∈ ['\\', '^', '$', '.', '|', '?', '*', '+', '(', ')', '[', '{']

/-- The program that looks for a text. -/
def Program.literal (needle : Text) : Program :=
  ⟨(needle.map Inst.char ++ [Inst.accept]).toArray, 0, 0⟩

section Symbols

variable {c : Char} {t : Text}

theorem readSymbol_literal (h : isOperator c = false) (offset : Nat) (rest : Text) :
    readSymbol offset c rest = .ok ⟨.atom (.char c), [], 1⟩ := by
  unfold readSymbol
  split
  all_goals first | rfl | cases h

theorem groupTotal_literal (h : ∀ c ∈ t, isOperator c = false) : groupTotal t = 0 := by
  induction t with
  | nil => rw [groupTotal]
  | cons c t ih =>
    obtain ⟨hc, ht⟩ := List.forall_mem_cons.mp h
    have hother : c ∉ ['\\', '[', '('] := by
      intro hm
      simp only [List.mem_cons, List.not_mem_nil, or_false] at hm
      rcases hm with rfl | rfl | rfl <;> cases hc
    rw [groupTotal_other hother]
    exact ih ht

theorem spells_literal (h : ∀ c ∈ t, isOperator c = false) (rest : Text) :
    Spells t (t.map fun c => .atom (.char c)) rest := by
  induction t with
  | nil => exact .nil rest
  | cons c t ih =>
    obtain ⟨hc, ht⟩ := List.forall_mem_cons.mp h
    have hone : Spells [c] [.atom (.char c)] (t ++ rest) :=
      .one fun offset => readSymbol_literal hc offset _
    exact hone.append (ih ht)

end Symbols

/-- Characters are read as items, one by one. -/
theorem steps_chars (total : Nat) {cs : Text} {ps : List PlacedSymbol}
    (hps : ps.map (·.symbol) = cs.map fun c => .atom (.char c)) (s : ParseState) :
    ∃ level, s.steps total ps = .ok ⟨level, s.groups, s.count⟩ ∧
      level.settle = s.level.add (cs.map .char) := by
  induction cs generalizing ps s with
  | nil =>
    obtain rfl := List.map_eq_nil_iff.mp hps
    exact ⟨s.level, rfl, rfl⟩
  | cons c cs ih =>
    cases ps with
    | nil => cases hps
    | cons p ps =>
      obtain ⟨hp, hps⟩ := List.cons.inj hps
      have hstep : s.step total p = .ok ⟨s.level.push (.char c), s.groups, s.count⟩ := by
        rw [ParseState.step, show p.symbol = .atom (.char c) from hp]
      obtain ⟨level, hsteps, hlevel⟩ := ih hps ⟨s.level.push (.char c), s.groups, s.count⟩
      have hpush : (s.level.push (.char c)).settle = s.level.add [.char c] :=
        Level.settle_push rfl s.level
      have hadd := Level.add_add hpush (cs.map .char)
      refine ⟨level, ?_, hlevel.trans hadd⟩
      rw [ParseState.steps, hstep]
      exact hsteps

theorem parse_literal {needle : Text} (h : ∀ c ∈ needle, isOperator c = false) :
    parse needle = .ok ⟨.ofItems (needle.map .char), 0, []⟩ := by
  obtain ⟨ps, hps, hwarnings, hread⟩ := spells_literal h [] 0
  have hend : ∀ offset, readSymbols offset [] = ⟨[], none⟩ := fun offset => by rw [readSymbols]
  rw [List.append_nil] at hread
  simp only [hend, List.append_nil] at hread
  obtain ⟨level, hsteps, hlevel⟩ := steps_chars 0 hps .initial
  have hfresh : level.settle = (Level.fresh []).add (needle.map .char) := hlevel
  obtain ⟨hbranch, hbranches⟩ := Level.branch_of_add hfresh
  have hnode : level.node = .ofItems (needle.map .char) := by
    rw [Level.node, hbranch, hbranches]
    rfl
  simp only [parse, hread, groupTotal_literal h, hsteps, List.flatMap_eq_nil_iff.mpr hwarnings]
  rw [← hnode]
  rfl

namespace Node

theorem code_ofItems (here : Place) (nodes : List Node) :
    (ofItems nodes).code here = codeAll here nodes := by
  cases nodes with
  | nil => rfl
  | cons node nodes =>
    cases nodes with
    | nil => exact (List.append_nil _).symm
    | cons next nodes => rfl

theorem codeAll_chars (here : Place) (cs : Text) : codeAll here (cs.map char) = cs.map .char := by
  induction cs generalizing here with
  | nil => rfl
  | cons c cs ih =>
    rw [List.map_cons, codeAll, ih]
    rfl

theorem oversized_chars (pc : Nat) (cs : Text) : (ofItems (cs.map char)).oversized? pc = none := by
  have hall : ∀ (cs : Text) (pc : Nat), oversizedAll? pc (cs.map char) = none := by
    intro cs
    induction cs with
    | nil => exact fun _ => rfl
    | cons c cs ih => exact fun pc => ih (pc + 1)
  match cs with
  | [] => rfl
  | [c] => rfl
  | c :: d :: cs => exact hall (c :: d :: cs) pc

theorem marks_chars (cs : Text) : (ofItems (cs.map char)).marks = 0 := by
  have hall : ∀ cs : Text, marksAll (cs.map char) = 0 := by
    intro cs
    induction cs with
    | nil => rfl
    | cons c cs ih => exact congrArg (0 + ·) ih
  match cs with
  | [] => rfl
  | [c] => rfl
  | c :: d :: cs => exact hall (c :: d :: cs)

end Node

theorem compile_literal {needle : Text} (h : ∀ c ∈ needle, isOperator c = false) :
    compile needle = .ok ⟨.literal needle, []⟩ := by
  have hprogram : Program.ofNode (.ofItems (needle.map .char)) 0 = .ok (.literal needle) := by
    simp only [Program.ofNode, Node.oversized_chars, Node.code_ofItems, Node.codeAll_chars,
      Node.marks_chars, Program.literal]
  rw [compile, parse_literal h]
  show (Program.ofNode (.ofItems (needle.map .char)) 0).bind _ = _
  rw [hprogram]
  rfl

end VbaWorkbench.Pattern
