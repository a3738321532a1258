import VbaWorkbench.Proofs.Pattern.CodeTargets
import VbaWorkbench.Proofs.Pattern.RunRefinement
import VbaWorkbench.Proofs.Results

namespace VbaWorkbench.Pattern

theorem Machine.size_newMarks (m : Machine) : m.newMarks.size = m.program.marks :=
  Array.size_replicate

/-- The program of a tree whose groups are numbered from one on. -/
structure Program.Realizes (program : Program) (node : Node) : Prop where
  groups : node.groups = List.range' 1 program.groups
  branched : node.Branched
  insts : program.insts = (node.code ⟨0, 0⟩ ++ [Inst.accept]).toArray
  marks : program.marks = node.marks

theorem compile_realizes {pattern : Text} {p : Pattern} (h : compile pattern = .ok p) :
    ∃ parsed, parse pattern = .ok parsed ∧ p.program.Realizes parsed.node := by
  obtain ⟨parsed, hparse, hnode⟩ := compile_ok h
  obtain ⟨hgroups, hbranched⟩ := parse_numbered hparse
  rw [ofNode_ok hnode]
  exact ⟨parsed, hparse, hgroups, hbranched, rfl, rfl⟩

namespace Program.Realizes

variable {program : Program} {node : Node}

theorem size_insts (h : program.Realizes node) : program.insts.size = node.size + 1 := by
  simp [h.insts, Node.length_code]

theorem codeAt (h : program.Realizes node) :
    CodeAt program.insts 0 (node.code ⟨0, 0⟩ ++ [.accept]) := by
  intro i inst hi
  simpa [h.insts] using hi

theorem accept_at_end (h : program.Realizes node) : program.insts[node.size]? = some .accept := by
  have hlast := h.codeAt.right.head
  rwa [Node.length_code, Nat.zero_add] at hlast

/-- An instruction of the program uses what the program has, and only the last one accepts. -/
theorem inst_fits (h : program.Realizes node) {pc : Nat} {inst : Inst}
    (hi : program.insts[pc]? = some inst) :
    inst.Fits ⟨node.size, program.groups, program.marks⟩ ∧ (inst = .accept ∨ pc < node.size) := by
  have hcode : (node.code ⟨0, 0⟩ ++ [Inst.accept])[pc]? = some inst := by simpa [h.insts] using hi
  rcases Nat.lt_or_ge pc node.size with hlt | hge
  · have hg : ∀ g ∈ node.groups, g ≤ program.groups := by
      intro g hg
      rw [h.groups, List.mem_range'_1] at hg
      omega
    have hfits := Node.contained node hg 0 0
    rw [List.getElem?_append_left (by rwa [Node.length_code])] at hcode
    rw [h.marks]
    simp only [Nat.zero_add] at hfits
    exact ⟨hfits inst (List.mem_of_getElem? hcode), .inr hlt⟩
  · rw [List.getElem?_append_right (by rwa [Node.length_code])] at hcode
    obtain rfl : inst = .accept := by simpa using List.mem_of_getElem? hcode
    exact ⟨trivial, .inl rfl⟩

end Program.Realizes

namespace Config

/-- A run that begins at `pos` without captures, with marks as they were left. -/
def starting (program : Program) (marks : Array Nat) (pos : Nat) : Config :=
  { initial program pos with marks := marks }

end Config
end VbaWorkbench.Pattern
