import Mathlib.Data.List.Infix
import VbaWorkbench.Block.Statement
import VbaWorkbench.Block.Tracker
import VbaWorkbench.Token.Scan

namespace VbaWorkbench

/-- The levels of open blocks count the blocks around them and the `Case` clauses these are in. -/
structure Leveled (stack : List Frame) : Prop where
  outermost : ∀ frame ∈ stack.getLast?, frame.level = 1
  nested : stack.IsChain fun frame around => frame.level = around.level + around.inCase.toNat + 1
  inCase : ∀ frame ∈ stack, frame.inCase = true → frame.kind = .selectCase

namespace Leveled

variable {frame : Frame} {outer stack : List Frame}

theorem cons_iff : Leveled (frame :: outer) ↔
    frame.level = Tracker.depthOf outer + 1 ∧ (frame.inCase = true → frame.kind = .selectCase) ∧
      Leveled outer := by
  cases outer with
  | nil =>
    constructor
    · intro h
      exact ⟨h.outermost frame rfl, h.inCase frame List.mem_cons_self, by simp, .nil, by simp⟩
    · rintro ⟨hlevel, hcase, -⟩
      refine ⟨?_, .singleton frame, ?_⟩
      · rintro _ ⟨⟩
        exact hlevel
      · intro f hf
        rwa [List.mem_singleton.mp hf]
  | cons around outer =>
    constructor
    · rintro ⟨hlast, hchain, hcase⟩
      obtain ⟨hlevel, hchain⟩ := List.isChain_cons_cons.mp hchain
      rw [List.getLast?_cons_cons] at hlast
      refine ⟨hlevel, hcase frame List.mem_cons_self, hlast, hchain, ?_⟩
      intro f hf
      exact hcase f (List.mem_cons_of_mem frame hf)
    · rintro ⟨hlevel, hcase, hlast, hchain, hcases⟩
      refine ⟨?_, List.isChain_cons_cons.mpr ⟨hlevel, hchain⟩, ?_⟩
      · rwa [List.getLast?_cons_cons]
      · intro f hf
        rcases List.mem_cons.mp hf with rfl | hf
        · exact hcase
        · exact hcases f hf

theorem nil : Leveled [] :=
  ⟨by simp, .nil, by simp⟩

/-- Closing blocks changes nothing about those around them. -/
theorem suffix (h : Leveled stack) (hsuffix : outer <:+ stack) : Leveled outer := by
  obtain ⟨closed, rfl⟩ := hsuffix
  induction closed with
  | nil => exact h
  | cons frame closed ih => exact ih (cons_iff.mp h).2.2

theorem depthOf_eq (h : Leveled stack) :
    Tracker.depthOf stack = stack.length + stack.countP (·.inCase) := by
  induction stack with
  | nil => rfl
  | cons frame outer ih =>
    obtain ⟨hlevel, -, houter⟩ := cons_iff.mp h
    have hmarked : frame.inCase.toNat = if frame.inCase = true then 1 else 0 := by
      cases frame.inCase <;> rfl
    rw [Tracker.depthOf, hlevel, ih houter, hmarked, List.length_cons, List.countP_cons]
    omega

theorem one_le (h : Leveled stack) : ∀ frame ∈ stack, 1 ≤ frame.level := by
  intro frame hframe
  obtain ⟨inner, outer, rfl⟩ := List.append_of_mem hframe
  obtain ⟨hlevel, -⟩ := cons_iff.mp (h.suffix (List.suffix_append inner (frame :: outer)))
  omega

end Leveled

namespace Tracker

/-- The blocks that a closer leaves, when it fails too. -/
theorem close_suffix (kind : BlockKind) (s : Statement) (count depth : Nat) (stack : List Frame) :
    (close kind s count depth stack).1 <:+ stack := by
  induction count generalizing depth stack with
  | zero => exact List.suffix_refl stack
  | succ count ih =>
    cases stack with
    | nil => exact List.suffix_refl []
    | cons frame outer =>
      rw [close]
      split
      · exact (ih (frame.level - 1) outer).trans (List.suffix_cons frame outer)
      · exact List.suffix_refl _

/-- A `Case` marks its block; no other clause changes the open blocks. -/
theorem enterClause_stack (kind : BlockKind) (s : Statement) (stack : List Frame) :
    (enterClause kind s stack).1 = stack ∨
    ∃ frame outer, stack = frame :: outer ∧ frame.kind = .selectCase ∧
      (enterClause kind s stack).1 = { frame with inCase := true } :: outer := by
  cases stack with
  | nil => exact .inl rfl
  | cons frame outer =>
    by_cases hkind : frame.kind = kind
    · rw [enterClause, if_neg (not_not.mpr hkind)]
      split
      · rename_i hselect
        exact .inr ⟨frame, outer, rfl, hkind.trans hselect, rfl⟩
      · exact .inl rfl
    · rw [enterClause, if_pos hkind]
      exact .inl rfl

/-- All that a statement can do to the open blocks, whether it can be applied or not. -/
theorem apply_stack (t : Tracker) (s : Statement) :
    (t.apply s).1.stack <:+ t.stack ∨
    (∃ kind, (t.apply s).1.stack = ⟨kind, t.depth + 1, s.offset, false⟩ :: t.stack) ∨
    ∃ frame outer, t.stack = frame :: outer ∧ frame.kind = .selectCase ∧
      (t.apply s).1.stack = { frame with inCase := true } :: outer := by
  unfold apply
  cases s.role with
  | plain | singleLineIf => exact .inl (List.suffix_refl t.stack)
  | opener kind => exact .inr (.inl ⟨kind, rfl⟩)
  | closer kind count => exact .inl (close_suffix kind s count t.depth t.stack)
  | clause kind =>
    rcases enterClause_stack kind s t.stack with hsame | hmarked
    · exact .inl ⟨[], hsame⟩
    · exact .inr (.inr hmarked)

theorem leveled_apply {t : Tracker} (h : Leveled t.stack) (s : Statement) :
    Leveled (t.apply s).1.stack := by
  rcases t.apply_stack s with hclosed | ⟨kind, hopened⟩ | ⟨frame, outer, hstack, hkind, hmarked⟩
  · exact h.suffix hclosed
  · rw [hopened]
    exact Leveled.cons_iff.mpr ⟨rfl, by simp, h⟩
  · rw [hstack] at h
    obtain ⟨hlevel, -, houter⟩ := Leveled.cons_iff.mp h
    rw [hmarked]
    exact Leveled.cons_iff.mpr ⟨hlevel, fun _ => hkind, houter⟩

/-- The state after some statements, of which any may have failed. -/
def attempt (t : Tracker) (ss : List Statement) : Tracker :=
  ss.foldl (fun t s => (t.apply s).1) t

theorem leveled_attempt {t : Tracker} (h : Leveled t.stack) (ss : List Statement) :
    Leveled (t.attempt ss).stack := by
  induction ss generalizing t with
  | nil => exact h
  | cons s ss ih => exact ih (leveled_apply h s)

end Tracker

/-- The words that close a block are read as its closer. -/
theorem Statement.role_closing (kind : BlockKind) :
    (ofTokens (tokenize kind.closing.toList) false).role = .closer kind 1 := by
  cases kind <;> decide +kernel

/-- The closer of the innermost block closes it. -/
theorem Tracker.apply_closing (frame : Frame) (outer : List Frame) :
    (⟨frame :: outer⟩ : Tracker).apply (.ofTokens (tokenize frame.kind.closing.toList) false) =
      (⟨outer⟩, .ok (frame.level - 1)) := by
  unfold apply
  rw [Statement.role_closing]
  simp only [close, if_true]

end VbaWorkbench
