import Mathlib.Data.List.Infix
import VbaWorkbench.Block.Basic

namespace VbaWorkbench

/-- What the block structure is made of. -/
inductive Bracket where
  | opening (kind : BlockKind)
  | clause (kind : BlockKind)
  | closing (kind : BlockKind)
deriving DecidableEq, Repr

/-- A statement that closes several blocks closes them one after the other. -/
def Role.brackets : Role → List Bracket
  | opener kind => [.opening kind]
  | clause kind => [.clause kind]
  | closer kind count => List.replicate count (.closing kind)
  | singleLineIf | plain => []

/-- Blocks side by side, and between them the clauses of the block `around` them. A block opens,
holds blocks and clauses of its own kind, and closes. -/
inductive Nested : (around : Option BlockKind) → List Bracket → Prop
  | nil {around : Option BlockKind} : Nested around []
  | block {around : Option BlockKind} {kind : BlockKind} {body rest : List Bracket} :
      Nested (some kind) body → Nested around rest →
      Nested around (.opening kind :: (body ++ .closing kind :: rest))
  | clause {kind : BlockKind} {rest : List Bracket} :
      Nested (some kind) rest → Nested (some kind) (.clause kind :: rest)

/-- The roles of statements that open and close whole blocks. -/
def Balanced (roles : List Role) : Prop :=
  Nested none (roles.flatMap Role.brackets)

/-- The block of a kind that opens just before `rest` is closed in it. -/
def Closed (kind : BlockKind) (rest : List Bracket) : Prop :=
  ∃ body more, rest = body ++ .closing kind :: more ∧ Nested (some kind) body

namespace Nested

variable {around : Option BlockKind} {kind : BlockKind} {u v w : List Bracket}

theorem append (hu : Nested around u) (hv : Nested around v) : Nested around (u ++ v) := by
  induction hu with
  | nil => exact hv
  | block hbody _ _ ih =>
    rw [List.cons_append, List.append_assoc, List.cons_append]
    exact .block hbody (ih hv)
  | clause _ ih => exact .clause (ih hv)

theorem single (h : Nested (some kind) w) : Nested around (.opening kind :: (w ++ [.closing kind])) :=
  .block h .nil

/-- Every block that opens is closed. -/
theorem closed (h : Nested around w) (hw : w = u ++ .opening kind :: v) : Closed kind v := by
  induction h generalizing u v with
  | nil => simp at hw
  | @block around outer body rest hbody _ ihbody ihrest =>
    cases u with
    | nil =>
      obtain ⟨hkind, rfl⟩ := List.cons.inj hw
      obtain rfl := Bracket.opening.inj hkind
      exact ⟨body, rest, rfl, hbody⟩
    | cons b u =>
      rcases List.append_eq_append_iff.mp (List.cons.inj hw).2 with
        ⟨more, rfl, hmore⟩ | ⟨more, rfl, hmore⟩
      · cases more with
        | nil => cases hmore
        | cons b' more =>
          obtain ⟨rfl, hrest⟩ := List.cons.inj hmore
          exact ihrest hrest
      · cases more with
        | nil => cases hmore
        | cons b' more =>
          obtain ⟨rfl, rfl⟩ := List.cons.inj hmore
          obtain ⟨inner, tail, rfl, hinner⟩ := ihbody rfl
          exact ⟨inner, tail ++ .closing outer :: rest, by simp, hinner⟩
  | clause _ ih =>
    cases u with
    | nil => cases hw
    | cons b u => exact ih (List.cons.inj hw).2

end Nested

/-- How many more blocks open than close. -/
def height : List Bracket → Int
  | [] => 0
  | .opening _ :: rest => height rest + 1
  | .clause _ :: rest => height rest
  | .closing _ :: rest => height rest - 1

theorem height_append (u v : List Bracket) : height (u ++ v) = height u + height v := by
  induction u with
  | nil => simp [height]
  | cons b u ih => cases b <;> simp only [List.cons_append, height, ih] <;> omega

namespace Nested

variable {around : Option BlockKind} {kind : BlockKind} {u w : List Bracket}

theorem height_eq (h : Nested around w) : height w = 0 := by
  induction h with
  | nil => rfl
  | block _ _ ihbody ihrest => simp only [height, height_append, ihbody, ihrest]; omega
  | clause _ ih => exact ih

/-- No more blocks close than have been opened. -/
theorem height_prefix (h : Nested around w) (hu : u <+: w) : 0 ≤ height u := by
  induction h generalizing u with
  | nil =>
    rw [List.prefix_nil.mp hu]
    exact Int.le_refl 0
  | @block _ kind body rest hbody _ ihbody ihrest =>
    rcases List.prefix_cons_iff.mp hu with rfl | ⟨v, rfl, hv⟩
    · exact Int.le_refl 0
    rw [height]
    rcases List.prefix_or_prefix_of_prefix hv (List.prefix_append body _) with hv | ⟨more, rfl⟩
    · have := ihbody hv
      omega
    · rw [height_append, hbody.height_eq]
      rcases List.prefix_cons_iff.mp ((List.prefix_append_right_inj body).mp hv) with
        rfl | ⟨more, rfl, hmore⟩
      · simp [height]
      · have := ihrest hmore
        rw [height]
        omega
  | clause _ ih =>
    rcases List.prefix_cons_iff.mp hu with rfl | ⟨v, rfl, hv⟩
    · exact Int.le_refl 0
    · rw [height]
      exact ih hv

/-- The block around is not closed. -/
theorem not_closed (h : Nested around w) : ¬Closed kind w := by
  rintro ⟨body, more, rfl, hbody⟩
  have hprefix : body ++ [.closing kind] <+: body ++ .closing kind :: more := ⟨more, by simp⟩
  have hheight := h.height_prefix hprefix
  rw [height_append, hbody.height_eq] at hheight
  simp [height] at hheight

end Nested
end VbaWorkbench
