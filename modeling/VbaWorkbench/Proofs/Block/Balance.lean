import VbaWorkbench.Block.Tracker
import VbaWorkbench.Proofs.Block.Nesting

namespace VbaWorkbench

/-- The blocks that are open after some brackets, innermost first, where `stack` were open before
them. -/
def openAfter? (stack : List BlockKind) : List Bracket → Option (List BlockKind)
  | [] => some stack
  | .opening kind :: rest => openAfter? (kind :: stack) rest
  | .clause kind :: rest => if stack.head? = some kind then openAfter? stack rest else none
  | .closing kind :: rest =>
    match stack with
    | [] => none
    | top :: outer => if top = kind then openAfter? outer rest else none

theorem openAfter?_append (stack : List BlockKind) (u v : List Bracket) :
    openAfter? stack (u ++ v) = (openAfter? stack u).bind (openAfter? · v) := by
  induction u generalizing stack with
  | nil => rfl
  | cons b u ih =>
    cases b with
    | opening kind => exact ih (kind :: stack)
    | clause kind =>
      simp only [List.cons_append, openAfter?]
      split
      · exact ih stack
      · rfl
    | closing kind =>
      cases stack with
      | nil => rfl
      | cons top outer =>
        simp only [List.cons_append, openAfter?]
        split
        · exact ih outer
        · rfl

/-- Whole blocks leave the blocks around them open. -/
theorem Nested.openAfter? {around : Option BlockKind} {w : List Bracket} (h : Nested around w)
    {stack : List BlockKind} (hs : ∀ kind ∈ around, stack.head? = some kind) :
    openAfter? stack w = some stack := by
  induction h generalizing stack with
  | nil => rfl
  | @block _ kind body rest _ _ ihbody ihrest =>
    have hbody : VbaWorkbench.openAfter? (kind :: stack) body = some (kind :: stack) :=
      ihbody (by simp)
    rw [VbaWorkbench.openAfter?, openAfter?_append, hbody, Option.bind_some]
    simp only [VbaWorkbench.openAfter?, if_true]
    exact ihrest hs
  | @clause kind rest _ ih =>
    rw [VbaWorkbench.openAfter?, if_pos (hs kind rfl)]
    exact ih hs

namespace Tracker

/-- Applies statements in order, up to the first that fails. -/
def applyAll (t : Tracker) : List Statement → Except Imbalance Tracker
  | [] => .ok t
  | s :: ss =>
    match t.apply s with
    | (t, .ok _) => t.applyAll ss
    | (_, .error e) => .error e

theorem applyAll_append (t : Tracker) (ss more : List Statement) :
    t.applyAll (ss ++ more) = (t.applyAll ss).bind (·.applyAll more) := by
  induction ss generalizing t with
  | nil => rfl
  | cons s ss ih =>
    rw [List.cons_append, applyAll, applyAll]
    split
    · rename_i next depth happly
      exact ih next
    · rfl

/-- The kinds of the open blocks, innermost first. -/
def kinds (t : Tracker) : List BlockKind :=
  t.stack.map (·.kind)

theorem close_kinds (kind : BlockKind) (s : Statement) (count depth : Nat) (stack : List Frame) :
    openAfter? (stack.map (·.kind)) (List.replicate count (.closing kind)) =
      (close kind s count depth stack).2.toOption.map fun _ =>
        (close kind s count depth stack).1.map (·.kind) := by
  induction count generalizing depth stack with
  | zero => rfl
  | succ count ih =>
    cases stack with
    | nil => rfl
    | cons frame stack =>
      rw [List.replicate_succ, List.map_cons, close]
      simp only [openAfter?]
      split
      · exact ih (frame.level - 1) stack
      · rfl

theorem enterClause_kinds (kind : BlockKind) (s : Statement) (stack : List Frame) :
    openAfter? (stack.map (·.kind)) [.clause kind] =
      (enterClause kind s stack).2.toOption.map fun _ =>
        (enterClause kind s stack).1.map (·.kind) := by
  cases stack with
  | nil => rfl
  | cons frame stack =>
    simp only [openAfter?, enterClause, List.map_cons, List.head?_cons, Option.some.injEq]
    by_cases hk : frame.kind = kind
    · rw [if_pos hk, if_neg (not_not.mpr hk)]
      split <;> rfl
    · rw [if_neg hk, if_pos hk]
      rfl

/-- A statement is applied exactly if its brackets fit the open blocks. -/
theorem apply_kinds (t : Tracker) (s : Statement) :
    openAfter? t.kinds s.role.brackets =
      (t.apply s).2.toOption.map fun _ => (t.apply s).1.kinds := by
  unfold apply
  cases s.role with
  | plain | singleLineIf | opener kind => rfl
  | closer kind count => exact close_kinds kind s count t.depth t.stack
  | clause kind => exact enterClause_kinds kind s t.stack

theorem applyAll_kinds (t : Tracker) (ss : List Statement) :
    openAfter? t.kinds (ss.flatMap (·.role.brackets)) = (t.applyAll ss).toOption.map kinds := by
  induction ss generalizing t with
  | nil => rfl
  | cons s ss ih =>
    rw [List.flatMap_cons, openAfter?_append, apply_kinds, applyAll]
    cases happly : t.apply s with
    | mk t' result =>
      cases result with
      | error e => rfl
      | ok depth => exact ih t'

end Tracker

/-- The open blocks that statements leave, and `extra` brackets of the statement after them: each
block belongs to the statement that opened it, and whole blocks and clauses follow that one. -/
inductive Leaves : List Statement → (extra : List Bracket) → List Frame → Prop
  | balanced {ss : List Statement} {extra : List Bracket} :
      Nested none (ss.flatMap (·.role.brackets) ++ extra) → Leaves ss extra []
  | within {before after : List Statement} {s : Statement} {extra : List Bracket} {frame : Frame}
      {outer : List Frame} :
      Leaves before [] outer → s.role = .opener frame.kind → s.offset = frame.offset →
      Nested (some frame.kind) (after.flatMap (·.role.brackets) ++ extra) →
      Leaves (before ++ s :: after) extra (frame :: outer)

namespace Leaves

variable {ss : List Statement} {extra : List Bracket} {frame : Frame} {stack : List Frame}

/-- The innermost block is closed. -/
theorem close (h : Leaves ss extra (frame :: stack)) :
    Leaves ss (extra ++ [.closing frame.kind]) stack := by
  obtain - | @⟨before, after, s, _, _, _, houter, hrole, -, hbody⟩ := h
  -- The block is one more part of what follows the opener around it.
  have hblock : ∀ around, Nested around
      ((s :: after).flatMap (·.role.brackets) ++ (extra ++ [.closing frame.kind])) := by
    intro around
    rw [List.flatMap_cons, hrole, ← List.append_assoc, List.append_assoc _ _ extra]
    exact hbody.single
  cases houter with
  | balanced hbefore =>
    refine .balanced ?_
    rw [List.append_nil] at hbefore
    rw [List.flatMap_append, List.append_assoc]
    exact hbefore.append (hblock none)
  | within houter hrole' hoffset hbetween =>
    rw [List.append_assoc, List.cons_append]
    refine .within houter hrole' hoffset ?_
    rw [List.append_nil] at hbetween
    rw [List.flatMap_append, List.append_assoc]
    exact hbetween.append (hblock _)

theorem closes {kind : BlockKind} {s : Statement} {count depth d : Nat} {out : List Frame}
    (h : Leaves ss extra stack)
    (hclose : Tracker.close kind s count depth stack = (out, .ok d)) :
    Leaves ss (extra ++ List.replicate count (.closing kind)) out := by
  induction count generalizing extra depth stack with
  | zero =>
    obtain ⟨rfl, -⟩ := Prod.mk.inj hclose
    rw [List.replicate_zero, List.append_nil]
    exact h
  | succ count ih =>
    cases stack with
    | nil => cases hclose
    | cons frame stack =>
      rw [Tracker.close] at hclose
      split at hclose
      · rename_i hkind
        subst hkind
        rw [List.replicate_succ, ← List.singleton_append, ← List.append_assoc]
        exact ih h.close hclose
      · cases hclose

theorem clause {kind : BlockKind} {s : Statement} {d : Nat} {out : List Frame}
    (h : Leaves ss [] stack) (henter : Tracker.enterClause kind s stack = (out, .ok d)) :
    Leaves ss [.clause kind] out := by
  cases h with
  | balanced => cases henter
  | @within before after s' _ frame outer houter hrole hoffset hbody =>
    have hclause : Nested (some frame.kind)
        (after.flatMap (·.role.brackets) ++ [.clause frame.kind]) := by
      rw [List.append_nil] at hbody
      exact hbody.append (.clause .nil)
    rw [Tracker.enterClause] at henter
    split at henter
    · cases henter
    · rename_i hkind
      obtain rfl : frame.kind = kind := not_not.mp hkind
      split at henter
      · obtain ⟨rfl, -⟩ := Prod.mk.inj henter
        exact .within houter hrole hoffset hclause
      · obtain ⟨rfl, -⟩ := Prod.mk.inj henter
        exact .within houter hrole hoffset hclause

/-- The statement has been read to its end. -/
theorem next {s : Statement} (h : Leaves ss s.role.brackets stack) : Leaves (ss ++ [s]) [] stack := by
  cases h with
  | balanced hall =>
    refine .balanced ?_
    simpa using hall
  | within houter hrole hoffset hbody =>
    rw [List.append_assoc, List.cons_append]
    refine .within houter hrole hoffset ?_
    simpa using hbody

theorem step {t t' : Tracker} {s : Statement} {d : Nat} (h : Leaves ss [] t.stack)
    (happly : t.apply s = (t', .ok d)) : Leaves (ss ++ [s]) [] t'.stack := by
  unfold Tracker.apply at happly
  split at happly
  · rename_i hrole
    obtain ⟨rfl, -⟩ := Prod.mk.inj happly
    exact next (by rwa [hrole])
  · rename_i hrole
    obtain ⟨rfl, -⟩ := Prod.mk.inj happly
    exact next (by rwa [hrole])
  · rename_i kind hrole
    obtain ⟨rfl, -⟩ := Prod.mk.inj happly
    exact .within h hrole rfl .nil
  · rename_i kind count hrole
    obtain ⟨rfl, hd⟩ := Prod.mk.inj happly
    have hclosed := h.closes (Prod.ext rfl hd)
    exact next (by rwa [hrole])
  · rename_i kind hrole
    obtain ⟨rfl, hd⟩ := Prod.mk.inj happly
    have hclause := h.clause (Prod.ext rfl hd)
    exact next (by rwa [hrole])

theorem run {t t' : Tracker} {more : List Statement} (h : Leaves ss [] t.stack)
    (hrun : t.applyAll more = .ok t') : Leaves (ss ++ more) [] t'.stack := by
  induction more generalizing t ss with
  | nil =>
    cases hrun
    rwa [List.append_nil]
  | cons s more ih =>
    rw [Tracker.applyAll] at hrun
    split at hrun
    · rename_i happly
      have hall := ih (h.step happly) hrun
      rwa [List.append_assoc] at hall
    · cases hrun

/-- Closing the open blocks one after the other completes the statements. -/
theorem completed (h : Leaves ss extra stack) :
    Nested none (ss.flatMap (·.role.brackets) ++
      (extra ++ stack.map fun frame => .closing frame.kind)) := by
  induction stack generalizing extra with
  | nil =>
    cases h with
    | balanced hall => simpa using hall
  | cons frame stack ih =>
    have hall := ih h.close
    rwa [List.append_assoc] at hall

end Leaves

section Runs

variable {ss : List Statement} {t : Tracker}

theorem leaves_of_run (h : Tracker.empty.applyAll ss = .ok t) : Leaves ss [] t.stack := by
  have hbegin : Leaves [] [] Tracker.empty.stack := .balanced .nil
  exact hbegin.run h

theorem openAfter?_of_run (h : Tracker.empty.applyAll ss = .ok t) :
    openAfter? [] (ss.flatMap (·.role.brackets)) = some t.kinds := by
  have hkinds := Tracker.empty.applyAll_kinds ss
  rwa [h] at hkinds

theorem openAfter?_of_balanced {roles : List Role} (h : Balanced roles) :
    openAfter? [] (roles.flatMap Role.brackets) = some [] :=
  Nested.openAfter? h (by simp)

theorem flatMap_brackets (ss : List Statement) :
    (ss.map (·.role)).flatMap Role.brackets = ss.flatMap (·.role.brackets) := by
  rw [List.flatMap_map]

theorem balanced_iff_run :
    (∃ t, Tracker.empty.applyAll ss = .ok t ∧ t.finish = .ok ()) ↔ Balanced (ss.map (·.role)) := by
  constructor
  · rintro ⟨⟨stack⟩, hrun, hfinish⟩
    cases stack with
    | cons frame stack => cases hfinish
    | nil =>
      have hall := (leaves_of_run hrun).completed
      rw [List.map_nil, List.append_nil, List.append_nil] at hall
      rw [Balanced, flatMap_brackets]
      exact hall
  · intro hbalanced
    have hkinds := Tracker.empty.applyAll_kinds ss
    rw [← flatMap_brackets, show Tracker.empty.kinds = [] from rfl,
      openAfter?_of_balanced hbalanced] at hkinds
    cases hrun : Tracker.empty.applyAll ss with
    | error e =>
      rw [hrun] at hkinds
      cases hkinds
    | ok t =>
      rw [hrun] at hkinds
      obtain ⟨stack⟩ := t
      obtain rfl : stack = [] := List.map_eq_nil_iff.mp (Option.some.inj hkinds).symm
      exact ⟨⟨[]⟩, rfl, rfl⟩

/-- Statements that could be applied begin a balanced list. -/
theorem exists_balanced (h : Tracker.empty.applyAll ss = .ok t) :
    ∃ more, Balanced (ss.map (·.role) ++ more) := by
  refine ⟨t.stack.map fun frame => .closer frame.kind 1, ?_⟩
  have hall := (leaves_of_run h).completed
  rw [List.nil_append] at hall
  have hclosers : (t.stack.map fun frame => Role.closer frame.kind 1).flatMap Role.brackets =
      t.stack.map fun frame => .closing frame.kind := by
    rw [List.flatMap_map, List.map_eq_flatMap]
    rfl
  rw [Balanced, List.flatMap_append, flatMap_brackets, hclosers]
  exact hall

/-- A statement that cannot be applied is not mended by any that follow. -/
theorem not_balanced {s : Statement} {e : Imbalance} (h : Tracker.empty.applyAll ss = .ok t)
    (he : (t.apply s).2 = .error e) (more : List Role) :
    ¬Balanced (ss.map (·.role) ++ s.role :: more) := by
  intro hbalanced
  have hall := openAfter?_of_balanced hbalanced
  have hs := t.apply_kinds s
  rw [he] at hs
  rw [List.flatMap_append, flatMap_brackets, List.flatMap_cons, openAfter?_append,
    openAfter?_of_run h, Option.bind_some, openAfter?_append, hs] at hall
  cases hall

/-- The innermost open block belongs to the last opener that no closer belongs to. -/
theorem last_unclosed {e : Imbalance} (h : Tracker.empty.applyAll ss = .ok t)
    (he : t.finish = .error e) :
    ∃ before s after kind, ss = before ++ s :: after ∧ s.role = .opener kind ∧
      ¬Closed kind (after.flatMap (·.role.brackets)) ∧
      (∀ between s' rest kind', after = between ++ s' :: rest → s'.role = .opener kind' →
        Closed kind' (rest.flatMap (·.role.brackets))) ∧
      e = ⟨kind.opening.toList, s.offset, .unclosedOpener kind⟩ := by
  obtain ⟨stack⟩ := t
  cases stack with
  | nil => cases he
  | cons frame stack =>
    obtain rfl := Except.error.inj he
    obtain - | @⟨before, after, s, _, _, _, -, hrole, hoffset, hbody⟩ := leaves_of_run h
    rw [List.append_nil] at hbody
    refine ⟨before, s, after, frame.kind, rfl, hrole, hbody.not_closed, ?_, by rw [hoffset]⟩
    intro between s' rest kind' hafter hrole'
    have hsplit : after.flatMap (·.role.brackets) = between.flatMap (·.role.brackets) ++
        .opening kind' :: rest.flatMap (·.role.brackets) := by
      rw [hafter, List.flatMap_append, List.flatMap_cons, hrole']
      rfl
    exact hbody.closed hsplit

/-- A run that stops does so at its first statement that cannot be applied. -/
theorem exists_failing {e : Imbalance} (h : t.applyAll ss = .error e) :
    ∃ before s after t', ss = before ++ s :: after ∧ t.applyAll before = .ok t' ∧
      (t'.apply s).2 = .error e := by
  induction ss generalizing t with
  | nil => cases h
  | cons s ss ih =>
    rw [Tracker.applyAll] at h
    split at h
    · rename_i next depth happly
      obtain ⟨before, s', after, t', rfl, hrun, hfail⟩ := ih h
      refine ⟨s :: before, s', after, t', rfl, ?_, hfail⟩
      rw [Tracker.applyAll, happly]
      exact hrun
    · rename_i happly
      obtain rfl := Except.error.inj h
      exact ⟨[], s, ss, t, rfl, rfl, by rw [happly]⟩

end Runs

/-- Statements can be applied one after the other and leave no block open exactly if their roles
are balanced. The first that cannot be applied comes after statements that begin a balanced list,
and with it they begin none. If only the end fails, the fault is that of the last opener without a
closer. -/
theorem applyAll_balanced (ss : List Statement) :
    ((∃ t, Tracker.empty.applyAll ss = .ok t ∧ t.finish = .ok ()) ↔ Balanced (ss.map (·.role))) ∧
    (∀ e, Tracker.empty.applyAll ss = .error e →
      ∃ before s after t, ss = before ++ s :: after ∧ Tracker.empty.applyAll before = .ok t ∧
        (t.apply s).2 = .error e ∧ (∃ more, Balanced (before.map (·.role) ++ more)) ∧
        ∀ more, ¬Balanced (before.map (·.role) ++ s.role :: more)) ∧
    ∀ t e, Tracker.empty.applyAll ss = .ok t → t.finish = .error e →
      ∃ before s after kind, ss = before ++ s :: after ∧ s.role = .opener kind ∧
        ¬Closed kind (after.flatMap (·.role.brackets)) ∧
        (∀ between s' rest kind', after = between ++ s' :: rest → s'.role = .opener kind' →
          Closed kind' (rest.flatMap (·.role.brackets))) ∧
        e = ⟨kind.opening.toList, s.offset, .unclosedOpener kind⟩ := by
  refine ⟨balanced_iff_run, ?_, fun t e hrun hfinish => last_unclosed hrun hfinish⟩
  intro e herror
  obtain ⟨before, s, after, t, hss, hrun, hfail⟩ := exists_failing herror
  exact ⟨before, s, after, t, hss, hrun, hfail, exists_balanced hrun, not_balanced hrun hfail⟩

end VbaWorkbench
