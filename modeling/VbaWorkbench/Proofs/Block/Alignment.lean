import VbaWorkbench.Proofs.Block.Balance
import VbaWorkbench.Proofs.Block.Levels
import VbaWorkbench.Proofs.Results

namespace VbaWorkbench

theorem length_of_openAfter? {stack out : List BlockKind} {w : List Bracket}
    (h : openAfter? stack w = some out) : (out.length : Int) = stack.length + height w := by
  induction w generalizing stack with
  | nil =>
    obtain rfl := Option.some.inj h
    simp [height]
  | cons b w ih =>
    cases b with
    | opening kind =>
      have := ih h
      rw [List.length_cons] at this
      rw [height]
      omega
    | clause kind =>
      rw [openAfter?] at h
      split at h
      · exact ih h
      · cases h
    | closing kind =>
      cases stack with
      | nil => cases h
      | cons top outer =>
        rw [openAfter?] at h
        split at h
        · have := ih h
          rw [height, List.length_cons]
          omega
        · cases h

theorem height_replicate_closing (kind : BlockKind) (n : Nat) :
    height (List.replicate n (.closing kind)) = -n := by
  induction n with
  | zero => rfl
  | succ n ih =>
    rw [List.replicate_succ, height, ih]
    omega

namespace Tracker

/-- A closer takes the innermost blocks; the depth is that of the last one it takes. -/
theorem close_ok {kind : BlockKind} {s : Statement} {count depth d : Nat} {stack out : List Frame}
    (h : close kind s count depth stack = (out, .ok d)) :
    ∃ closed, stack = closed ++ out ∧ closed.length = count ∧
      d = closed.getLast?.elim depth (·.level - 1) := by
  induction count generalizing depth stack with
  | zero =>
    obtain ⟨rfl, hd⟩ := Prod.mk.inj h
    exact ⟨[], rfl, rfl, (Except.ok.inj hd).symm⟩
  | succ count ih =>
    cases stack with
    | nil => cases h
    | cons frame stack =>
      rw [close] at h
      split at h
      · obtain ⟨closed, rfl, rfl, hd⟩ := ih h
        refine ⟨frame :: closed, rfl, rfl, ?_⟩
        rw [hd, List.getLast?_cons]
        cases closed.getLast? <;> rfl
      · cases h

/-- The depth of a closer is that of the outermost block it closes. -/
theorem close_append {kind : BlockKind} {s : Statement} {depth d : Nat} {frame : Frame}
    {inner outer out : List Frame}
    (h : close kind s (inner.length + 1) depth (inner ++ frame :: outer) = (out, .ok d)) :
    d = frame.level - 1 := by
  obtain ⟨closed, hstack, hlength, hd⟩ := close_ok h
  have hsplit : (inner ++ [frame]) ++ outer = closed ++ out := by
    rw [← hstack, List.append_assoc]
    rfl
  obtain ⟨rfl, -⟩ := List.append_inj hsplit (by simp [hlength])
  simpa using hd

/-- The stack holds a block, which may have come into a `Case`, right above the blocks `outer`. -/
def Above (frame : Frame) (outer stack : List Frame) : Prop :=
  ∃ inner inCase, stack = inner ++ { frame with inCase } :: outer

variable {t t' : Tracker} {s : Statement} {ss : List Statement} {frame : Frame} {outer : List Frame}

theorem length_apply {d : Nat} (h : t.apply s = (t', .ok d)) :
    (t'.stack.length : Int) = t.stack.length + height s.role.brackets := by
  have hkinds := t.apply_kinds s
  rw [h] at hkinds
  simpa [kinds] using length_of_openAfter? hkinds

theorem length_applyAll (h : t.applyAll ss = .ok t') :
    (t'.stack.length : Int) = t.stack.length + height (ss.flatMap (·.role.brackets)) := by
  have hkinds := t.applyAll_kinds ss
  rw [h] at hkinds
  simpa [kinds] using length_of_openAfter? hkinds

/-- A statement that leaves more blocks open than `outer` changes nothing from the block above them
down. -/
theorem Above.apply {result : Except Imbalance Nat} (h : Above frame outer t.stack)
    (happly : t.apply s = (t', result)) (hdeep : outer.length < t'.stack.length) :
    Above frame outer t'.stack := by
  obtain ⟨inner, inCase, hstack⟩ := h
  have hstep := t.apply_stack s
  simp only [happly] at hstep
  rcases hstep with hclosed | ⟨kind, hopened⟩ | ⟨top, below, htop, -, hmarked⟩
  · rw [hstack] at hclosed
    rcases List.suffix_or_suffix_of_suffix hclosed (List.suffix_append inner _) with hout | hin
    · rcases List.suffix_cons_iff.mp hout with hsame | hshort
      · exact ⟨[], inCase, hsame⟩
      · have := hshort.length_le
        omega
    · obtain ⟨kept, hkept⟩ := hin
      exact ⟨kept, inCase, hkept.symm⟩
  · rw [hopened, hstack]
    exact ⟨_ :: inner, inCase, rfl⟩
  · rw [hmarked]
    rw [hstack] at htop
    cases inner with
    | nil =>
      obtain ⟨rfl, rfl⟩ := List.cons.inj htop
      exact ⟨[], true, rfl⟩
    | cons first inner =>
      obtain ⟨rfl, rfl⟩ := List.cons.inj htop
      exact ⟨_ :: inner, inCase, rfl⟩

theorem Above.applyAll (h : Above frame outer t.stack) (hrun : t.applyAll ss = .ok t')
    (hdeep : ∀ before, before <+: ss →
      (outer.length : Int) < t.stack.length + height (before.flatMap (·.role.brackets))) :
    Above frame outer t'.stack := by
  induction ss generalizing t with
  | nil =>
    cases hrun
    exact h
  | cons s ss ih =>
    rw [Tracker.applyAll] at hrun
    split at hrun
    · rename_i next d happly
      have hlength := length_apply happly
      have hnext : Above frame outer next.stack := by
        refine h.apply happly ?_
        have hfirst := hdeep [s] ⟨ss, rfl⟩
        rw [List.flatMap_singleton] at hfirst
        omega
      refine ih hnext hrun ?_
      intro before hbefore
      have hlonger := hdeep (s :: before) ((List.prefix_cons_inj s).mpr hbefore)
      rw [List.flatMap_cons, height_append] at hlonger
      omega
    · cases hrun

/-- Between the opener of a block and the statement that closes it with `n` blocks inside, the block
stays where it is, and at the end those `n` blocks are above it. -/
theorem above_of_nested {kind : BlockKind} {n : Nat}
    (hrun : (⟨frame :: outer⟩ : Tracker).applyAll ss = .ok t)
    (hnested : Nested (some frame.kind)
      (ss.flatMap (·.role.brackets) ++ List.replicate n (.closing kind))) :
    ∃ inner inCase, t.stack = inner ++ { frame with inCase } :: outer ∧ inner.length = n := by
  have habove : Above frame outer t.stack := by
    refine Above.applyAll ⟨[], frame.inCase, rfl⟩ hrun ?_
    rintro before ⟨after, rfl⟩
    have hheight := hnested.height_prefix (u := before.flatMap (·.role.brackets))
      ⟨after.flatMap (·.role.brackets) ++ List.replicate n (.closing kind), by simp⟩
    show (outer.length : Int) < (frame :: outer).length + _
    rw [List.length_cons]
    omega
  obtain ⟨inner, inCase, hstack⟩ := habove
  refine ⟨inner, inCase, hstack, ?_⟩
  have hlength := length_applyAll hrun
  have hheight := hnested.height_eq
  rw [height_append, height_replicate_closing] at hheight
  rw [hstack, List.length_append, List.length_cons, List.length_cons] at hlength
  omega

theorem applyAll_of_append {more : List Statement} (h : t.applyAll (ss ++ more) = .ok t') :
    ∃ between, t.applyAll ss = .ok between ∧ between.applyAll more = .ok t' := by
  rw [applyAll_append] at h
  exact ok_of_bind h

/-- A closer of one more block closes the same blocks first. -/
theorem close_of_succ {kind : BlockKind} {count depth d : Nat} {stack out : List Frame}
    (h : close kind s (count + 1) depth stack = (out, .ok d)) :
    ∃ frame depth', frame.kind = kind ∧
      close kind s count depth stack = (frame :: out, .ok depth') := by
  induction count generalizing depth stack with
  | zero =>
    cases stack with
    | nil => cases h
    | cons frame stack =>
      rw [close] at h
      split at h
      · rename_i hkind
        obtain ⟨rfl, -⟩ := Prod.mk.inj h
        exact ⟨frame, depth, hkind, rfl⟩
      · cases h
  | succ count ih =>
    cases stack with
    | nil => cases h
    | cons frame stack =>
      rw [close] at h
      rw [close]
      split at h
      · rename_i hkind
        rw [if_pos hkind]
        exact ih h
      · cases h

theorem close_of_apply {kind : BlockKind} {count d : Nat} (hrole : s.role = .closer kind count)
    (h : t.apply s = (t', .ok d)) :
    close kind s count t.depth t.stack = (t'.stack, .ok d) := by
  unfold apply at h
  rw [hrole] at h
  obtain ⟨rfl, hd⟩ := Prod.mk.inj h
  exact Prod.ext rfl hd

theorem enterClause_of_apply {kind : BlockKind} {d : Nat} (hrole : s.role = .clause kind)
    (h : t.apply s = (t', .ok d)) :
    enterClause kind s t.stack = (t'.stack, .ok d) := by
  unfold apply at h
  rw [hrole] at h
  obtain ⟨rfl, hd⟩ := Prod.mk.inj h
  exact Prod.ext rfl hd

end Tracker

/-- After the statements and the brackets `extra` the innermost open block is one of this kind,
whose opener was given this depth. -/
def OpenedAt (ss : List Statement) (extra : List Bracket) (kind : BlockKind) (depth : Nat) : Prop :=
  ∃ before s between t, ss = before ++ s :: between ∧ s.role = .opener kind ∧
    Nested (some kind) (between.flatMap (·.role.brackets) ++ extra) ∧
    Tracker.empty.applyAll before = .ok t ∧ (t.apply s).2 = .ok depth

section Alignment

variable {ss : List Statement} {s : Statement} {t t' : Tracker} {kind : BlockKind} {n d depth : Nat}

/-- The block stands on the stack with the level that its opener gave it. -/
theorem OpenedAt.stack_eq (h : OpenedAt ss (List.replicate n (.closing kind)) kind depth)
    (hrun : Tracker.empty.applyAll ss = .ok t) :
    ∃ inner frame outer, t.stack = inner ++ frame :: outer ∧ inner.length = n ∧
      frame.level = depth + 1 := by
  obtain ⟨before, o, between, around, rfl, hrole, hnested, hbefore, hdepth⟩ := h
  obtain ⟨around', hbefore', hrest⟩ := Tracker.applyAll_of_append hrun
  obtain rfl : around = around' := Except.ok.inj (hbefore.symm.trans hbefore')
  have hopen : around.apply o =
      (⟨⟨kind, around.depth + 1, o.offset, false⟩ :: around.stack⟩, .ok around.depth) := by
    unfold Tracker.apply
    rw [hrole]
  rw [hopen] at hdepth
  rw [Tracker.applyAll, hopen] at hrest
  obtain ⟨inner, inCase, hstack, hlength⟩ := Tracker.above_of_nested hrest hnested
  refine ⟨inner, _, around.stack, hstack, hlength, ?_⟩
  exact congrArg (· + 1) (Except.ok.inj hdepth)

theorem exists_openedAt {extra : List Bracket} {frame : Frame} {outer : List Frame}
    (hrun : Tracker.empty.applyAll ss = .ok t) (h : Leaves ss extra (frame :: outer)) :
    ∃ depth, OpenedAt ss extra frame.kind depth := by
  obtain - | @⟨before, between, o, _, _, _, -, hrole, -, hnested⟩ := h
  obtain ⟨around, hbefore, -⟩ := Tracker.applyAll_of_append hrun
  refine ⟨around.depth, before, o, between, around, rfl, hrole, hnested, hbefore, ?_⟩
  unfold Tracker.apply
  rw [hrole]

theorem depth_of_closer (hrun : Tracker.empty.applyAll ss = .ok t)
    (happly : t.apply s = (t', .ok d)) (hrole : s.role = .closer kind (n + 1))
    (hopened : OpenedAt ss (List.replicate n (.closing kind)) kind depth) : d = depth := by
  obtain ⟨inner, frame, outer, hstack, rfl, hlevel⟩ := hopened.stack_eq hrun
  have hclose := Tracker.close_of_apply hrole happly
  rw [hstack] at hclose
  have hd := Tracker.close_append hclose
  omega

theorem closer_aligned (hrun : Tracker.empty.applyAll ss = .ok t)
    (happly : t.apply s = (t', .ok d)) (hrole : s.role = .closer kind (n + 1)) :
    OpenedAt ss (List.replicate n (.closing kind)) kind d := by
  obtain ⟨frame, depth', rfl, hclose⟩ :=
    Tracker.close_of_succ (Tracker.close_of_apply hrole happly)
  obtain ⟨depth, hopened⟩ := exists_openedAt hrun ((leaves_of_run hrun).closes hclose)
  rw [List.nil_append] at hopened
  rwa [depth_of_closer hrun happly hrole hopened]

theorem depth_of_clause (hrun : Tracker.empty.applyAll ss = .ok t)
    (happly : t.apply s = (t', .ok d)) (hrole : s.role = .clause kind)
    (hopened : OpenedAt ss [] kind depth) :
    d = if kind = .selectCase then depth + 1 else depth := by
  obtain ⟨inner, frame, outer, hstack, hlength, hlevel⟩ :=
    OpenedAt.stack_eq (n := 0) hopened hrun
  obtain rfl := List.length_eq_zero_iff.mp hlength
  have henter := Tracker.enterClause_of_apply hrole happly
  rw [hstack, List.nil_append, Tracker.enterClause] at henter
  split at henter
  · cases (Prod.mk.inj henter).2
  · split at henter
    · rename_i hselect
      rw [if_pos hselect, ← hlevel]
      exact (Except.ok.inj (Prod.mk.inj henter).2).symm
    · rename_i hselect
      rw [if_neg hselect, ← Except.ok.inj (Prod.mk.inj henter).2, hlevel]
      rfl

theorem clause_aligned (hrun : Tracker.empty.applyAll ss = .ok t)
    (happly : t.apply s = (t', .ok d)) (hrole : s.role = .clause kind) :
    ∃ depth, OpenedAt ss [] kind depth := by
  have henter := Tracker.enterClause_of_apply hrole happly
  cases hstack : t.stack with
  | nil =>
    rw [hstack] at henter
    cases (Prod.mk.inj henter).2
  | cons frame outer =>
    rw [hstack, Tracker.enterClause] at henter
    split at henter
    · cases (Prod.mk.inj henter).2
    · rename_i hkind
      obtain rfl := not_not.mp hkind
      exact exists_openedAt hrun (hstack ▸ leaves_of_run hrun)

end Alignment

/-- Whatever statements have been tried, the level of an open block is one more than the depth of
the lines around it: the number of blocks that are open there and of those among them that are in a
`Case`. The closing words of the innermost block close it. Where all statements could be applied, a
closer has the depth of the opener of the outermost block it closes, a clause of an `If` that of the
`If`, and a `Case` one more than that of its `Select Case`. -/
theorem depth_aligned (ss : List Statement) :
    (let t := Tracker.empty.attempt ss
     Leveled t.stack ∧ t.depth = t.stack.length + t.stack.countP (·.inCase) ∧
      (∀ frame ∈ t.stack, 1 ≤ frame.level) ∧
      ∀ frame outer, t.stack = frame :: outer →
        t.apply (.ofTokens (tokenize frame.kind.closing.toList) false) =
          (⟨outer⟩, .ok (frame.level - 1))) ∧
    ∀ t s t' d, Tracker.empty.applyAll ss = .ok t → t.apply s = (t', .ok d) →
      (∀ kind n, s.role = .closer kind (n + 1) →
        OpenedAt ss (List.replicate n (.closing kind)) kind d ∧
        ∀ depth, OpenedAt ss (List.replicate n (.closing kind)) kind depth → d = depth) ∧
      ∀ kind, s.role = .clause kind →
        (∃ depth, OpenedAt ss [] kind depth) ∧
        ∀ depth, OpenedAt ss [] kind depth →
          d = if kind = .selectCase then depth + 1 else depth := by
  constructor
  · have hlevels := Tracker.leveled_attempt Leveled.nil ss
    refine ⟨hlevels, hlevels.depthOf_eq, hlevels.one_le, ?_⟩
    intro frame outer hstack
    rw [← Tracker.apply_closing frame outer, ← hstack]
  · intro t s t' d hrun happly
    refine ⟨fun kind n hrole => ⟨closer_aligned hrun happly hrole, ?_⟩,
      fun kind hrole => ⟨clause_aligned hrun happly hrole, ?_⟩⟩
    · intro depth hopened
      exact depth_of_closer hrun happly hrole hopened
    · intro depth hopened
      exact depth_of_clause hrun happly hrole hopened

/-- `Next j, i` stands where the outer of the two loops in a `Case` begins. -/
theorem depth_aligned_twoLoops :
    let ss : List Statement := [⟨.opener .selectCase, "Select Case".toList, 0⟩,
      ⟨.clause .selectCase, "Case".toList, 14⟩, ⟨.opener .forLoop, "For".toList, 21⟩,
      ⟨.opener .forLoop, "For".toList, 34⟩]
    OpenedAt ss [.closing .forLoop] .forLoop 2 := by
  intro ss
  have haligned := (depth_aligned ss).2 _ ⟨.closer .forLoop 2, "Next".toList, 47⟩ _ 2 rfl rfl
  exact (haligned.1 .forLoop 1 rfl).1

end VbaWorkbench
