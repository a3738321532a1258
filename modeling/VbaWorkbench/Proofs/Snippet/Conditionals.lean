import VbaWorkbench.Proofs.Snippet.Pieces

namespace VbaWorkbench.Snippet

/-- Each tag that opens a conditional has one of the same kind that closes it, at the same level and
with at most one `else` between them. -/
inductive Paired : List Marker → Prop
  | nil : Paired []
  | value {name : Text} {ms : List Marker} : Paired ms → Paired (.value name :: ms)
  | conditional {tag : Tag} {flag : Text} {chosen ms : List Marker} : Paired chosen → Paired ms →
      Paired (.opening tag flag :: (chosen ++ .closing tag :: ms))
  | alternative {tag : Tag} {flag : Text} {chosen other ms : List Marker} :
      Paired chosen → Paired other → Paired ms →
      Paired (.opening tag flag :: (chosen ++ .otherwise :: (other ++ .closing tag :: ms)))

/-- The fragments that pieces make up. -/
inductive Builds : List Piece → List Fragment → Prop
  | nil : Builds [] []
  | text {t : Text} {ps : List Piece} {fs : List Fragment} : Builds ps fs →
      Builds (.text t :: ps) (.text t :: fs)
  | value {name source : Text} {ps : List Piece} {fs : List Fragment} : Builds ps fs →
      Builds (.marker (.value name) source :: ps) (.value name :: fs)
  | conditional {tag : Tag} {flag source source' : Text} {chosen ps : List Piece}
      {fs hs : List Fragment} : Builds chosen fs → Builds ps hs →
      Builds (.marker (.opening tag flag) source ::
          (chosen ++ .marker (.closing tag) source' :: ps))
        (.conditional flag (tag == .unlessSet) fs [] :: hs)
  | alternative {tag : Tag} {flag source source' source'' : Text} {chosen other ps : List Piece}
      {fs gs hs : List Fragment} : Builds chosen fs → Builds other gs → Builds ps hs →
      Builds (.marker (.opening tag flag) source ::
          (chosen ++ .marker .otherwise source' ::
            (other ++ .marker (.closing tag) source'' :: ps)))
        (.conditional flag (tag == .unlessSet) fs gs :: hs)

namespace Nesting

variable {n n' : Nesting} {tag : Tag}

theorem step_closing (fs : List Fragment) (c : OpenConditional) (cs : List OpenConditional) :
    (⟨fs, c :: cs⟩ : Nesting).step (.closing c.tag) =
      .ok ⟨OpenConditional.close c fs :: c.outer, cs⟩ :=
  if_pos rfl

/-- Only a tag of its own kind closes the innermost conditional. -/
theorem step_closing_eq_ok (h : n.step (.closing tag) = .ok n') :
    ∃ c cs, n.conditionals = c :: cs ∧ c.tag = tag ∧
      n' = ⟨OpenConditional.close c n.fragments :: c.outer, cs⟩ := by
  obtain ⟨fs, conditionals⟩ := n
  cases conditionals with
  | nil => cases h
  | cons c cs =>
    rw [step] at h
    dsimp only at h
    split at h
    · rename_i htag
      exact ⟨c, cs, rfl, htag, (Except.ok.inj h).symm⟩
    · cases h

end Nesting

namespace Builds

variable {ps qs : List Piece} {fs gs : List Fragment}

theorem append (h : Builds ps fs) (h' : Builds qs gs) : Builds (ps ++ qs) (fs ++ gs) := by
  induction h with
  | nil => exact h'
  | text _ ih => exact .text ih
  | value _ ih => exact .value ih
  | conditional hchosen _ _ ih => simpa using Builds.conditional hchosen ih
  | alternative hchosen hother _ _ _ ih => simpa using Builds.alternative hchosen hother ih

theorem paired (h : Builds ps fs) : Paired (ps.filterMap Piece.marker?) := by
  induction h with
  | nil => exact .nil
  | text _ ih => exact ih
  | value _ ih => exact .value ih
  | conditional _ _ ih ih' => simpa [Piece.marker?] using Paired.conditional ih ih'
  | alternative _ _ _ ih ih' ih'' => simpa [Piece.marker?] using Paired.alternative ih ih' ih''

/-- Reading puts the fragments in front of those read before. -/
theorem read_append (h : Builds ps fs) (n : Nesting) (qs : List Piece) :
    n.read (ps ++ qs) = (⟨fs.reverse ++ n.fragments, n.conditionals⟩ : Nesting).read qs := by
  induction h generalizing n qs with
  | nil => rfl
  | text _ ih =>
    rw [List.cons_append, Nesting.read, ih]
    simp [Nesting.push]
  | value _ ih =>
    rw [List.cons_append, Nesting.read_marker rfl, ih]
    simp [Nesting.push]
  | conditional _ _ ih ih' =>
    rw [List.cons_append, List.append_assoc, List.cons_append, Nesting.read_marker rfl, ih,
      Nesting.read_marker (Nesting.step_closing _ _ _), ih']
    simp [Nesting.OpenConditional.close]
  | alternative _ _ _ ih ih' ih'' =>
    rw [List.cons_append, List.append_assoc, List.cons_append, List.append_assoc, List.cons_append,
      Nesting.read_marker rfl, ih, Nesting.read_marker rfl, ih',
      Nesting.read_marker (Nesting.step_closing _ _ _), ih'']
    simp [Nesting.OpenConditional.close]

end Builds

section Pairing

variable {ps : List Piece} {ms : List Marker} {m : Marker}

/-- The pieces are cut at any of their markers. -/
theorem exists_cut (front : List Marker) (h : ps.filterMap Piece.marker? = front ++ m :: ms) :
    ∃ before source after, ps = before ++ .marker m source :: after ∧
      before.filterMap Piece.marker? = front ∧ after.filterMap Piece.marker? = ms := by
  obtain ⟨before, rest, rfl, hbefore, hrest⟩ := List.filterMap_eq_append_iff.mp h
  obtain ⟨texts, p, after, rfl, htexts, hp, hafter⟩ := List.filterMap_eq_cons_iff.mp hrest
  cases p with
  | text t => cases hp
  | marker m' source =>
    obtain rfl := Option.some.inj hp
    refine ⟨before ++ texts, source, after, by simp, ?_, hafter⟩
    rw [List.filterMap_append, hbefore, List.filterMap_eq_nil_iff.mpr htexts, List.append_nil]

theorem exists_builds_of_no_marker (h : ps.filterMap Piece.marker? = []) : ∃ fs, Builds ps fs := by
  induction ps with
  | nil => exact ⟨[], .nil⟩
  | cons p ps ih =>
    cases p with
    | text t =>
      obtain ⟨fs, hfs⟩ := ih h
      exact ⟨_, .text hfs⟩
    | marker m source => cases h

theorem Paired.exists_builds (h : Paired ms) (hps : ps.filterMap Piece.marker? = ms) :
    ∃ fs, Builds ps fs := by
  induction h generalizing ps with
  | nil => exact exists_builds_of_no_marker hps
  | value _ ih =>
    obtain ⟨before, source, after, rfl, hbefore, hafter⟩ := exists_cut [] hps
    obtain ⟨fs, hfs⟩ := exists_builds_of_no_marker hbefore
    obtain ⟨hs, hhs⟩ := ih hafter
    exact ⟨_, hfs.append (.value hhs)⟩
  | conditional _ _ ih ih' =>
    obtain ⟨before, source, rest, rfl, hbefore, hrest⟩ := exists_cut [] hps
    obtain ⟨chosen, source', after, rfl, hchosen, hafter⟩ := exists_cut _ hrest
    obtain ⟨fs, hfs⟩ := exists_builds_of_no_marker hbefore
    obtain ⟨gs, hgs⟩ := ih hchosen
    obtain ⟨hs, hhs⟩ := ih' hafter
    exact ⟨_, hfs.append (.conditional hgs hhs)⟩
  | alternative _ _ _ ih ih' ih'' =>
    obtain ⟨before, source, rest, rfl, hbefore, hrest⟩ := exists_cut [] hps
    obtain ⟨chosen, source', rest', rfl, hchosen, hrest'⟩ := exists_cut _ hrest
    obtain ⟨other, source'', after, rfl, hother, hafter⟩ := exists_cut _ hrest'
    obtain ⟨fs, hfs⟩ := exists_builds_of_no_marker hbefore
    obtain ⟨gs, hgs⟩ := ih hchosen
    obtain ⟨gs', hgs'⟩ := ih' hother
    obtain ⟨hs, hhs⟩ := ih'' hafter
    exact ⟨_, hfs.append (.alternative hgs hgs' hhs)⟩

end Pairing

/-- What has been read of a body: the branches of the open conditionals, each as far as it goes. -/
inductive Leaves : List Piece → Nesting → Prop
  | level {ps : List Piece} {fs : List Fragment} : Builds ps fs → Leaves ps ⟨fs.reverse, []⟩
  | chosen {ps qs : List Piece} {outer fs : List Fragment} {cs : List OpenConditional} {tag : Tag}
      {flag source : Text} : Leaves ps ⟨outer, cs⟩ → Builds qs fs →
      Leaves (ps ++ .marker (.opening tag flag) source :: qs)
        ⟨fs.reverse, ⟨tag, flag, outer, none⟩ :: cs⟩
  | other {ps qs rs : List Piece} {outer fs gs : List Fragment} {cs : List OpenConditional}
      {tag : Tag} {flag source source' : Text} : Leaves ps ⟨outer, cs⟩ → Builds qs fs →
      Builds rs gs →
      Leaves (ps ++ .marker (.opening tag flag) source :: (qs ++ .marker .otherwise source' :: rs))
        ⟨gs.reverse, ⟨tag, flag, outer, some fs.reverse⟩ :: cs⟩

namespace Leaves

variable {ps qs : List Piece} {fs : List Fragment} {n n' : Nesting} {m : Marker}

theorem append (h : Leaves ps n) (hqs : Builds qs fs) :
    Leaves (ps ++ qs) ⟨fs.reverse ++ n.fragments, n.conditionals⟩ := by
  cases h with
  | level hps => simpa using Leaves.level (hps.append hqs)
  | chosen houter hchosen => simpa using Leaves.chosen houter (hchosen.append hqs)
  | other houter hchosen hother => simpa using Leaves.other houter hchosen (hother.append hqs)

theorem step (h : Leaves ps n) (hstep : n.step m = .ok n') (source : Text) :
    Leaves (ps ++ [.marker m source]) n' := by
  cases m with
  | value name =>
    obtain rfl := Except.ok.inj hstep
    exact h.append (.value .nil)
  | opening tag flag =>
    obtain rfl := Except.ok.inj hstep
    exact .chosen h .nil
  | otherwise =>
    cases h with
    | level | other => cases hstep
    | chosen houter hchosen =>
      obtain rfl := Except.ok.inj hstep
      simpa using Leaves.other houter hchosen .nil
  | closing tag =>
    obtain ⟨c, cs, hopen, rfl, rfl⟩ := Nesting.step_closing_eq_ok hstep
    cases h with
    | level => cases hopen
    | chosen houter hchosen =>
      obtain ⟨rfl, rfl⟩ := List.cons.inj hopen
      simpa [Nesting.OpenConditional.close] using houter.append (.conditional hchosen .nil)
    | other houter hchosen hother =>
      obtain ⟨rfl, rfl⟩ := List.cons.inj hopen
      simpa [Nesting.OpenConditional.close] using
        houter.append (.alternative hchosen hother .nil)

theorem builds (h : Leaves ps n) (hread : n.read qs = .ok fs) : Builds (ps ++ qs) fs := by
  induction qs generalizing ps n with
  | nil =>
    rw [Nesting.read, Nesting.finish] at hread
    cases h with
    | level hps =>
      obtain rfl := Except.ok.inj hread
      simpa using hps
    | chosen | other => cases hread
  | cons q qs ih =>
    rw [List.append_cons]
    cases q with
    | text t => exact ih (h.append (.text .nil)) hread
    | marker m source =>
      cases hstep : n.step m with
      | error e =>
        rw [Nesting.read_marker_error hstep] at hread
        cases hread
      | ok n' =>
        rw [Nesting.read_marker hstep] at hread
        exact ih (h.step hstep source) hread

end Leaves

theorem read_eq_ok_iff {ps : List Piece} {fs : List Fragment} :
    (⟨[], []⟩ : Nesting).read ps = .ok fs ↔ Builds ps fs := by
  constructor
  · intro h
    exact (Leaves.level .nil).builds h
  · intro h
    have hread := h.read_append ⟨[], []⟩ []
    rw [List.append_nil] at hread
    rw [hread, Nesting.read, Nesting.finish]
    simp

section Flaws

variable {n : Nesting}

theorem Nesting.step_ne_overlapping (m : Marker) (offset : Nat) :
    n.step m ≠ .error (.overlapping offset) := by
  intro h
  unfold Nesting.step at h
  grind

theorem Nesting.read_ne_overlapping (ps : List Piece) (offset : Nat) :
    n.read ps ≠ .error (.overlapping offset) := by
  induction ps generalizing n with
  | nil =>
    intro h
    unfold Nesting.read Nesting.finish at h
    split at h <;> cases h
  | cons p ps ih =>
    cases p with
    | text t => exact ih
    | marker m source =>
      cases hstep : n.step m with
      | error e =>
        rw [read_marker_error hstep]
        intro h
        obtain rfl := Except.error.inj h
        exact step_ne_overlapping m offset hstep
      | ok n' =>
        rw [read_marker hstep]
        exact ih

end Flaws

/-- A body can be read exactly if its tags are paired. No marker ever takes what another one takes,
and nothing of the body is lost: the texts, the values and the tags with what they take, in order,
are the body. -/
theorem fragments_paired (body : Text) :
    (∀ os, Leftmost body 0 os ↔ os = occurrences body) ∧
    ((∃ fs, fragments body = .ok fs) ↔ Paired ((occurrences body).map Occurrence.marker)) ∧
    (∀ offset, fragments body ≠ .error (.overlapping offset)) ∧
    ∃ ps, ps.flatMap Piece.source = body ∧
      ps.filterMap Piece.taken? = ((occurrences body).map fun o => (o.marker, o.span.textIn body)) ∧
      ∀ fs, fragments body = .ok fs ↔ Builds ps fs := by
  have htaken := taken_piecesFrom body 0 (occurrences body)
  have hmarkers : (pieces body).filterMap Piece.marker? =
      (occurrences body).map Occurrence.marker := by
    rw [markers_eq_map_taken, pieces, htaken, List.map_map]
    rfl
  have hread : ∀ fs, fragments body = .ok fs ↔ Builds (pieces body) fs := by
    intro fs
    rw [fragments_eq_read, read_eq_ok_iff]
  refine ⟨fun os => leftmost_iff, ⟨?_, ?_⟩, ?_, pieces body, source_pieces body, htaken, hread⟩
  · rintro ⟨fs, hfs⟩
    exact hmarkers ▸ ((hread fs).mp hfs).paired
  · intro hpaired
    obtain ⟨fs, hfs⟩ := hpaired.exists_builds hmarkers
    exact ⟨fs, (hread fs).mpr hfs⟩
  · rw [fragments_eq_read]
    exact Nesting.read_ne_overlapping (pieces body)

end VbaWorkbench.Snippet
