import VbaWorkbench.Proofs.Snippet.Pieces

namespace VbaWorkbench.Snippet

/-- The lines of a text, each with its line feed. -/
def linesOf : Text → List Text
  | [] => []
  | c :: t =>
    if c = '\n' then [c] :: linesOf t
    else
      match linesOf t with
      | [] => [[c]]
      | line :: rest => (c :: line) :: rest

theorem linesOf_cons {c : Char} {t line : Text} {rest : List Text} (hc : c ≠ '\n')
    (h : linesOf t = line :: rest) : linesOf (c :: t) = (c :: line) :: rest := by
  rw [linesOf, if_neg hc, h]

/-- A line and the text behind it. Only the last line of a text may lack a line feed. -/
inductive IsLine : (line more : Text) → Prop
  | ended {l more : Text} : '\n' ∉ l → IsLine (l ++ ['\n']) more
  | last {l : Text} : '\n' ∉ l → IsLine l []

/-- A text is empty or a line with more behind it. -/
theorem lines_induction {motive : Text → Prop} (nil : motive [])
    (line : ∀ line more, line ≠ [] → IsLine line more → motive more → motive (line ++ more))
    (t : Text) : motive t := by
  induction hn : t.length using Nat.strongRecOn generalizing t with
  | ind n ih =>
    by_cases hbreak : '\n' ∈ t
    · obtain ⟨l, more, rfl, hl⟩ := List.eq_append_cons_of_mem hbreak
      have hmore := ih more.length (by simp [← hn]; omega) more rfl
      simpa using line _ more (by simp) (.ended hl) hmore
    · by_cases hempty : t = []
      · rw [hempty]
        exact nil
      · simpa using line t [] hempty (.last hbreak) nil

namespace IsLine

variable {line more before after source : Text} {m : Marker}

theorem linesOf_append (h : IsLine line more) (hne : line ≠ []) :
    linesOf (line ++ more) = line :: linesOf more := by
  cases h with
  | @ended l more hl =>
    clear hne
    induction l with
    | nil => rfl
    | cons c l ih =>
      rw [List.mem_cons, not_or] at hl
      exact linesOf_cons (Ne.symm hl.1) (ih hl.2)
  | last hl =>
    rw [List.append_nil]
    induction line with
    | nil => exact absurd rfl hne
    | cons c l ih =>
      rw [List.mem_cons, not_or] at hl
      cases l with
      | nil => simp [linesOf]
      | cons d l =>
        exact linesOf_cons (Ne.symm hl.1) (ih (List.cons_ne_nil d l) hl.2)

/-- Around a marker in a line there is nothing but the line. -/
theorem around (h : IsLine line more) (hline : line = before ++ (source ++ after))
    (hwritten : m.Written source) :
    lastLine before = before ∧ firstLine (after ++ more) = after := by
  cases h with
  | @ended l more hl =>
    obtain ⟨front, hclose⟩ := hwritten.exists_append
    rcases List.eq_nil_or_concat after with rfl | ⟨rest, d, rfl⟩
    · -- The marker would end with the line feed.
      rw [hclose, List.append_nil, ← List.append_assoc] at hline
      have hsame := (List.append_inj' hline rfl).2
      simp at hsame
    · rw [List.concat_eq_append] at hline ⊢
      rw [← List.append_assoc, ← List.append_assoc] at hline
      obtain ⟨rfl, hd⟩ := List.append_inj' hline rfl
      obtain rfl := (List.cons.inj hd).1
      simp only [List.mem_append, not_or] at hl
      refine ⟨lastLine_eq_self hl.1.1, ?_⟩
      rw [firstLine_append_of_mem _ (by simp), firstLine_append_of_not_mem _ hl.2]
      rfl
  | last hl =>
    subst hline
    simp only [List.mem_append, not_or] at hl
    rw [List.append_nil]
    exact ⟨lastLine_eq_self hl.1, firstLine_eq_self hl.2.2⟩

end IsLine

theorem BeginsMarker.append {t : Text} (h : BeginsMarker t) (u : Text) : BeginsMarker (t ++ u) := by
  obtain ⟨m, source, hsource, hwritten⟩ := h
  exact ⟨m, source, hsource.trans (List.prefix_append t u), hwritten⟩

theorem occurrences_nil : occurrences [] = [] := by
  rw [occurrences, parts]
  rfl

theorem not_beginsMarker_nil : ¬BeginsMarker [] := by
  rw [beginsMarker_iff]
  simp [marker?, after?]

namespace Occurrence

/-- The marker where more text follows. -/
def followedBy (more : Text) (o : Occurrence) : Occurrence :=
  { o with after := o.after ++ more }

/-- The marker in a text that stands behind a line. -/
def behind (line : Text) (o : Occurrence) : Occurrence :=
  { o with before := line ++ o.before }

/-- What stands alone behind a line stands alone without it. -/
theorem standsAlone_behind (o : Occurrence) (l : Text) :
    (o.behind (l ++ ['\n'])).standsAlone = o.standsAlone := by
  simp only [Occurrence.standsAlone, Occurrence.behind, lastLine_ended_append]

/-- What a marker takes is moved with it. -/
theorem span_behind (o : Occurrence) (l : Text) : (o.behind (l ++ ['\n'])).span =
    ⟨(l ++ ['\n']).length + o.span.start, (l ++ ['\n']).length + o.span.stop⟩ := by
  have hle := length_lastLine_le o.before
  unfold Occurrence.span
  rw [standsAlone_behind]
  simp only [Occurrence.behind, lastLine_ended_append, List.length_append]
  cases o.marker.isTag && o.standsAlone with
  | false => simp [Nat.add_assoc]
  | true =>
    simp
    omega

end Occurrence

/-- The pieces behind a line are the pieces of the text behind it. -/
theorem piecesFrom_behind (l more : Text) (cursor : Nat) (os : List Occurrence) :
    piecesFrom (l ++ ['\n'] ++ more) ((l ++ ['\n']).length + cursor)
      (os.map (·.behind (l ++ ['\n']))) = piecesFrom more cursor os := by
  have hdrop : ∀ i, (l ++ ['\n'] ++ more).drop ((l ++ ['\n']).length + i) = more.drop i := by
    intro i
    rw [← List.drop_drop, List.drop_left]
  induction os generalizing cursor with
  | nil => rw [List.map_nil, piecesFrom, piecesFrom, hdrop]
  | cons o os ih =>
    rw [List.map_cons, piecesFrom, piecesFrom, o.span_behind, ih]
    simp only [Span.textIn, hdrop, Nat.add_sub_add_left]
    rfl

namespace Leftmost

variable {body line more : Text} {start : Nat} {o : Occurrence} {os : List Occurrence}

theorem later {start' : Nat} (h : Leftmost body start os) (hle : start ≤ start')
    (hos : ∀ o ∈ os.head?, start' ≤ o.before.length) : Leftmost body start' os := by
  cases h with
  | nil hall => exact .nil fun i hi => hall i (Nat.le_trans hle hi)
  | cons _ hbody hwritten hfirst hrest =>
    exact .cons (hos _ rfl) hbody hwritten
      (fun i hi => hfirst i (Nat.le_trans hle hi)) hrest

theorem mem (h : Leftmost body start os) (ho : o ∈ os) :
    start ≤ o.before.length ∧ body = o.before ++ (o.source ++ o.after) ∧
      o.marker.Written o.source := by
  induction h with
  | nil => cases ho
  | cons hle hbody hwritten _ _ ih =>
    rcases List.mem_cons.mp ho with rfl | ho
    · exact ⟨hle, hbody, hwritten⟩
    · obtain ⟨hlater, hrest⟩ := ih ho
      exact ⟨by omega, hrest⟩

/-- The markers of a text also stand in it behind a line. -/
theorem behind (h : Leftmost more start os) (line : Text) :
    Leftmost (line ++ more) (line.length + start) (os.map (·.behind line)) := by
  have hdrop : ∀ start i, line.length + start ≤ i → ∃ j, start ≤ j ∧ i = line.length + j ∧
      (line ++ more).drop i = more.drop j := by
    intro start i hi
    refine ⟨i - line.length, by omega, by omega, ?_⟩
    rw [List.drop_append, List.drop_eq_nil_of_le (by omega), List.nil_append]
  induction h with
  | nil hall =>
    refine .nil ?_
    intro i hi
    obtain ⟨j, hj, -, heq⟩ := hdrop _ i hi
    rw [heq]
    exact hall j hj
  | @cons start o os hle hbody hwritten hfirst hrest ih =>
    rw [List.map_cons]
    refine .cons ?_ ?_ hwritten ?_ ?_
    · simp [Occurrence.behind, hle]
    · simp [Occurrence.behind, hbody]
    · intro i hi hlt
      obtain ⟨j, hj, rfl, heq⟩ := hdrop _ i hi
      rw [heq]
      apply hfirst j hj
      simpa [Occurrence.behind] using hlt
    · have hstart : (o.behind line).before.length + (o.behind line).source.length =
          line.length + (o.before.length + o.source.length) := by
        simp [Occurrence.behind, Nat.add_assoc]
      rw [hstart]
      exact ih

/-- The markers that begin behind a line are those of the text behind it. -/
theorem beyond (h : Leftmost (line ++ more) start os) (hle : start ≤ line.length)
    (hos : ∀ o ∈ os.head?, line.length ≤ o.before.length) :
    os = (occurrences more).map (·.behind line) :=
  (h.later hle hos).unique ((occurrences_leftmost more).behind line)

/-- A marker that begins in a line and holds no line feed ends in it. -/
theorem exists_followedBy {l : Text} (hline : line = l ++ ['\n'])
    (hbody : line ++ more = o.before ++ (o.source ++ o.after))
    (hlt : o.before.length < line.length) (hsource : '\n' ∉ o.source) :
    ∃ o' : Occurrence, o = o'.followedBy more ∧ line = o'.before ++ (o'.source ++ o'.after) := by
  obtain ⟨gap, hgap, htail⟩ := exists_gap hbody.symm (Nat.le_of_lt hlt)
  have hbreak : '\n' ∈ gap := by
    have hlength : o.before.length ≤ l.length := by
      rw [hline, List.length_append] at hlt
      exact Nat.le_of_lt_succ hlt
    obtain ⟨gap', -, hgap'⟩ := exists_gap (hgap.symm.trans hline) hlength
    simp [hgap']
  have hle : o.source.length ≤ gap.length := by
    by_contra hlonger
    obtain ⟨rest, hrest, -⟩ := exists_gap htail.symm (by omega)
    exact hsource (hrest ▸ List.mem_append_left rest hbreak)
  obtain ⟨after, hafter, hmore⟩ := exists_gap htail hle
  refine ⟨⟨o.before, o.marker, o.source, after⟩, ?_, ?_⟩
  · rw [Occurrence.followedBy, ← hmore]
  · rw [hgap, hafter]

/-- Where no marker holds a line feed, a line cuts the markers in two. -/
theorem cut {l : Text} (h : Leftmost (line ++ more) start os) (hline : line = l ++ ['\n'])
    (hstart : start ≤ line.length) (hsource : ∀ o ∈ os, '\n' ∉ o.source) :
    ∃ os', Leftmost line start os' ∧
      os = os'.map (·.followedBy more) ++ (occurrences more).map (·.behind line) := by
  have hwithin : ∀ i, i ≤ line.length → BeginsMarker (line.drop i) →
      BeginsMarker ((line ++ more).drop i) := by
    intro i hi hbegins
    rw [List.drop_append_of_le_length hi]
    exact hbegins.append more
  have hempty : ∀ start, (∀ i, start ≤ i → i < line.length →
      ¬BeginsMarker ((line ++ more).drop i)) → Leftmost line start [] := by
    intro start hall
    refine .nil ?_
    intro i hi
    rcases Nat.lt_or_ge i line.length with hlt | hge
    · exact mt (hwithin i (Nat.le_of_lt hlt)) (hall i hi hlt)
    · rw [List.drop_eq_nil_of_le hge]
      exact not_beginsMarker_nil
  generalize hbody : line ++ more = body at h
  induction h with
  | nil hall =>
    subst hbody
    refine ⟨[], hempty _ fun i hi _ => hall i hi, ?_⟩
    exact (Leftmost.nil hall).beyond hstart (by simp)
  | @cons start o os hle hsplit hwritten hfirst hrest ih =>
    subst hbody
    rcases Nat.lt_or_ge o.before.length line.length with hlt | hge
    · obtain ⟨o', rfl, hline'⟩ := exists_followedBy hline hsplit hlt
        (hsource o List.mem_cons_self)
      have hstop : o'.before.length + o'.source.length ≤ line.length := by
        rw [hline', ← List.append_assoc, ← List.length_append]
        exact (List.prefix_append _ _).length_le
      obtain ⟨os', hos', rfl⟩ := ih hstop fun o ho => hsource o (List.mem_cons_of_mem _ ho)
      refine ⟨o' :: os', .cons hle hline' hwritten ?_ hos', rfl⟩
      intro i hi hbefore
      exact mt (hwithin i (Nat.le_of_lt (Nat.lt_trans hbefore hlt))) (hfirst i hi hbefore)
    · refine ⟨[], hempty _ fun i hi hlt => hfirst i hi (by omega), ?_⟩
      exact (Leftmost.cons hle hsplit hwritten hfirst hrest).beyond hstart (by simpa using hge)

end Leftmost

namespace IsLine

variable {line more : Text}

/-- Where no marker holds a line feed, the markers of a text are those of its first line and, moved
behind it, those of the rest. -/
theorem occurrences_append (h : IsLine line more)
    (hsource : ∀ o ∈ occurrences (line ++ more), '\n' ∉ o.source) :
    occurrences (line ++ more) =
      (occurrences line).map (·.followedBy more) ++ (occurrences more).map (·.behind line) := by
  cases h with
  | ended hl =>
    obtain ⟨os', hos', hcut⟩ := (occurrences_leftmost _).cut rfl (Nat.zero_le _) hsource
    rw [leftmost_iff.mp hos'] at hcut
    exact hcut
  | last hl =>
    have hsame : (·.followedBy []) = (id : Occurrence → Occurrence) := by
      funext o
      simp [Occurrence.followedBy]
    rw [List.append_nil, occurrences_nil, hsame, List.map_id, List.map_nil, List.append_nil]

theorem piecesFrom_more (h : IsLine line more) : piecesFrom (line ++ more) line.length
    ((occurrences more).map (·.behind line)) = pieces more := by
  cases h with
  | ended hl => exact piecesFrom_behind _ more 0 (occurrences more)
  | last hl =>
    rw [occurrences_nil, List.append_nil, List.map_nil, piecesFrom, pieces, occurrences_nil,
      piecesFrom, List.drop_length]
    rfl

theorem start_behind (h : IsLine line more) :
    ∀ o ∈ ((occurrences more).map (·.behind line)).head?, line.length ≤ o.span.start := by
  intro o ho
  obtain ⟨o, ho, rfl⟩ := List.mem_map.mp (List.mem_of_mem_head? ho)
  cases h with
  | ended hl =>
    rw [o.span_behind]
    exact Nat.le_add_right _ _
  | last hl =>
    rw [occurrences_nil] at ho
    cases ho

theorem alone_behind (h : IsLine line more) {o : Occurrence} (ho : o ∈ occurrences more) :
    (o.behind line).standsAlone = o.standsAlone := by
  cases h with
  | ended hl => exact o.standsAlone_behind _
  | last hl =>
    rw [occurrences_nil] at ho
    cases ho

end IsLine

end VbaWorkbench.Snippet
