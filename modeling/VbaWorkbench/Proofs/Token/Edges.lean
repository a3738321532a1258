import VbaWorkbench.Proofs.Token.Stepping

namespace VbaWorkbench

namespace Text

/-- The line ends here. -/
def EndsLine (t : Text) : Prop :=
  t.head?.all isLineBreak = true

/-- A blank or the end of the line comes next. -/
def EndsPiece (t : Text) : Prop :=
  t.head?.all isEdge = true

theorem EndsLine.endsPiece {t : Text} (h : t.EndsLine) : t.EndsPiece := by
  cases t with
  | nil => rfl
  | cons c t => exact isEdge_of_isLineBreak h

theorem not_isLineBreak_of_isBlank {c : Char} (h : isBlank c = true) : isLineBreak c = false := by
  have he : isEdge c = true := by simp [isEdge, h]
  rcases isEdge_cases he with rfl | rfl | rfl | rfl
  · rfl
  · rfl
  · cases h
  · cases h

theorem not_isAlphabetic_of_endsPiece {t : Text} (h : t.EndsPiece) :
    t.head?.any Character.isAlphabetic = false := by
  cases t with
  | nil => rfl
  | cons c t => rcases isEdge_cases h with rfl | rfl | rfl | rfl <;> rfl

/-- Where code may be moved to: what follows a blank may end the line there, but what ends its line
stays at the end of a line. -/
def Moves (next next' : Text) : Prop :=
  (next.head?.any isBlank = true ∧ next'.EndsPiece) ∨ (next.EndsLine ∧ next'.EndsLine)

theorem Moves.endsPiece {next next' : Text} (h : Moves next next') :
    next.EndsPiece ∧ next'.EndsPiece := by
  rcases h with ⟨h, h'⟩ | ⟨h, h'⟩
  · refine ⟨?_, h'⟩
    cases next with
    | nil => rfl
    | cons c next =>
      have hc : isBlank c = true := h
      simp [EndsPiece, isEdge, hc]
  · exact ⟨h.endsPiece, h'.endsPiece⟩

theorem Moves.endsLine {next next' : Text} (h : Moves next next') (he : next.EndsLine) :
    next'.EndsLine := by
  rcases h with ⟨hb, -⟩ | ⟨-, he'⟩
  · cases next with
    | nil => cases hb
    | cons d next => exact absurd he (by simp [EndsLine, not_isLineBreak_of_isBlank hb])
  · exact he'

theorem head?_ne_quote_of_endsPiece {t : Text} (h : t.EndsPiece) : t.head? ≠ some '"' := by
  intro he
  rw [EndsPiece, he] at h
  cases h

/-- A comment that ended its line still does when the end of a line follows. -/
theorem many_line_moved {t u u' : Text} (hline : u.EndsLine → u'.EndsLine)
    (h : Reach.many (fun d => !isLineBreak d) (t ++ u) = t.length) :
    Reach.many (fun d => !isLineBreak d) (t ++ u') = t.length := by
  rw [Reach.many_eq_length] at h ⊢
  refine ⟨h.1, ?_⟩
  simp only [Bool.not_not] at h ⊢
  exact hline h.2

theorem lineBreak_eq_zero {t : Text} (h : t.head?.any isLineBreak = false) :
    Reach.lineBreak t = 0 := by
  apply Classical.byContradiction
  intro hne
  obtain ⟨d, more, rfl, hd⟩ := Shape.exists_lineBreak hne
  simp [hd] at h

end Text

section Single

variable {state state' : ScanState} {c : Char} {cs next next' : Text} {k k' : TokenKind} {n : Nat}

/-- A reader that takes `n` characters reads the lexeme exactly if that is its length. -/
theorem readsIn_single {after : ScanState}
    (hstep : scanStep state c (cs ++ next) = ([⟨k', c :: (cs ++ next).take n⟩], n, after))
    (hn : n ≤ (cs ++ next).length) :
    Lexeme.ReadsIn state next ⟨k, c :: cs⟩ ↔ k = k' ∧ n = cs.length := by
  constructor
  · rintro ⟨d, ds, htext, hfirst⟩
    obtain ⟨rfl, rfl⟩ := List.cons.inj htext
    rw [hstep] at hfirst
    have hl := Option.some.inj hfirst
    have hk : k' = k := congrArg Lexeme.kind hl
    have ht : c :: (cs ++ next).take n = c :: cs := congrArg Lexeme.text hl
    refine ⟨hk.symm, ?_⟩
    have hlength := congrArg List.length (List.cons.inj ht).2
    rwa [List.length_take, Nat.min_eq_left hn] at hlength
  · rintro ⟨rfl, rfl⟩
    refine ⟨c, cs, rfl, ?_⟩
    rw [hstep, List.take_left]
    rfl

theorem readsIn_blank (hc : Text.isBlank c = true) :
    Lexeme.ReadsIn state next ⟨k, c :: cs⟩ ↔
      k = .whitespace ∧ Reach.many Text.isBlank (cs ++ next) = cs.length :=
  readsIn_single (scanStep_blank hc) (Reach.many_le _ _)

theorem readsIn_apostrophe :
    Lexeme.ReadsIn state next ⟨k, '\'' :: cs⟩ ↔
      k = .comment ∧ Reach.many (fun d => !Text.isLineBreak d) (cs ++ next) = cs.length :=
  readsIn_single scanStep_apostrophe (Reach.many_le _ _)

theorem readsIn_quote :
    Lexeme.ReadsIn state next ⟨k, '"' :: cs⟩ ↔
      k = .stringLiteral ∧ Reach.quoted (cs ++ next) = cs.length :=
  readsIn_single scanStep_quote (Reach.quoted_stopsAt.bound _)

/-- An underscore before a line break is by itself only if no blank stands before it. -/
theorem readsIn_underscore :
    Lexeme.ReadsIn state next ⟨k, '_' :: cs⟩ ∧ k ≠ .lineContinuation ↔
      (k = .punctuation ∧ cs = []) ∧ (Reach.lineBreak next = 0 ∨ state.afterBlank = false) := by
  constructor
  · rintro ⟨h, hk⟩
    by_cases hn : Reach.lineBreak (cs ++ next) = 0
    · obtain ⟨rfl, hcs⟩ := (readsIn_single (scanStep_underscore hn) (Nat.zero_le _)).mp h
      obtain rfl := List.eq_nil_of_length_eq_zero hcs.symm
      exact ⟨⟨rfl, rfl⟩, .inl hn⟩
    · cases hb : state.afterBlank with
      | true =>
        have hsingle := readsIn_single (k := k) (scanStep_continuation hn hb)
          (Reach.lineBreak_le (cs ++ next))
        exact absurd (hsingle.mp h).1 hk
      | false =>
        obtain ⟨d, ds, htext, hfirst⟩ := h
        obtain ⟨rfl, rfl⟩ := List.cons.inj htext
        rw [scanStep_broken hn hb] at hfirst
        have hl : (⟨.punctuation, ['_']⟩ : Lexeme) = ⟨k, '_' :: cs⟩ := Option.some.inj hfirst
        injection hl with hk' ht
        exact ⟨⟨hk'.symm, (List.cons.inj ht).2.symm⟩, .inr rfl⟩
  · rintro ⟨⟨rfl, rfl⟩, h⟩
    refine ⟨⟨'_', [], rfl, ?_⟩, by simp⟩
    by_cases hn : Reach.lineBreak next = 0
    · rw [List.nil_append, scanStep_underscore hn]
      rfl
    · rw [List.nil_append, scanStep_broken hn (h.resolve_left hn)]
      rfl

/-- A continuation is read behind a blank. -/
theorem readsIn_continuation (hb : state.afterBlank = true) (hne : cs ≠ [])
    (hn : Reach.lineBreak (cs ++ next) = cs.length) :
    Lexeme.ReadsIn state next ⟨.lineContinuation, '_' :: cs⟩ := by
  have hne' : Reach.lineBreak (cs ++ next) ≠ 0 := by
    rw [hn]
    exact fun h => hne (List.eq_nil_of_length_eq_zero h)
  exact (readsIn_single (scanStep_continuation hne' hb) (Reach.lineBreak_le _)).mpr ⟨rfl, hn⟩

theorem readsIn_newline (hc : Text.isLineBreak c = true)
    (hn : Reach.lineBreak (c :: cs ++ next) = cs.length + 1) :
    Lexeme.ReadsIn state next ⟨.newline, c :: cs⟩ := by
  have hle := Reach.lineBreak_le (c :: (cs ++ next))
  refine (readsIn_single (scanStep_lineBreak hc) ?_).mpr ⟨rfl, ?_⟩
  · rw [List.length_cons] at hle
    omega
  · rw [List.cons_append] at hn
    omega

/-- The lexemes that a character begins, but for a remark, depend neither on what comes after a
blank or a break nor on blanks before. -/
theorem scanStep_plain (hc : Shape.isPlain c = true) {t u : Text} (hu : u.EndsPiece)
    {shape : Shape} {n : Nat} (hread : Shape.read c t = (shape, n))
    (hstart : state'.statementStart = state.statementStart)
    (hr : beginsRemark state shape (c :: t.take n) = false) :
    (scanStep state' c (t ++ u)).1 = (scanStep state c t).1 := by
  obtain ⟨hcode, hle, happ⟩ := Shape.read_plain hc t
  rw [hread] at hcode hle happ
  have htake : (t ++ u).take n = t.take n := List.take_append_of_le_length hle
  have hdrop : (t ++ u).drop n = t.drop n ++ u := List.drop_append_of_le_length hle
  have hr' : beginsRemark state' shape (c :: (t ++ u).take n) = false := by
    rw [htake, beginsRemark, hstart]
    exact hr
  rw [scanStep_code (happ u hu) hr', scanStep_code hread hr, htake, hdrop]
  have hnext : (t.drop n ++ u).head?.any Character.isAlphabetic =
      (t.drop n).head?.any Character.isAlphabetic := by
    cases t.drop n with
    | nil => exact Text.not_isAlphabetic_of_endsPiece hu
    | cons d more => rfl
  cases shape with
  | word => simp only [Lexeme.ofShape, Lexeme.ofWord, hnext]
  | number | separator | operator | other => rfl
  | whitespace | newline | brokenUnderscore | comment | quoted => cases hcode

theorem readsIn_remark (hc : Shape.isPlain c = true) {t u : Text} (hu : u.EndsPiece)
    {shape : Shape} {n : Nat} (hread : Shape.read c t = (shape, n))
    (hr : beginsRemark state shape (c :: t.take n) = true) (ht : cs ++ next = t ++ u) :
    Lexeme.ReadsIn state next ⟨k, c :: cs⟩ ↔
      k = .comment ∧ Reach.many (fun d => !Text.isLineBreak d) (cs ++ next) = cs.length := by
  obtain ⟨-, hle, happ⟩ := Shape.read_plain hc t
  rw [hread] at hle happ
  have htake : (t ++ u).take n = t.take n := List.take_append_of_le_length hle
  have hr' : beginsRemark state shape (c :: (cs ++ next).take n) = true := by
    rw [ht, htake]
    exact hr
  have hread' : Shape.read c (cs ++ next) = (shape, n) := by
    rw [ht]
    exact happ u hu
  exact readsIn_single (scanStep_remark hread' hr')
    (Reach.many_le _ _)

theorem readsIn_lineBreak_kind (hc : Text.isLineBreak c = true)
    (h : Lexeme.ReadsIn state next ⟨k, c :: cs⟩) : k = .newline := by
  obtain ⟨d, ds, htext, hfirst⟩ := h
  obtain ⟨rfl, rfl⟩ := List.cons.inj htext
  rw [scanStep_lineBreak hc] at hfirst
  exact (congrArg Lexeme.kind (Option.some.inj hfirst)).symm

end Single

section Moves

variable {state state' : ScanState} {l : Lexeme} {u u' : Text}

/-- Inside a piece a lexeme is read as before when the piece is moved. -/
theorem readsIn_inside {d : Char} {y : Text} (h : l.ReadsIn state (d :: y ++ u))
    (hd : Text.isLineBreak d = false) (hu : u.EndsPiece) (hu' : u'.EndsPiece)
    (hstart : state'.statementStart = state.statementStart) (hk : l.kind ≠ .newline)
    (hk' : l.kind ≠ .lineContinuation) : l.ReadsIn state' (d :: y ++ u') := by
  obtain ⟨c, cs, htext, -⟩ := id h
  obtain ⟨k, text⟩ := l
  obtain rfl : text = c :: cs := htext
  rcases Shape.class_cases c with hc | hc | rfl | rfl | rfl | hc
  · rw [readsIn_blank hc, Reach.many_eq_length] at h ⊢
    exact h
  · exact absurd (readsIn_lineBreak_kind hc h) hk
  · obtain ⟨hl, -⟩ := readsIn_underscore.mp ⟨h, hk'⟩
    have hn : Reach.lineBreak (d :: y ++ u') = 0 := Text.lineBreak_eq_zero hd
    exact (readsIn_underscore.mpr ⟨hl, .inl hn⟩).1
  · rw [readsIn_apostrophe, Reach.many_eq_length] at h
    simp [hd] at h
  · rw [readsIn_quote] at h ⊢
    have hne : (d :: y ++ u').head? ≠ some '"' := by
      simpa using Reach.quoted_next_ne h.2
    exact ⟨h.1, Reach.quoted_closed hd h.2 hne⟩
  · have ht : ∀ u, cs ++ (d :: y ++ u) = cs ++ d :: y ++ u :=
      fun u => (List.append_assoc _ _ _).symm
    cases hread : Shape.read c (cs ++ d :: y) with
    | mk shape n =>
    cases hr : beginsRemark state shape (c :: (cs ++ d :: y).take n) with
    | true =>
      rw [readsIn_remark hc hu hread hr (ht u), Reach.many_eq_length] at h
      simp [hd] at h
    | false =>
      obtain ⟨c', cs', htext', hfirst⟩ := h
      obtain ⟨rfl, rfl⟩ := List.cons.inj htext'
      refine ⟨c, cs, rfl, ?_⟩
      rw [ht u, scanStep_plain hc hu hread rfl hr] at hfirst
      rw [ht u', scanStep_plain hc hu' hread hstart hr]
      exact hfirst

/-- The last lexeme of a piece is read as before when the piece is moved, but for an underscore that
comes between a blank and a line break. -/
theorem readsIn_moved (h : l.ReadsIn state u) (hm : Text.Moves u u')
    (hstart : state'.statementStart = state.statementStart) (hw : l.kind ≠ .whitespace)
    (hk : l.kind ≠ .newline) (hk' : l.kind ≠ .lineContinuation)
    (hloose : l = ⟨.punctuation, ['_']⟩ → Reach.lineBreak u' = 0 ∨ state'.afterBlank = false) :
    l.ReadsIn state' u' := by
  obtain ⟨c, cs, htext, -⟩ := id h
  obtain ⟨k, text⟩ := l
  obtain rfl : text = c :: cs := htext
  obtain ⟨hu, hu'⟩ := hm.endsPiece
  rcases Shape.class_cases c with hc | hc | rfl | rfl | rfl | hc
  · rw [readsIn_blank hc] at h
    exact absurd h.1 hw
  · exact absurd (readsIn_lineBreak_kind hc h) hk
  · obtain ⟨⟨rfl, rfl⟩, -⟩ := readsIn_underscore.mp ⟨h, hk'⟩
    exact (readsIn_underscore.mpr ⟨⟨rfl, rfl⟩, hloose rfl⟩).1
  · rw [readsIn_apostrophe] at h ⊢
    exact ⟨h.1, Text.many_line_moved hm.endsLine h.2⟩
  · rw [readsIn_quote] at h ⊢
    refine ⟨h.1, ?_⟩
    rcases hm with ⟨hb, he'⟩ | ⟨he, he'⟩
    · cases u with
      | nil => cases hb
      | cons d u =>
        exact Reach.quoted_closed (Text.not_isLineBreak_of_isBlank hb) h.2
          (Text.head?_ne_quote_of_endsPiece he')
    · rw [Reach.quoted_stopsAt.stops cs u' he', ← Reach.quoted_stopsAt.stops cs u he]
      exact h.2
  · cases hread : Shape.read c cs with
    | mk shape n =>
    cases hr : beginsRemark state shape (c :: cs.take n) with
    | true =>
      have hr' : beginsRemark state' shape (c :: cs.take n) = true := by
        rw [beginsRemark, hstart]
        exact hr
      rw [readsIn_remark hc hu hread hr rfl] at h
      rw [readsIn_remark hc hu' hread hr' rfl]
      exact ⟨h.1, Text.many_line_moved hm.endsLine h.2⟩
    | false =>
      obtain ⟨c', cs', htext', hfirst⟩ := h
      obtain ⟨rfl, rfl⟩ := List.cons.inj htext'
      refine ⟨c, cs, rfl, ?_⟩
      rw [scanStep_plain hc hu hread rfl hr] at hfirst
      rw [scanStep_plain hc hu' hread hstart hr]
      exact hfirst

end Moves

namespace Text

theorem trimRight_cons {p : Char → Bool} {c : Char} (h : p c = false) (t : Text) :
    trimRight p (c :: t) = c :: trimRight p t := by
  have hc : [c].dropWhile p = [c] := by simp [h]
  rw [trimRight, List.reverse_cons, List.dropWhile_append]
  split
  · rename_i he
    rw [hc, trimRight, List.isEmpty_iff.mp he]
    rfl
  · rw [List.reverse_append]
    rfl

/-- What is trimmed satisfies the test. -/
theorem trimRight_append (p : Char → Bool) (t : Text) :
    ∃ rest, t = trimRight p t ++ rest ∧ ∀ c ∈ rest, p c = true := by
  refine ⟨(t.reverse.takeWhile p).reverse, ?_, ?_⟩
  · rw [trimRight, ← List.reverse_append, List.takeWhile_append_dropWhile, List.reverse_reverse]
  · intro c hc
    exact List.all_eq_true.mp List.all_takeWhile c (List.mem_reverse.mp hc)

end Text

namespace Lexeme

/-- A comment without the blanks at its end. -/
def trim (l : Lexeme) : Lexeme :=
  if l.kind = .comment then ⟨.comment, Text.trimRight Text.isBlank l.text⟩ else l

theorem trim_of_ne {l : Lexeme} (h : l.kind ≠ .comment) : l.trim = l :=
  if_neg h

end Lexeme

theorem endsPiece_append {rest u : Text} (h : ∀ c ∈ rest, Text.isBlank c = true)
    (hu : u.EndsPiece) : (rest ++ u).EndsPiece := by
  cases rest with
  | nil => exact hu
  | cons c rest => simp [Text.EndsPiece, Text.isEdge, h c]

/-- The kinds of code that begins with a plain character. -/
theorem kind_ne_comment {state : ScanState} {c : Char} {t : Text} {shape : Shape} {n : Nat}
    {l : Lexeme} (hc : Shape.isPlain c = true) (hread : Shape.read c t = (shape, n))
    (hr : beginsRemark state shape (c :: t.take n) = false)
    (hl : (scanStep state c t).1.head? = some l) : l.kind ≠ .comment := by
  have hcode := (Shape.read_plain hc t).1
  rw [hread] at hcode
  rw [scanStep_code hread hr] at hl
  cases shape with
  | word =>
    rcases ofWord_cases (c :: t.take n) (t.drop n) with ⟨k, hk, hw⟩ | ⟨k, base, hk, -, hw⟩
    · rw [Lexeme.ofShape, hw] at hl
      obtain rfl := Option.some.inj hl
      rcases hk with rfl | rfl <;> simp
    · rw [Lexeme.ofShape, hw] at hl
      obtain rfl := Option.some.inj hl
      rcases hk with rfl | rfl <;> simp
  | number | separator | operator | other =>
    obtain rfl := Option.some.inj hl
    simp
  | whitespace | newline | brokenUnderscore | comment | quoted => cases hcode

/-- A comment is still read as one without the blanks at its end. -/
theorem readsIn_trim {state state' : ScanState} {l : Lexeme} {u u' : Text}
    (h : l.ReadsIn state u) (hk : l.kind = .comment) (hu' : u'.EndsLine)
    (hstart : state'.statementStart = state.statementStart) :
    u.EndsLine ∧ l.trim.ReadsIn state' u' := by
  obtain ⟨c, cs, htext, -⟩ := id h
  obtain ⟨k, text⟩ := l
  obtain rfl : text = c :: cs := htext
  obtain rfl : k = .comment := hk
  obtain ⟨rest, hcs, hrest⟩ := Text.trimRight_append Text.isBlank cs
  have hshort : ∀ {t : Text}, Reach.many (fun d => !Text.isLineBreak d) (cs ++ t) = cs.length →
      t.EndsLine ∧ Reach.many (fun d => !Text.isLineBreak d)
        (Text.trimRight Text.isBlank cs ++ u') = (Text.trimRight Text.isBlank cs).length := by
    intro t ht
    rw [Reach.many_eq_length] at ht ⊢
    simp only [Bool.not_not] at ht ⊢
    refine ⟨ht.2, fun d hd => ht.1 d ?_, hu'⟩
    rw [hcs]
    exact List.mem_append_left _ hd
  rcases Shape.class_cases c with hc | hc | rfl | rfl | rfl | hc
  · cases (readsIn_blank hc).mp h |>.1
  · cases readsIn_lineBreak_kind hc h
  · cases (readsIn_underscore.mp ⟨h, by simp⟩).1.1
  · have hmany := (readsIn_apostrophe.mp h).2
    rw [Lexeme.trim, if_pos rfl, Text.trimRight_cons rfl]
    exact ⟨(hshort hmany).1, readsIn_apostrophe.mpr ⟨rfl, (hshort hmany).2⟩⟩
  · cases (readsIn_quote.mp h).1
  · have hnil : Text.EndsPiece [] := rfl
    cases hread : Shape.read c (cs ++ u) with
    | mk shape n =>
    cases hr : beginsRemark state shape (c :: (cs ++ u).take n) with
    | false =>
      obtain ⟨c', cs', htext', hfirst⟩ := h
      obtain ⟨rfl, rfl⟩ := List.cons.inj htext'
      exact absurd rfl (kind_ne_comment hc hread hr hfirst)
    | true =>
      have hmany := ((readsIn_remark hc hnil hread hr (List.append_nil _).symm).mp h).2
      have hu := (hshort hmany).1
      -- The word that begins the remark ends before the blanks that are trimmed.
      obtain ⟨-, hle, happ⟩ := Shape.read_plain hc (Text.trimRight Text.isBlank cs)
      have hread' := happ (rest ++ u) (endsPiece_append hrest hu.endsPiece)
      rw [← List.append_assoc, ← hcs, hread] at hread'
      rw [← hread'] at hle
      have htake : (cs ++ u).take n = (Text.trimRight Text.isBlank cs).take n := by
        conv => lhs; rw [hcs, List.append_assoc]
        exact List.take_append_of_le_length hle
      have hr' :
          beginsRemark state' shape (c :: (Text.trimRight Text.isBlank cs).take n) = true := by
        rw [← htake, beginsRemark, hstart]
        exact hr
      have hplain : Text.isBlank c = false := by
        simp only [Shape.isPlain, Text.isEdge, Bool.and_eq_true, Bool.not_eq_true',
          Bool.or_eq_false_iff] at hc
        exact hc.1.1.1.1
      rw [Lexeme.trim, if_pos rfl, Text.trimRight_cons hplain]
      exact ⟨hu, (readsIn_remark hc hu'.endsPiece hread'.symm hr' rfl).mpr
        ⟨rfl, (hshort hmany).2⟩⟩

end VbaWorkbench
