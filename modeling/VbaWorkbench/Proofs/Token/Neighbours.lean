import VbaWorkbench.Proofs.Token.LetterCase
import VbaWorkbench.Proofs.Token.LineCuts
import VbaWorkbench.Proofs.Token.Names

namespace VbaWorkbench

namespace Token

/-- Whitespace and continuations stand between the words of a statement. -/
def isGap (t : Token) : Bool :=
  t.kind == .whitespace || t.kind == .lineContinuation

theorem isGap_iff {t : Token} :
    t.isGap = true ↔ t.kind = .whitespace ∨ t.kind = .lineContinuation := by
  simp [isGap]

/-- The token before a place, but for gaps. -/
def lastWord (before : List Token) : Option Token :=
  (before.filter (!·.isGap)).getLast?

/-- A statement begins after these tokens: at the start of the source, and after a newline or a
separator. -/
def BeginsStatement (before : List Token) : Prop :=
  ∀ t ∈ lastWord before, t.kind = .newline ∨ t.kind = .statementSeparator

/-- A newline or the end marker comes next. -/
def EndsLine (after : List Token) : Prop :=
  ∃ t ∈ after.head?, t.kind = .newline ∨ t.kind = .endOfInput

/-- What holds of a token among its neighbours. -/
structure FitsIn (before : List Token) (t : Token) (after : List Token) : Prop where
  /-- A continuation directly follows whitespace. -/
  continuation : t.kind = .lineContinuation → ∃ w ∈ before.getLast?, w.kind = .whitespace
  /-- An underscore between whitespace and a newline would have been a continuation. -/
  whitespace : t.kind = .whitespace → ∀ u nl more, after = u :: nl :: more →
    u.isPunctuation '_' = true → nl.kind ≠ .newline
  comment : t.kind = .comment → t.text.head? = some '\'' ∨
    BeginsStatement before ∧ Text.sameAscii (t.text.take 3) "rem".toList = true
  /-- A word `Rem` that begins a statement is the object of a member access. -/
  remark : BeginsStatement before → t.isKeyword "rem" = true →
    ∃ bang ∈ after.head?, bang.isPunctuation '!' = true
  commentEnd : t.kind = .comment → (∀ c ∈ t.text, Text.isLineBreak c = false) ∧ EndsLine after

@[simp] theorem lastWord_nil : lastWord [] = none :=
  rfl

theorem lastWord_append_gap {t : Token} (h : t.isGap = true) (before : List Token) :
    lastWord (before ++ [t]) = lastWord before := by
  rw [lastWord, List.filter_append, List.filter_singleton, h]
  simp [lastWord]

theorem lastWord_append_word {t : Token} (h : t.isGap = false) (before : List Token) :
    lastWord (before ++ [t]) = some t := by
  rw [lastWord, List.filter_append, List.filter_singleton, h]
  simp

/-- Between the last word and here there are gaps only. -/
theorem exists_of_lastWord {before : List Token} {t : Token} (h : lastWord before = some t) :
    ∃ init gaps, before = init ++ t :: gaps ∧ ∀ g ∈ gaps, g.isGap = true := by
  induction before using List.reverseRecOn with
  | nil => cases h
  | append_singleton before u ih =>
    cases hu : u.isGap with
    | true =>
      rw [lastWord_append_gap hu] at h
      obtain ⟨init, gaps, rfl, hgaps⟩ := ih h
      exact ⟨init, gaps ++ [u], by simp,
        List.forall_mem_append.mpr ⟨hgaps, by simpa using hu⟩⟩
    | false =>
      rw [lastWord_append_word hu] at h
      obtain rfl := Option.some.inj h
      exact ⟨before, [], rfl, by simp⟩

/-- The state of the scan after some tokens. -/
def stateAfter (before : List Token) : ScanState :=
  ScanState.initial.nextAll (before.map (·.toLexeme))

theorem stateAfter_append (before : List Token) (t : Token) :
    stateAfter (before ++ [t]) = (stateAfter before).next t.kind := by
  rw [stateAfter, List.map_append, ScanState.nextAll_append]
  rfl

/-- Whether a statement has begun is seen from the last word, but right after a comment. -/
theorem statementStart_stateAfter (before : List Token) :
    (BeginsStatement before → (stateAfter before).statementStart = true) ∧
      ((stateAfter before).statementStart = true →
        BeginsStatement before ∨ ∃ t ∈ lastWord before, t.kind = .comment) := by
  induction before using List.reverseRecOn with
  | nil => exact ⟨fun _ => rfl, fun _ => .inl (by simp [BeginsStatement])⟩
  | append_singleton before t ih =>
    rw [stateAfter_append]
    cases ht : t.isGap with
    | true =>
      rw [BeginsStatement, lastWord_append_gap ht, ScanState.next_statementStart (isGap_iff.mp ht)]
      exact ih
    | false =>
      rw [BeginsStatement, lastWord_append_word ht]
      cases hk : t.kind <;> simp_all [ScanState.next, isGap]

end Token

section Reading

variable {state : ScanState} {l : Lexeme} {next : Text}

theorem length_of_rem {word : Text} (h : Text.sameAscii word "rem".toList = true) :
    word.length = 3 := by
  have hlower : Text.lowerAscii word = "rem".toList := beq_iff_eq.mp h
  have hlength := congrArg List.length hlower
  rwa [Text.length_lowerAscii] at hlength

/-- A comment takes the rest of its line, and begins with an apostrophe or is the remark that makes
up a statement. -/
theorem readsIn_comment (h : l.ReadsIn state next) (hk : l.kind = .comment) :
    next.EndsLine ∧ (∀ c ∈ l.text, Text.isLineBreak c = false) ∧
      (l.text.head? = some '\'' ∨
        state.statementStart = true ∧ Text.sameAscii (l.text.take 3) "rem".toList = true) := by
  have hends : next.EndsLine := (readsIn_trim h hk (show Text.EndsLine [] from rfl) rfl).1
  refine ⟨hends, no_lineBreak_inside h (by simp [hk]) (by simp [hk]), ?_⟩
  obtain ⟨c, cs, htext, hfirst⟩ := id h
  obtain ⟨k, text⟩ := l
  obtain rfl : text = c :: cs := htext
  obtain rfl : k = .comment := hk
  rcases Shape.class_cases c with hc | hc | rfl | rfl | rfl | hc
  · cases ((readsIn_blank hc).mp h).1
  · cases readsIn_lineBreak_kind hc h
  · cases (readsIn_underscore.mp ⟨h, by simp⟩).1.1
  · exact .inl rfl
  · cases (readsIn_quote.mp h).1
  · -- The word that begins the remark ends before the line does, so it is the same without `next`.
    cases hread : Shape.read c cs with
    | mk shape n =>
    obtain ⟨-, hle, happ⟩ := Shape.read_plain hc cs
    rw [hread] at hle happ
    have htake : (cs ++ next).take n = cs.take n := List.take_append_of_le_length hle
    cases hr : beginsRemark state shape (c :: (cs ++ next).take n) with
    | false => exact absurd rfl (kind_ne_comment hc (happ next hends.endsPiece) hr hfirst)
    | true =>
      simp only [beginsRemark, Bool.and_eq_true, htake] at hr
      have hlength := length_of_rem hr.2
      rw [List.length_cons, List.length_take, Nat.min_eq_left hle] at hlength
      obtain rfl : n = 2 := by omega
      exact .inr ⟨hr.1.2, hr.2⟩

/-- Where a statement begins, `Rem` is a remark unless the bang of a member access follows it. -/
theorem readsIn_rem (h : l.ReadsIn state next) (hk : l.kind = .keyword)
    (hstart : state.statementStart = true) (hrem : Text.sameAscii l.text "rem".toList = true) :
    next.head? = some '!' := by
  obtain ⟨c, cs, htext, hfirst⟩ := h
  obtain ⟨n, hread, hr, hword⟩ := word_of_named (.inr hk) hfirst
  rcases ofWord_cases (c :: (cs ++ next).take n) ((cs ++ next).drop n) with
    ⟨k, -, hw⟩ | ⟨k, base, -, hbase, hw⟩
  · rw [hw] at hword
    obtain rfl := Option.some.inj hword
    rw [beginsRemark, hstart, hrem] at hr
    cases hr
  · rw [hw] at hword
    obtain rfl := Option.some.inj hword
    obtain rfl : base = c :: cs := htext
    have hbang : (cs ++ next).take n = cs ++ ['!'] := (List.cons.inj hbase).2
    have hsplit := List.take_append_drop n (cs ++ next)
    rw [hbang, List.append_assoc] at hsplit
    rw [← List.append_cancel_left hsplit]
    rfl

/-- A bang behind a keyword is punctuation. -/
theorem reads_bang {ls : List Lexeme} (h : Reads (state.next .keyword) next ls)
    (hbang : (Lexeme.sourceText ls).head? = some '!') :
    ls.head? = some ⟨.punctuation, ['!']⟩ := by
  cases ls with
  | nil => cases hbang
  | cons m ls =>
    obtain ⟨c, cs, htext, hfirst⟩ := h.1
    rw [Lexeme.sourceText_cons, htext] at hbang
    obtain rfl : c = '!' := Option.some.inj hbang
    have hstate : state.next .keyword = ⟨false, false⟩ := rfl
    rw [hstate, scanStep_bang] at hfirst
    exact hfirst.symm

/-- Where a line ends, a newline comes next, or nothing. -/
theorem reads_endsLine {ls : List Lexeme} (h : Reads state [] ls)
    (hends : (Lexeme.sourceText ls).EndsLine) :
    ∃ m ∈ (ls ++ [Lexeme.mk .endOfInput []]).head?, m.kind = .newline ∨ m.kind = .endOfInput := by
  cases ls with
  | nil => exact ⟨_, rfl, .inr rfl⟩
  | cons m ls =>
    obtain ⟨c, cs, htext, -⟩ := id h.1
    obtain ⟨k, text⟩ := m
    obtain rfl : text = c :: cs := htext
    exact ⟨_, rfl, .inl (readsIn_lineBreak_kind hends h.1)⟩

end Reading

namespace Token

/-- What stands around a token was read as it stands there. -/
theorem reads_of_split {source : Text} {before after : List Token} {t : Token}
    (h : tokenize source = before ++ t :: after) (hk : t.kind ≠ .endOfInput) :
    ∃ ls, after.map (·.toLexeme) = ls ++ [⟨.endOfInput, []⟩] ∧
      t.toLexeme.ReadsIn (stateAfter before) (Lexeme.sourceText ls) ∧
      Reads ((stateAfter before).next t.kind) [] ls := by
  have hlexemes : scanFrom .initial source ++ [⟨.endOfInput, []⟩] =
      before.map (·.toLexeme) ++ t.toLexeme :: after.map (·.toLexeme) := by
    rw [← toLexeme_place 0 (scanFrom .initial source ++ _), ← List.map_cons, ← List.map_append, ← h]
    rfl
  rcases List.eq_nil_or_concat (after.map (·.toLexeme)) with hnil | ⟨ls, l, hls⟩
  · rw [hnil] at hlexemes
    have hlast := (List.append_inj' hlexemes rfl).2
    exact absurd (congrArg Lexeme.kind (List.singleton_inj.mp hlast).symm) hk
  · rw [hls, List.concat_eq_append, ← List.cons_append, ← List.append_assoc] at hlexemes
    obtain ⟨hscan, hlast⟩ := List.append_inj' hlexemes rfl
    have hreads := (scanFrom_reads .initial source).1
    rw [hscan, reads_append] at hreads
    obtain ⟨-, hread, hrest⟩ := hreads
    rw [List.append_nil] at hread
    exact ⟨ls, by rw [hls, List.concat_eq_append, List.singleton_inj.mp hlast], hread, hrest⟩

theorem head?_of_map {after : List Token} {ls : List Lexeme} {l : Lexeme}
    (h : after.map (·.toLexeme) = ls) (hl : ls.head? = some l) :
    ∃ t ∈ after.head?, t.toLexeme = l := by
  rw [← h, List.head?_map] at hl
  exact Option.map_eq_some_iff.mp hl

/-- The rest of a line that has ended begins with its newline or is the end marker. -/
theorem endsLine_of_split {source : Text} {before after : List Token} {t : Token}
    (h : tokenize source = before ++ t :: after) (hk : t.kind ≠ .endOfInput)
    (hends : ∀ next, t.toLexeme.ReadsIn (stateAfter before) next → next.EndsLine) :
    EndsLine after := by
  obtain ⟨ls, hafter, hread, hrest⟩ := reads_of_split h hk
  obtain ⟨m, hm, hkind⟩ := reads_endsLine hrest (hends _ hread)
  obtain ⟨u, hu, rfl⟩ := head?_of_map hafter hm
  exact ⟨u, hu, hkind⟩

/-- A remark stands where a statement begins: a comment before it would have taken the rest of the
line. -/
theorem beginsStatement_of_remark {source : Text} {before after : List Token} {t : Token}
    (h : tokenize source = before ++ t :: after) (hk : t.kind = .comment)
    (hstart : (stateAfter before).statementStart = true) : BeginsStatement before := by
  refine ((statementStart_stateAfter before).2 hstart).resolve_right ?_
  rintro ⟨c, hc, hcomment⟩
  obtain ⟨init, gaps, rfl, hgaps⟩ := exists_of_lastWord hc
  rw [List.append_assoc, List.cons_append] at h
  obtain ⟨u, hu, hkind⟩ := endsLine_of_split h (by simp [hcomment])
    fun next hread => (readsIn_comment hread hcomment).1
  have hgap : u.isGap = true ∨ u = t := by
    cases gaps with
    | nil => exact .inr (Option.some.inj hu).symm
    | cons g gaps => exact .inl (Option.some.inj hu ▸ hgaps g List.mem_cons_self)
  rcases hgap with hgap | rfl
  · rcases isGap_iff.mp hgap with hg | hg <;> simp [hg] at hkind
  · simp [hk] at hkind

theorem afterBlank_stateAfter {before : List Token} (h : (stateAfter before).afterBlank = true) :
    ∃ w ∈ before.getLast?, w.kind = .whitespace := by
  rcases List.eq_nil_or_concat before with rfl | ⟨init, w, rfl⟩
  · cases h
  · rw [List.concat_eq_append, stateAfter_append, ScanState.next_afterBlank] at h
    exact ⟨w, by simp, h⟩

/-- An underscore by itself at the end of its line has no whitespace before it. -/
theorem afterBlank_of_underscore {source : Text} {before more : List Token} {u nl : Token}
    (h : tokenize source = before ++ u :: nl :: more) (hu : u.isPunctuation '_' = true)
    (hnl : nl.kind = .newline) : (stateAfter before).afterBlank = false := by
  simp only [isPunctuation, Bool.and_eq_true, beq_iff_eq] at hu
  obtain ⟨ls, hafter, hread, hrest⟩ := reads_of_split h (by simp [hu.1])
  have hunderscore : u.toLexeme = ⟨.punctuation, ['_']⟩ := Lexeme.eq_of_fields hu.1 hu.2
  rw [hunderscore] at hread
  refine (readsIn_underscore.mp ⟨hread, by simp⟩).2.resolve_left fun hzero => ?_
  cases ls with
  | nil =>
    have hend := congrArg Lexeme.kind (List.cons.inj hafter).1
    rw [hnl] at hend
    cases hend
  | cons m ls =>
    obtain rfl : nl.toLexeme = m := (List.cons.inj hafter).1
    have hbreak := (readsIn_layout hrest.1).2.1 hnl
    have hnil := eq_nil_of_lineBreak (hbreak.endsLine (Lexeme.sourceText ls)) hzero
    exact hbreak.ne_nil (List.append_eq_nil_iff.mp hnil).1

end Token

/-- Every token of a source fits in among the others. -/
theorem tokenize_fitsIn {source : Text} {before after : List Token} {t : Token}
    (h : tokenize source = before ++ t :: after) : t.FitsIn before after where
  continuation hk := by
    obtain ⟨ls, -, hread, -⟩ := Token.reads_of_split h (by simp [hk])
    exact Token.afterBlank_stateAfter ((readsIn_layout hread).2.2 hk).1
  whitespace := by
    rintro hk u nl more rfl hu hnl
    rw [List.append_cons] at h
    have hblank := Token.afterBlank_of_underscore h hu hnl
    rw [Token.stateAfter_append, hk] at hblank
    cases hblank
  comment hk := by
    obtain ⟨ls, -, hread, -⟩ := Token.reads_of_split h (by simp [hk])
    refine (readsIn_comment hread hk).2.2.imp_right fun hrem => ?_
    exact ⟨Token.beginsStatement_of_remark h hk hrem.1, hrem.2⟩
  remark hbegins hrem := by
    simp only [Token.isKeyword, Bool.and_eq_true, beq_iff_eq] at hrem
    obtain ⟨hk, hspelled⟩ := hrem
    obtain ⟨ls, hafter, hread, hrest⟩ := Token.reads_of_split h (by simp [hk])
    have hstart := (Token.statementStart_stateAfter before).1 hbegins
    rw [hk] at hrest
    have hbang := reads_bang hrest (readsIn_rem hread hk hstart hspelled)
    obtain ⟨bang, hhead, hl⟩ := Token.head?_of_map hafter
      (show _ = some ⟨.punctuation, ['!']⟩ by rw [List.head?_append, hbang]; rfl)
    exact ⟨bang, hhead, by simp [Token.isPunctuation, hl]⟩
  commentEnd hk := by
    obtain ⟨ls, -, hread, -⟩ := Token.reads_of_split h (by simp [hk])
    exact ⟨(readsIn_comment hread hk).2.1, Token.endsLine_of_split h (by simp [hk])
      fun next hread => (readsIn_comment hread hk).1⟩

/-- A remark behind a member access to `Rem`, a separator and a continuation. -/
theorem tokenize_fitsIn_remark :
    let source := "rem!x: _\nREM _\n".toList
    let remark : Token := ⟨⟨.comment, "REM _".toList⟩, 9⟩
    let before := (tokenize source).take 6
    let after := (tokenize source).drop 7
    tokenize source = before ++ remark :: after ∧ remark.FitsIn before after := by
  intro source remark before after
  have h : tokenize source = before ++ remark :: after := by decide +kernel
  exact ⟨h, tokenize_fitsIn h⟩

end VbaWorkbench
