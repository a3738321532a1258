import VbaWorkbench.Proofs.Token.Moving

namespace VbaWorkbench

namespace Text

/-- The spellings of a line break. -/
def IsBreak (t : Text) : Prop :=
  t = ['\n'] ∨ t = ['\r', '\n'] ∨ t = ['\r']

theorem isBreak_singleton {c : Char} (h : isLineBreak c = true) : IsBreak [c] := by
  rcases isLineBreak_iff.mp h with rfl | rfl
  · exact .inl rfl
  · exact .inr (.inr rfl)

theorem IsBreak.ne_nil {t : Text} (h : t.IsBreak) : t ≠ [] := by
  rcases h with rfl | rfl | rfl <;> simp

theorem IsBreak.endsLine {t : Text} (h : t.IsBreak) (u : Text) : (t ++ u).EndsLine := by
  rcases h with rfl | rfl | rfl <;> rfl

/-- A line break goes no further unless a line feed comes next. -/
theorem IsBreak.lineBreak {t u : Text} (h : t.IsBreak) (hu : u.head? ≠ some '\n') :
    Reach.lineBreak (t ++ u) = t.length := by
  rcases h with rfl | rfl | rfl
  · rfl
  · rfl
  · rw [List.cons_append, List.nil_append, Reach.lineBreak_cons, if_neg fun hn => hu hn.2]
    rfl

/-- A line break goes no further if the same one comes next. -/
theorem IsBreak.lineBreak_twice {t : Text} (h : t.IsBreak) (u : Text) :
    Reach.lineBreak (t ++ (t ++ u)) = t.length := by
  rcases h with rfl | rfl | rfl <;> rfl

end Text

section Kinds

variable {state : ScanState} {l : Lexeme} {next : Text}

theorem kind_of_plain {c : Char} {rest : Text} (hc : Shape.isPlain c = true)
    (h : (scanStep state c rest).1.head? = some l) :
    l.kind ≠ .whitespace ∧ l.kind ≠ .newline ∧ l.kind ≠ .lineContinuation ∧
      l.kind ≠ .stringLiteral := by
  cases hread : Shape.read c rest with
  | mk shape n =>
  cases hr : beginsRemark state shape (c :: rest.take n) with
  | true =>
    rw [scanStep_remark hread hr] at h
    obtain rfl := Option.some.inj h
    exact ⟨by simp, by simp, by simp, by simp⟩
  | false =>
    have hcode := (Shape.read_plain hc rest).1
    rw [hread] at hcode
    rw [scanStep_code hread hr] at h
    cases shape with
    | word =>
      rcases ofWord_cases (c :: rest.take n) (rest.drop n) with
        ⟨k, hk, hw⟩ | ⟨k, base, hk, -, hw⟩
      · rw [Lexeme.ofShape, hw] at h
        obtain rfl := Option.some.inj h
        rcases hk with rfl | rfl <;> exact ⟨by simp, by simp, by simp, by simp⟩
      · rw [Lexeme.ofShape, hw] at h
        obtain rfl := Option.some.inj h
        rcases hk with rfl | rfl <;> exact ⟨by simp, by simp, by simp, by simp⟩
    | number | separator | operator | other =>
      obtain rfl := Option.some.inj h
      exact ⟨by simp, by simp, by simp, by simp⟩
    | whitespace | newline | brokenUnderscore | comment | quoted => cases hcode

/-- What the kinds without code are made of. -/
theorem readsIn_layout (h : l.ReadsIn state next) :
    (l.kind = .whitespace → l.text.head?.any Text.isBlank = true) ∧
    (l.kind = .newline → l.text.IsBreak) ∧
    (l.kind = .lineContinuation → state.afterBlank = true ∧
      ∃ br, l.text = '_' :: br ∧ Lexeme.ReadsIn .initial next ⟨.newline, br⟩) := by
  obtain ⟨c, cs, htext, hfirst⟩ := id h
  obtain ⟨k, text⟩ := l
  obtain rfl : text = c :: cs := htext
  rcases Shape.class_cases c with hc | hc | rfl | rfl | rfl | hc
  · obtain ⟨rfl, -⟩ := (readsIn_blank hc).mp h
    exact ⟨fun _ => by simpa using hc, by simp, by simp⟩
  · obtain rfl := readsIn_lineBreak_kind hc h
    refine ⟨by simp, fun _ => ?_, by simp⟩
    rw [scanStep_lineBreak hc] at hfirst
    have ht : c :: (cs ++ next).take (Reach.lineBreak (c :: (cs ++ next)) - 1) = c :: cs :=
      congrArg Lexeme.text (Option.some.inj hfirst)
    rw [← ht, Reach.lineBreak_cons]
    split
    · rename_i hn
      obtain ⟨rfl, hd⟩ := hn
      obtain ⟨more, hmore⟩ := List.head?_eq_some_iff.mp hd
      rw [hmore]
      exact .inr (.inl rfl)
    · exact Text.isBreak_singleton hc
  · refine ⟨?_, ?_, ?_⟩
    · rintro rfl
      cases (readsIn_underscore.mp ⟨h, by simp⟩).1.1
    · rintro rfl
      cases (readsIn_underscore.mp ⟨h, by simp⟩).1.1
    · rintro rfl
      by_cases hn : Reach.lineBreak (cs ++ next) = 0
      · rw [scanStep_underscore hn] at hfirst
        cases hfirst
      · cases hb : state.afterBlank with
        | true =>
          refine ⟨rfl, cs, rfl, ?_⟩
          rw [scanStep_continuation hn hb] at hfirst
          have ht : '_' :: (cs ++ next).take (Reach.lineBreak (cs ++ next)) = '_' :: cs :=
            congrArg Lexeme.text (Option.some.inj hfirst)
          have hcs := (List.cons.inj ht).2
          have hread := @reads_lineBreak .initial (cs ++ next) hn
          have hlength := congrArg List.length hcs
          rw [List.length_take, Nat.min_eq_left (Reach.lineBreak_le _)] at hlength
          rw [hcs, hlength, List.drop_left] at hread
          exact hread
        | false =>
          rw [scanStep_broken hn hb] at hfirst
          cases hfirst
  · obtain ⟨rfl, -⟩ := readsIn_apostrophe.mp h
    exact ⟨by simp, by simp, by simp⟩
  · obtain ⟨rfl, -⟩ := readsIn_quote.mp h
    exact ⟨by simp, by simp, by simp⟩
  · obtain ⟨hw, hn, hk, -⟩ := kind_of_plain hc hfirst
    exact ⟨fun h => absurd h hw, fun h => absurd h hn, fun h => absurd h hk⟩

theorem first_length {c : Char} {rest : Text} (h : (scanStep state c rest).1.head? = some l) :
    l.text.length ≤ (scanStep state c rest).2.1 + 1 := by
  rcases scanStep_cases state c rest with
    ⟨k, n, -, hstep⟩ | ⟨a, b, as, n, -, -, ha, hab, -, hstep⟩
  · rw [hstep] at h ⊢
    obtain rfl := Option.some.inj h
    rw [List.length_cons, List.length_take]
    simp only
    omega
  · rw [hstep] at h ⊢
    obtain rfl := Option.some.inj h
    have hlength := congrArg List.length hab
    rw [List.length_append, List.length_take] at hlength
    rw [ha, List.length_cons]
    simp only
    omega

theorem kind_ne_endOfInput (h : l.ReadsIn state next) : l.kind ≠ .endOfInput := by
  obtain ⟨c, cs, -, hfirst⟩ := h
  rcases scanStep_cases state c (cs ++ next) with
    ⟨k, n, hk, hstep⟩ | ⟨a, b, as, n, ha, -, -, -, -, hstep⟩
  · rw [hstep] at hfirst
    obtain rfl := Option.some.inj hfirst
    exact hk
  · rw [hstep] at hfirst
    obtain rfl := Option.some.inj hfirst
    exact ha

/-- Only line breaks and continuations go beyond the end of a line. -/
theorem no_lineBreak_inside (h : l.ReadsIn state next) (hn : l.kind ≠ .newline)
    (hk : l.kind ≠ .lineContinuation) : ∀ d ∈ l.text, Text.isLineBreak d = false := by
  obtain ⟨c, cs, htext, hfirst⟩ := id h
  obtain ⟨k, text⟩ := l
  obtain rfl : text = c :: cs := htext
  intro d hd
  cases hbreak : Text.isLineBreak d with
  | false => rfl
  | true =>
  exfalso
  rcases List.mem_cons.mp hd with rfl | hd
  · exact hn (readsIn_lineBreak_kind hbreak h)
  -- A reader that stops at a line break takes none of the lexeme behind the one at `d`.
  obtain ⟨a, b, rfl⟩ := List.append_of_mem hd
  have hu : Text.EndsLine (d :: (b ++ next)) := hbreak
  have hlong : (a ++ d :: b).length = a.length + b.length + 1 := by
    simp only [List.length_append, List.length_cons]
    omega
  have hsame : a ++ d :: b ++ next = a ++ d :: (b ++ next) := by simp
  rcases Shape.class_cases c with hc | hc | rfl | rfl | rfl | hc
  · have hall := (Reach.many_eq_length.mp ((readsIn_blank hc).mp h).2).1 d (by simp)
    rw [Text.not_isLineBreak_of_isBlank hall] at hbreak
    cases hbreak
  · exact hn (readsIn_lineBreak_kind hc h)
  · have hnil := (readsIn_underscore.mp ⟨h, hk⟩).1.2
    simp at hnil
  · have hall := (Reach.many_eq_length.mp (readsIn_apostrophe.mp h).2).1 d (by simp)
    rw [hbreak] at hall
    cases hall
  · have hq := (readsIn_quote.mp h).2
    rw [hsame, Reach.quoted_stopsAt.stops a _ hu] at hq
    have hle := Reach.quoted_stopsAt.bound a
    omega
  · obtain ⟨-, hle, happ⟩ := Shape.read_plain hc a
    cases hread : Shape.read c a with
    | mk shape n =>
    rw [hread] at hle happ
    have hread' := happ _ hu.endsPiece
    cases hr : beginsRemark state shape (c :: (a ++ d :: (b ++ next)).take n) with
    | true =>
      have hmany := ((readsIn_remark hc hu.endsPiece hread
        (by rwa [List.take_append_of_le_length hle] at hr) hsame).mp h).2
      have hall := (Reach.many_eq_length.mp hmany).1 d (by simp)
      rw [hbreak] at hall
      cases hall
    | false =>
      rw [hsame] at hfirst
      have hlength := first_length hfirst
      rw [scanStep_code hread' hr, List.length_cons, hlong] at hlength
      simp only at hlength
      omega

end Kinds

theorem Reads.forall {state : ScanState} {next : Text} {ls : List Lexeme}
    (h : Reads state next ls) : ∀ l ∈ ls, ∃ state' next', l.ReadsIn state' next' := by
  induction ls generalizing state with
  | nil => simp
  | cons l ls ih =>
    intro m hm
    rcases List.mem_cons.mp hm with rfl | hm
    · exact ⟨_, _, h.1⟩
    · exact ih h.2 m hm

/-- Blanks stand before a lexeme exactly if the last one is whitespace. -/
theorem ScanState.next_afterBlank (state : ScanState) (k : TokenKind) :
    (state.next k).afterBlank = true ↔ k = .whitespace := by
  cases k <;> simp [next]

theorem ScanState.next_statementStart {state : ScanState} {k : TokenKind}
    (h : k = .whitespace ∨ k = .lineContinuation) :
    (state.next k).statementStart = state.statementStart := by
  rcases h with rfl | rfl <;> rfl

theorem ScanState.nextAll_statementStart {state : ScanState} {ls : List Lexeme}
    (h : ∀ l ∈ ls, l.kind = .whitespace ∨ l.kind = .lineContinuation) :
    (state.nextAll ls).statementStart = state.statementStart := by
  induction ls generalizing state with
  | nil => rfl
  | cons l ls ih =>
    rw [nextAll_cons, ih fun m hm => h m (List.mem_cons_of_mem _ hm),
      next_statementStart (h l (by simp))]

theorem ScanState.nextAll_afterBlank {state : ScanState} {ls : List Lexeme}
    (h : (state.nextAll ls).afterBlank = true) :
    (ls = [] ∧ state.afterBlank = true) ∨ ∃ init l, ls = init ++ [l] ∧ l.kind = .whitespace := by
  rcases List.eq_nil_or_concat ls with rfl | ⟨init, l, hls⟩
  · exact .inl ⟨rfl, h⟩
  · rw [List.concat_eq_append] at hls
    subst hls
    rw [nextAll_append, nextAll_cons, nextAll_nil, next_afterBlank] at h
    exact .inr ⟨init, l, rfl, h⟩

end VbaWorkbench
