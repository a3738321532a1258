import VbaWorkbench.Proofs.Text.Slices
import VbaWorkbench.Proofs.Token.Coverage
import VbaWorkbench.Proofs.Token.Kinds

namespace VbaWorkbench

section Cut

variable {state : ScanState} {l : Lexeme} {t u u' : Text}

/-- The spelling of a line break that was read is not cut short. -/
theorem not_feed_of_readsIn (h : l.ReadsIn state (t ++ u)) (hl : l.text = ['\r']) :
    t.head? ≠ some '\n' := by
  intro hhead
  obtain ⟨more, rfl⟩ := List.head?_eq_some_iff.mp hhead
  obtain ⟨c, cs, htext, hfirst⟩ := h
  obtain ⟨rfl, rfl⟩ := List.cons.inj (hl.symm.trans htext)
  rw [scanStep_lineBreak rfl] at hfirst
  have ht := congrArg Lexeme.text (Option.some.inj hfirst)
  rw [hl] at ht
  cases ht

/-- A line break is the same one where the text ends earlier. -/
theorem lineBreak_cut (h : l.ReadsIn state (t ++ u)) (hk : l.kind = .newline) :
    Reach.lineBreak (l.text ++ t) = l.text.length := by
  rcases (readsIn_layout h).2.1 hk with hl | hl | hl
  · rw [hl]
    rfl
  · rw [hl]
    rfl
  · exact ((readsIn_layout h).2.1 hk).lineBreak (not_feed_of_readsIn h hl)

/-- At the end of a line a line break is read unless the text ends too. -/
theorem eq_nil_of_lineBreak (h : t.EndsLine) (hzero : Reach.lineBreak t = 0) : t = [] := by
  cases t with
  | nil => rfl
  | cons d t =>
    have hd : Text.isLineBreak d = true := h
    rw [Reach.lineBreak_cons, if_pos hd] at hzero
    split at hzero <;> cases hzero

/-- What is read before the end of a line is read just so before another one. -/
theorem readsIn_ended (h : l.ReadsIn state (t ++ u)) (hu : u.EndsLine) (hu' : u'.EndsLine)
    (hnil : u = [] → u' = []) (hn : l.kind ≠ .newline) (hk : l.kind ≠ .lineContinuation) :
    l.ReadsIn state (t ++ u') := by
  by_cases hw : l.kind = .whitespace
  · obtain ⟨c, cs, htext, -⟩ := id h
    obtain ⟨k, text⟩ := l
    obtain rfl : text = c :: cs := htext
    have hc : Text.isBlank c = true := by simpa using (readsIn_layout h).1 hw
    rw [readsIn_blank hc, Reach.many_eq_length] at h ⊢
    refine ⟨h.1, h.2.1, ?_⟩
    cases t with
    | cons d t => exact h.2.2
    | nil =>
      cases u' with
      | nil => rfl
      | cons d u' =>
        have hd : Text.isLineBreak d = true := hu'
        cases hb : Text.isBlank d with
        | false => simp [hb]
        | true => simp [Text.not_isLineBreak_of_isBlank hb] at hd
  · cases ht : t.head?.any (fun d => !Text.isLineBreak d) with
    | true =>
      cases t with
      | nil => cases ht
      | cons d y =>
        have hd : Text.isLineBreak d = false := by simpa using ht
        exact readsIn_inside h hd hu.endsPiece hu'.endsPiece rfl hn hk
    | false =>
      have hends : ∀ {v : Text}, v.EndsLine → (t ++ v).EndsLine := by
        intro v hv
        cases t with
        | nil => exact hv
        | cons d y => simpa [Text.EndsLine] using ht
      refine readsIn_moved h (.inr ⟨hends hu, hends hu'⟩) rfl hw hn hk ?_
      rintro rfl
      refine (readsIn_underscore.mp ⟨h, hk⟩).2.imp_left fun hzero => ?_
      obtain ⟨rfl, rfl⟩ := List.append_eq_nil_iff.mp (eq_nil_of_lineBreak (hends hu) hzero)
      rw [hnil rfl]
      rfl

/-- What is read before the end of a line is read just so where the text ends there. -/
theorem readsIn_cut (h : l.ReadsIn state (t ++ u)) (hu : u.EndsLine) : l.ReadsIn state t := by
  have hlayout := (readsIn_layout h).2.2
  obtain ⟨c, cs, htext, -⟩ := id h
  by_cases hn : l.kind = .newline
  · have hbreak := lineBreak_cut h hn
    obtain ⟨k, text⟩ := l
    obtain rfl : text = c :: cs := htext
    obtain rfl : k = .newline := hn
    have hc : Text.isLineBreak c = true := ((readsIn_layout h).2.1 rfl).endsLine []
    exact readsIn_newline hc hbreak
  by_cases hk : l.kind = .lineContinuation
  · obtain ⟨hb, br, hbr, hread⟩ := hlayout hk
    obtain ⟨k, text⟩ := l
    obtain rfl : k = .lineContinuation := hk
    obtain rfl : text = '_' :: br := hbr
    obtain ⟨d, ds, hd, -⟩ := id hread
    have hne : br ≠ [] := by
      rw [show br = d :: ds from hd]
      simp
    exact readsIn_continuation hb hne (lineBreak_cut hread rfl)
  · have hread : l.ReadsIn state (t ++ []) := readsIn_ended h hu rfl (fun _ => rfl) hn hk
    rwa [List.append_nil] at hread

theorem reads_cut {ls : List Lexeme} (h : Reads state u ls) (hu : u.EndsLine) :
    Reads state [] ls := by
  induction ls generalizing state with
  | nil => trivial
  | cons l ls ih =>
    refine ⟨?_, ih h.2⟩
    rw [List.append_nil]
    exact readsIn_cut h.1 hu

/-- The lexemes on either side of a newline are those of the texts on either side of it. -/
theorem scanFrom_cut {source : Text} {before after : List Lexeme} {nl : Lexeme}
    (h : scanFrom .initial source = before ++ nl :: after) (hk : nl.kind = .newline) :
    scanFrom .initial (Lexeme.sourceText before) = before ∧
      scanFrom .initial (Lexeme.sourceText after) = after := by
  have hreads := (scanFrom_reads .initial source).1
  rw [h, reads_append] at hreads
  obtain ⟨hbefore, hnl, hafter⟩ := hreads
  have hbreak := (readsIn_layout hnl).2.1 hk
  have hends : (Lexeme.sourceText (nl :: after) ++ []).EndsLine := by
    rw [Lexeme.sourceText_cons, List.append_assoc]
    exact hbreak.endsLine _
  have hstart : (ScanState.initial.nextAll before).next nl.kind = .initial := by
    rw [hk]
    rfl
  rw [hstart] at hafter
  have hscan : ∀ {ls : List Lexeme}, Reads .initial [] ls →
      scanFrom .initial (Lexeme.sourceText ls) = ls := by
    intro ls hls
    have hread := scanFrom_of_reads hls
    rwa [List.append_nil, scanFrom_nil, List.append_nil] at hread
  exact ⟨hscan (reads_cut hbefore hends), hscan hafter⟩

end Cut

namespace Token

/-- The token `n` bytes further on. -/
def shift (n : Nat) (t : Token) : Token :=
  { t with start := t.start + n }

theorem place_shift (start n : Nat) (ls : List Lexeme) :
    place (start + n) ls = (place start ls).map (shift n) := by
  induction ls generalizing start with
  | nil => rfl
  | cons l ls ih =>
    rw [place, Nat.add_right_comm, ih, place, List.map_cons]
    rfl

theorem exists_of_mem_place {start : Nat} {ls : List Lexeme} {t : Token} (h : t ∈ place start ls) :
    ∃ before after, ls = before ++ t.toLexeme :: after ∧
      t.start = start + Text.byteLength (Lexeme.sourceText before) := by
  induction ls generalizing start with
  | nil => cases h
  | cons l ls ih =>
    rcases List.mem_cons.mp h with rfl | h
    · exact ⟨[], ls, rfl, rfl⟩
    · obtain ⟨before, after, rfl, hstart⟩ := ih h
      refine ⟨l :: before, after, rfl, ?_⟩
      rw [hstart, Lexeme.sourceText_cons, Text.byteLength_append, Nat.add_assoc]

end Token

theorem unterminatedStrings_append (ts us : List Token) :
    unterminatedStrings (ts ++ us) = unterminatedStrings ts ++ unterminatedStrings us := by
  rw [unterminatedStrings, List.filter_append, List.map_append]
  rfl

theorem unterminatedStrings_shift (n : Nat) (ts : List Token) :
    unterminatedStrings (ts.map (Token.shift n)) = (unterminatedStrings ts).map (· + n) := by
  have hshift : Token.isUnterminated ∘ Token.shift n = Token.isUnterminated := rfl
  rw [unterminatedStrings, List.filter_map, hshift, List.map_map, unterminatedStrings, List.map_map]
  rfl

/-- The end marker is the last token and the only one of its kind. -/
theorem tokenize_eq (source : Text) :
    tokenize source =
        (tokenize source).filter (·.kind != .endOfInput) ++
          [⟨⟨.endOfInput, []⟩, Text.byteLength source⟩] ∧
      (tokenize source).filter (·.kind != .endOfInput) =
        Token.place 0 (scanFrom .initial source) := by
  obtain ⟨-, htext, hall⟩ := scanFrom_reads .initial source
  have hsplit : tokenize source = Token.place 0 (scanFrom .initial source) ++
      [⟨⟨.endOfInput, []⟩, Text.byteLength source⟩] := by
    rw [tokenize, Token.place_append, htext, Nat.zero_add]
    rfl
  have hfilter : (tokenize source).filter (·.kind != .endOfInput) =
      Token.place 0 (scanFrom .initial source) := by
    rw [hsplit, List.filter_append, List.filter_eq_self.mpr]
    · exact List.append_nil _
    · intro t ht
      simpa using (hall t.toLexeme (Token.lexeme_of_mem_place ht)).2
  exact ⟨by rw [hfilter]; exact hsplit, hfilter⟩

/-- Each logical line is tokenized by itself: the tokens of a source are those of the text before
any of its newlines, that newline, and those of the text after it, and so are its unterminated
strings. -/
theorem tokenize_at_newline {source : Text} {nl : Token} (h : nl ∈ tokenize source)
    (hk : nl.kind = .newline) :
    let before := Text.takeBytes nl.start source
    let after := Text.dropBytes nl.stop source
    source = before ++ nl.text ++ after ∧ Text.byteLength before = nl.start ∧
    tokenize source =
      (tokenize before).filter (·.kind != .endOfInput) ++
        nl :: (tokenize after).map (Token.shift nl.stop) ∧
    unterminatedStrings (tokenize source) =
      unterminatedStrings (tokenize before) ++
        (unterminatedStrings (tokenize after)).map (· + nl.stop) := by
  have hmem : nl ∈ Token.place 0 (scanFrom .initial source) := by
    rw [← (tokenize_eq source).2]
    exact List.mem_filter.mpr ⟨h, by simp [hk]⟩
  obtain ⟨ls, ms, hscan, hstart⟩ := Token.exists_of_mem_place hmem
  rw [Nat.zero_add] at hstart
  obtain ⟨hbefore, hafter⟩ := scanFrom_cut hscan hk
  have hsource : source = Lexeme.sourceText ls ++ nl.text ++ Lexeme.sourceText ms := by
    rw [← (scanFrom_reads .initial source).2.1, hscan, Lexeme.sourceText_append,
      Lexeme.sourceText_cons, List.append_assoc]
  have hstop : nl.stop = Text.byteLength (Lexeme.sourceText ls ++ nl.text) := by
    rw [Token.stop, hstart, Text.byteLength_append]
  have htake : Text.takeBytes nl.start source = Lexeme.sourceText ls := by
    rw [hsource, hstart, List.append_assoc, Text.takeBytes_append]
  have hdrop : Text.dropBytes nl.stop source = Lexeme.sourceText ms := by
    rw [hsource, hstop, Text.dropBytes_append]
  simp only [htake, hdrop]
  have htokens : tokenize source =
      (tokenize (Lexeme.sourceText ls)).filter (·.kind != .endOfInput) ++
        nl :: (tokenize (Lexeme.sourceText ms)).map (Token.shift nl.stop) := by
    rw [(tokenize_eq (Lexeme.sourceText ls)).2, hbefore, tokenize, tokenize, hafter,
      ← Token.place_shift, Nat.zero_add, hscan, List.append_assoc, Token.place_append,
      Nat.zero_add, ← hstart]
    rfl
  refine ⟨hsource, hstart.symm, htokens, ?_⟩
  have hnl : unterminatedStrings [nl] = [] := by
    simp [unterminatedStrings, Token.isUnterminated, hk]
  rw [htokens, ← List.singleton_append, unterminatedStrings_append, unterminatedStrings_append,
    unterminatedStrings_shift, hnl, List.nil_append]
  conv => rhs; rw [(tokenize_eq (Lexeme.sourceText ls)).1, unterminatedStrings_append]
  congr 1
  exact (List.append_nil _).symm

/-- A remark and a literal without a closing quote end at the line break between them. -/
theorem tokenize_at_newline_remark :
    let before := "é = \"a_".toList
    let after := "rem _ \n\"b".toList
    let nl : Token := ⟨⟨.newline, ['\r', '\n']⟩, 8⟩
    let source := before ++ nl.text ++ after
    nl ∈ tokenize source ∧ nl.kind = .newline ∧
    tokenize source =
      (tokenize before).filter (·.kind != .endOfInput) ++
        nl :: (tokenize after).map (Token.shift nl.stop) ∧
    unterminatedStrings (tokenize source) =
      unterminatedStrings (tokenize before) ++
        (unterminatedStrings (tokenize after)).map (· + nl.stop) := by
  intro before after nl source
  have hmem : nl ∈ tokenize source := by decide +kernel
  have hbefore : Text.takeBytes nl.start source = before := by decide +kernel
  have hafter : Text.dropBytes nl.stop source = after := by decide +kernel
  have hcut := (tokenize_at_newline hmem rfl).2.2
  rw [hbefore, hafter] at hcut
  exact ⟨hmem, rfl, hcut⟩

end VbaWorkbench
