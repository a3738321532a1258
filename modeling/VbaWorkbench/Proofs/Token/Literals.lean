import VbaWorkbench.Proofs.Token.Neighbours

namespace VbaWorkbench

namespace Literal

/-- The inside of a literal: characters other than quotes, and quotes written twice. -/
inductive Inside : Text → Prop
  | nil : Inside []
  | char {c : Char} {t : Text} : c ≠ '"' → Inside t → Inside (c :: t)
  | doubled {t : Text} : Inside t → Inside ('"' :: '"' :: t)

/-- A literal from its opening quote to its closing quote. -/
def Closed (text : Text) : Prop :=
  ∃ inside, Inside inside ∧ text = '"' :: (inside ++ ['"'])

/-- What a literal may have after its opening quote: an inside on one line, with or without a
closing quote. -/
def Continues (t : Text) : Prop :=
  ∃ inside, Inside inside ∧ (∀ c ∈ inside, Text.isLineBreak c = false) ∧
    (t = inside ∨ t = inside ++ ['"'])

variable {t u : Text}

theorem Inside.append (ht : Inside t) (hu : Inside u) : Inside (t ++ u) := by
  induction ht with
  | nil => exact hu
  | char hc _ ih => exact .char hc ih
  | doubled _ ih => exact .doubled ih

/-- An inside has its quotes in pairs. -/
theorem Inside.count_quote (h : Inside t) : t.count '"' % 2 = 0 := by
  induction h with
  | nil => rfl
  | char hc _ ih => rwa [List.count_cons_of_ne hc]
  | doubled _ ih =>
    rw [List.count_cons_self, List.count_cons_self]
    omega

theorem Closed.count_quote (h : Closed t) : t.count '"' % 2 = 0 := by
  obtain ⟨inside, hinside, rfl⟩ := h
  have hcount := hinside.count_quote
  rw [List.count_cons_self, List.count_append, List.count_singleton_self]
  omega

theorem Continues.char {c : Char} (hc : c ≠ '"') (hline : Text.isLineBreak c = false)
    (h : Continues t) : Continues (c :: t) := by
  obtain ⟨inside, hinside, hchars, ht⟩ := h
  refine ⟨c :: inside, .char hc hinside, List.forall_mem_cons.mpr ⟨hline, hchars⟩, ?_⟩
  exact ht.imp (congrArg (c :: ·)) (congrArg (c :: ·))

theorem Continues.doubled (h : Continues t) : Continues ('"' :: '"' :: t) := by
  obtain ⟨inside, hinside, hchars, ht⟩ := h
  refine ⟨'"' :: '"' :: inside, .doubled hinside, ?_, ?_⟩
  · exact List.forall_mem_cons.mpr ⟨rfl, List.forall_mem_cons.mpr ⟨rfl, hchars⟩⟩
  · exact ht.imp (congrArg ('"' :: '"' :: ·)) (congrArg ('"' :: '"' :: ·))

/-- What is read after an opening quote may stand there. -/
theorem continues_quoted (t : Text) : Continues (t.take (Reach.quoted t)) := by
  fun_induction Reach.quoted t with
  | case1 => exact ⟨[], .nil, by simp, .inl rfl⟩
  | case2 t ih => exact ih.doubled
  | case3 t _ => exact ⟨[], .nil, by simp, .inr rfl⟩
  | case4 c t _ _ _ => exact ⟨[], .nil, by simp, .inl rfl⟩
  | case5 c t _ hc hline ih => exact ih.char hc (Bool.eq_false_iff.mpr hline)

theorem quoted_inside (h : Inside t) (hline : ∀ c ∈ t, Text.isLineBreak c = false) (u : Text) :
    Reach.quoted (t ++ u) = t.length + Reach.quoted u := by
  induction h with
  | nil => rw [List.nil_append, List.length_nil, Nat.zero_add]
  | char hc _ ih =>
    obtain ⟨hline, hrest⟩ := List.forall_mem_cons.mp hline
    rw [List.cons_append, Reach.quoted_cons_of_not_doubled fun hd => hc hd.1, if_neg hc, hline,
      if_neg Bool.false_ne_true, ih hrest, List.length_cons, Nat.add_right_comm]
  | doubled _ ih =>
    have hrest := (List.forall_mem_cons.mp (List.forall_mem_cons.mp hline).2).2
    rw [List.cons_append, List.cons_append, Reach.quoted, ih hrest, List.length_cons,
      List.length_cons]
    omega

/-- As much is read after an opening quote as may stand there. -/
theorem quoted_longest (h : Continues t) (hbegins : t <+: u) : t.length ≤ Reach.quoted u := by
  obtain ⟨rest, rfl⟩ := hbegins
  obtain ⟨inside, hinside, hline, rfl | rfl⟩ := h
  · rw [quoted_inside hinside hline]
    exact Nat.le_add_right _ _
  · have hquote := Nat.pos_of_ne_zero (Reach.quoted_quote_ne_zero rest)
    rw [List.append_assoc, List.singleton_append, quoted_inside hinside hline, List.length_append,
      List.length_singleton]
    omega

theorem quoted_of_literal {state : ScanState} {c : Char} {cs next : Text}
    (h : Lexeme.ReadsIn state next ⟨.stringLiteral, c :: cs⟩) :
    c = '"' ∧ Reach.quoted (cs ++ next) = cs.length := by
  rcases Shape.class_cases c with hc | hc | rfl | rfl | rfl | hc
  · cases ((readsIn_blank hc).mp h).1
  · cases readsIn_lineBreak_kind hc h
  · cases (readsIn_underscore.mp ⟨h, by simp⟩).1.1
  · cases (readsIn_apostrophe.mp h).1
  · exact ⟨rfl, (readsIn_quote.mp h).2⟩
  · obtain ⟨d, ds, htext, hfirst⟩ := h
    obtain ⟨rfl, rfl⟩ := List.cons.inj htext
    exact absurd rfl (kind_of_plain hc hfirst).2.2.2

/-- A literal that is read has a closing quote, or an odd number of quotes and the rest of its
line. -/
theorem readsIn_literal {state : ScanState} {l : Lexeme} {next : Text} (h : l.ReadsIn state next)
    (hk : l.kind = .stringLiteral) :
    Closed l.text ∨ l.text.count '"' % 2 = 1 ∧ next.EndsLine := by
  obtain ⟨c, cs, htext, -⟩ := id h
  obtain ⟨k, text⟩ := l
  obtain rfl : text = c :: cs := htext
  obtain rfl : k = .stringLiteral := hk
  obtain ⟨rfl, hq⟩ := quoted_of_literal h
  have hread := continues_quoted (cs ++ next)
  rw [hq, List.take_left] at hread
  obtain ⟨inside, hinside, hline, rfl | rfl⟩ := hread
  · refine .inr ⟨?_, ?_⟩
    · have hcount := hinside.count_quote
      rw [List.count_cons_self]
      omega
    · cases next with
      | nil => rfl
      | cons d next =>
        -- Otherwise the literal would go on with this character.
        cases hd : Text.isLineBreak d with
        | true => exact hd
        | false =>
          have hlonger : Continues (cs ++ [d]) := by
            by_cases hquote : d = '"'
            · subst hquote
              exact ⟨_, hinside, hline, .inr rfl⟩
            · exact ⟨_, hinside.append (.char hquote .nil),
                List.forall_mem_append.mpr ⟨hline, by simpa using hd⟩, .inl rfl⟩
          have hle := quoted_longest hlonger (u := cs ++ d :: next) ⟨next, by simp⟩
          rw [hq, List.length_append, List.length_singleton] at hle
          omega
  · exact .inl ⟨inside, hinside, rfl⟩

end Literal

namespace Token

/-- Lexemes that are not empty stand one behind the other. -/
theorem place_ordered {ls : List Lexeme} (h : ∀ l ∈ ls, l.text ≠ []) (start : Nat) :
    (place start ls).Pairwise (·.start < ·.start) := by
  induction ls generalizing start with
  | nil => exact .nil
  | cons l ls ih =>
    obtain ⟨hl, hls⟩ := List.forall_mem_cons.mp h
    refine .cons (fun t ht => ?_) (ih hls _)
    exact (Nat.lt_add_of_pos_right (Text.byteLength_pos hl)).trans_le (le_start_of_mem_place ht)

/-- To count the quotes of a literal that was read is to look for its closing quote. -/
theorem isUnterminated_iff {source : Text} {before after : List Token} {t : Token}
    (h : tokenize source = before ++ t :: after) :
    t.isUnterminated = true ↔ t.kind = .stringLiteral ∧ ¬Literal.Closed t.text := by
  simp only [isUnterminated, Bool.and_eq_true, beq_iff_eq]
  refine and_congr_right fun hk => ⟨fun hodd hclosed => ?_, fun hopen => ?_⟩
  · rw [hclosed.count_quote] at hodd
    cases hodd
  · obtain ⟨ls, -, hread, -⟩ := reads_of_split h (by simp [hk])
    exact ((Literal.readsIn_literal hread hk).resolve_left hopen).1

end Token

/-- The offsets that are reported are those of the literals without a closing quote, in the order of
the source, and each such literal takes the rest of its line. -/
theorem unterminatedStrings_tokenize (source : Text) :
    (unterminatedStrings (tokenize source)).Pairwise (· < ·) ∧
    (∀ n, n ∈ unterminatedStrings (tokenize source) ↔
      ∃ t ∈ tokenize source, t.kind = .stringLiteral ∧ ¬Literal.Closed t.text ∧ t.start = n) ∧
    ∀ before t after, tokenize source = before ++ t :: after → t.kind = .stringLiteral →
      ¬Literal.Closed t.text → Token.EndsLine after := by
  refine ⟨?_, fun n => ?_, fun before t after h hk hopen => ?_⟩
  · obtain ⟨hsplit, hplace⟩ := tokenize_eq source
    have hlist : unterminatedStrings (tokenize source) =
        unterminatedStrings (Token.place 0 (scanFrom .initial source)) := by
      rw [hsplit, hplace, unterminatedStrings_append]
      exact List.append_nil _
    have hordered := Token.place_ordered
      (fun l hl => ((scanFrom_reads .initial source).2.2 l hl).1) 0
    rw [hlist, unterminatedStrings, List.pairwise_map]
    exact hordered.filter _
  · simp only [unterminatedStrings, List.mem_map, List.mem_filter, and_assoc]
    refine exists_congr fun t => and_congr_right fun ht => ?_
    obtain ⟨before, after, h⟩ := List.append_of_mem ht
    rw [Token.isUnterminated_iff h, and_assoc]
  · exact Token.endsLine_of_split h (by simp [hk]) fun next hread =>
      ((Literal.readsIn_literal hread hk).resolve_left hopen).2

/-- A quote in a remark opens nothing, and a doubled quote does not close a literal. -/
example : unterminatedStrings (tokenize "rem \"\nx = \"a\"\"b\n".toList) = [10] := by
  decide +kernel

end VbaWorkbench
