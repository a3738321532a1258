import VbaWorkbench.Proofs.Token.Indentation

namespace VbaWorkbench

namespace Text

/-- The text has something in it, and no line break. -/
structure Inline (t : Text) : Prop where
  ne_nil : t ≠ []
  inside : ∀ c ∈ t, isLineBreak c = false

theorem Inline.append {s t : Text} (hs : s.Inline) (ht : ∀ c ∈ t, isLineBreak c = false) :
    (s ++ t).Inline :=
  ⟨List.append_ne_nil_of_left_ne_nil hs.ne_nil t, List.forall_mem_append.mpr ⟨hs.inside, ht⟩⟩

theorem Inline.after {s t : Text} (ht : t.Inline) (hs : ∀ c ∈ s, isLineBreak c = false) :
    (s ++ t).Inline :=
  ⟨List.append_ne_nil_of_right_ne_nil s ht.ne_nil, List.forall_mem_append.mpr ⟨hs, ht.inside⟩⟩

/-- Rows with a line break after each, and one more without. -/
def stacked (newline : Text) (rows : List Text) (last : Text) : Text :=
  rows.flatMap (· ++ newline) ++ last

@[simp] theorem stacked_nil (newline last : Text) : stacked newline [] last = last :=
  rfl

theorem stacked_cons (newline row : Text) (rows : List Text) (last : Text) :
    stacked newline (row :: rows) last = row ++ (newline ++ stacked newline rows last) := by
  simp [stacked]

theorem stacked_append (newline : Text) (rows more : List Text) (row last : Text) :
    stacked newline (rows ++ row :: more) last =
      stacked newline rows row ++ newline ++ stacked newline more last := by
  simp [stacked]

/-- The line break after a row is over before the next one. -/
theorem endsBefore_stacked {newline : Text} {rows : List Text} {last : Text}
    (hrows : ∀ row ∈ rows, ∀ c ∈ row, isLineBreak c = false)
    (hlast : ∀ c ∈ last, isLineBreak c = false) :
    newline.EndsBefore (stacked newline rows last) := by
  have hfront : ∀ t more : Text, (∀ c ∈ t, isLineBreak c = false) → more.head? ≠ some '\n' →
      (t ++ more).head? ≠ some '\n' := by
    intro t more ht hmore
    cases t with
    | nil => exact hmore
    | cons c t =>
      intro hc
      have hinside := ht c List.mem_cons_self
      rw [Option.some.inj hc] at hinside
      cases hinside
  intro hreturn
  cases rows with
  | nil => simpa using hfront last [] hlast (by simp)
  | cons row rows =>
    rw [stacked_cons]
    refine hfront row _ (hrows row List.mem_cons_self) ?_
    rw [hreturn]
    simp

end Text

namespace PhysicalLine

/-- The line that has a text without line breaks. -/
def ofText (t ending : Text) : PhysicalLine :=
  ⟨t.takeWhile Text.isBlank, t.dropWhile Text.isBlank, ending⟩

theorem push_ofText (c : Char) (t ending : Text) :
    push c (ofText t ending) = ofText (c :: t) ending := by
  cases hc : Text.isBlank c <;> simp [push, ofText, hc]

theorem ofSource_push {c : Char} (hc : Text.isLineBreak c = false) (t : Text) :
    ofSource (c :: t) = (ofSource t).modifyHead (push c) := by
  rw [ofSource, if_neg (by simp [hc])]
  rintro rest rfl
  cases hc

theorem ofSource_break {br v : Text} (h : br.IsBreak) (hv : br.EndsBefore v) :
    ofSource (br ++ v) = ofText [] br :: ofSource v := by
  rcases h with rfl | rfl | rfl
  · rfl
  · rfl
  · rw [List.singleton_append, ofSource]
    · rfl
    · rintro rest - rfl
      exact hv rfl rfl

theorem ofSource_append {a br v : Text} (ha : ∀ c ∈ a, Text.isLineBreak c = false) (h : br.IsBreak)
    (hv : br.EndsBefore v) : ofSource (a ++ (br ++ v)) = ofText a br :: ofSource v := by
  induction a with
  | nil => exact ofSource_break h hv
  | cons c a ih =>
    obtain ⟨hc, ha⟩ := List.forall_mem_cons.mp ha
    rw [List.cons_append, ofSource_push hc, ih ha, List.modifyHead_cons, push_ofText]

theorem ofSource_inside {a : Text} (ha : ∀ c ∈ a, Text.isLineBreak c = false) :
    ofSource a = [ofText a []] := by
  induction a with
  | nil => rfl
  | cons c a ih =>
    obtain ⟨hc, ha⟩ := List.forall_mem_cons.mp ha
    rw [ofSource_push hc, ih ha, List.modifyHead_cons, push_ofText]

/-- Rows are the physical lines of what they make up. -/
theorem ofSource_stacked {newline : Text} {rows : List Text} {last : Text} (h : newline.IsBreak)
    (hrows : ∀ row ∈ rows, ∀ c ∈ row, Text.isLineBreak c = false)
    (hlast : ∀ c ∈ last, Text.isLineBreak c = false) :
    ofSource (Text.stacked newline rows last) =
      rows.map (ofText · newline) ++ [ofText last []] := by
  induction rows with
  | nil => exact ofSource_inside hlast
  | cons row rows ih =>
    obtain ⟨hrow, hrows⟩ := List.forall_mem_cons.mp hrows
    rw [Text.stacked_cons, ofSource_append hrow h (Text.endsBefore_stacked hrows hlast), ih hrows]
    rfl

end PhysicalLine

namespace Text

/-- The line breaks of a text, in order. -/
def breaks (t : Text) : List Text :=
  ((PhysicalLine.ofSource t).map (·.ending)).filter (!·.isEmpty)

theorem breaks_append {a br v : Text} (ha : ∀ c ∈ a, isLineBreak c = false) (h : br.IsBreak)
    (hv : br.EndsBefore v) : breaks (a ++ (br ++ v)) = br :: breaks v := by
  rw [breaks, PhysicalLine.ofSource_append ha h hv, List.map_cons, List.filter_cons_of_pos]
  · rfl
  · simpa [PhysicalLine.ofText] using h.ne_nil

theorem breaks_stacked {newline : Text} {rows : List Text} {last : Text} (h : newline.IsBreak)
    (hrows : ∀ row ∈ rows, ∀ c ∈ row, isLineBreak c = false)
    (hlast : ∀ c ∈ last, isLineBreak c = false) :
    breaks (stacked newline rows last) = rows.map fun _ => newline := by
  rw [breaks, PhysicalLine.ofSource_stacked h hrows hlast, List.map_append, List.filter_append,
    List.map_map, List.filter_eq_self.mpr]
  · exact List.append_nil _
  · rintro ending hending
    obtain ⟨row, -, rfl⟩ := List.mem_map.mp hending
    simpa [PhysicalLine.ofText] using h.ne_nil

end Text

/-- The first line break of a source is that of the first token that ends a line: all of a newline,
and what stands behind the underscore of a continuation. -/
theorem exists_firstBreak {source : Text} {c : Char} (hc : c ∈ source)
    (hbreak : Text.isLineBreak c = true) :
    ∃ t br, (tokenize source).find? (·.kind.breaksLine) = some t ∧
      (Text.breaks source).head? = some br ∧
      (t.kind = .newline ∧ t.text = br ∨ t.kind = .lineContinuation ∧ t.text = '_' :: br) := by
  obtain ⟨hreads, htext, -⟩ := scanFrom_reads .initial source
  have hfind := Token.find?_place 0 (p := TokenKind.breaksLine) rfl (scanFrom .initial source)
  obtain ⟨init, l, after, hscan, hl, hinit⟩ := hreads.exists_breaking (htext.symm ▸ hc) hbreak
  have hlexeme : (scanFrom .initial source).find? (·.kind.breaksLine) = some l :=
    List.find?_eq_some_iff_append.mpr ⟨hl, init, after, hscan, by simpa using hinit⟩
  obtain ⟨t, ht, rfl⟩ := Option.map_eq_some_iff.mp (hfind.trans hlexeme)
  rw [hscan] at hreads htext
  obtain ⟨hfirst, hread, -⟩ := reads_append.mp hreads
  rw [List.append_nil] at hread
  obtain ⟨before, br, hbefore, hinside, hbr, hends, -⟩ := exists_break hread hl
  have hhead : (Text.breaks source).head? = some br := by
    have hfront := List.forall_mem_append.mpr ⟨hfirst.no_lineBreak hinit, hinside⟩
    have hsource : source =
        (Lexeme.sourceText init ++ before) ++ (br ++ Lexeme.sourceText after) := by
      rw [← htext, Lexeme.sourceText_append, Lexeme.sourceText_cons, hbefore]
      simp only [List.append_assoc]
    rw [hsource, Text.breaks_append hfront hbr hends]
    rfl
  refine ⟨t, br, ht, hhead, ?_⟩
  -- There is only one way to cut the token before its line break.
  have hsame : ∀ front br' : Text, (∀ c ∈ front, Text.isLineBreak c = false) → br'.IsBreak →
      t.text = front ++ br' → br' = br := by
    intro front br' hfront hbr' h
    have hline := hbr'.endsLine []
    have hline' := hbr.endsLine []
    rw [List.append_nil] at hline hline'
    exact (append_inj_of_endsLine hfront hinside hline hline' (h.symm.trans hbefore)).2
  have hlayout := readsIn_layout hread
  cases hk : t.kind with
  | newline => exact .inl ⟨rfl, hsame [] t.text (by simp) (hlayout.2.1 hk) rfl⟩
  | lineContinuation =>
    obtain ⟨-, br', htext', hread'⟩ := hlayout.2.2 hk
    have hbr' : Text.IsBreak br' := (readsIn_layout hread').2.1 rfl
    have heq := hsame ['_'] br' (by simp [Text.isLineBreak]) hbr' htext'
    exact .inr ⟨rfl, heq ▸ htext'⟩
  | _ =>
    rw [hk] at hl
    cases hl

end VbaWorkbench
