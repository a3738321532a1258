import VbaWorkbench.Proofs.Layout.Relaying
import VbaWorkbench.Proofs.Layout.SameCode
import VbaWorkbench.Proofs.Line.Tokens

namespace VbaWorkbench

namespace Layout

section Again

variable {options : LayoutOptions} {newline : Text}

theorem newPieces_spec {line : BareLine} (h : line.WellRead) (style : KeywordStyle) :
    ∀ p ∈ newPieces style line.lexemes, Solid p ∧ trimmed p = p := by
  intro p hp
  obtain ⟨q, hq, rfl⟩ := List.mem_map.mp hp
  exact ⟨((chain_of_wellRead h style).forall q hq).1.trimmed, trimmed_trimmed q⟩

theorem newPieces_ne_nil {ls : List Lexeme} (h : code ls ≠ []) (style : KeywordStyle) :
    newPieces style ls ≠ [] := by
  intro hnil
  have hcode := cores_eq_nil_iff.mp (List.map_eq_nil_iff.mp hnil)
  rw [code_recaseAll] at hcode
  cases hls : code ls with
  | nil => exact h hls
  | cons l ls =>
    rw [hls] at hcode
    cases hcode

/-- A line that is read where another one was laid out is laid out as it is. -/
theorem laidLexemes_again {line line' : Line} {depth : Nat} (h : line.bare.WellRead)
    (hcode : code line.bare.lexemes ≠ [])
    (hline' : line'.bare.lexemes = laidLexemes options newline depth line) :
    laidLexemes options newline depth line' = laidLexemes options newline depth line := by
  have hspelled : recaseAll options.keywordStyle false (laidLexemes options newline depth line) =
      laidLexemes options newline depth line := by
    refine recaseAll_of_code ?_
    rw [code_laidLexemes, recaseAll_trim, recaseAll_recaseAll]
  have hspec := newPieces_spec h options.keywordStyle
  rw [laidLexemes, hline', newPieces, hspelled]
  exact laid_again options newline depth (newPieces_ne_nil hcode _) (fun p hp => (hspec p hp).1)
    fun p hp => (hspec p hp).2

theorem kind_ne_endOfInput_of_wellRead {line : Line} (h : line.bare.WellRead) :
    ∀ t ∈ line.tokens, t.kind ≠ .endOfInput := by
  intro t ht
  obtain ⟨⟨u, -, hreads⟩, -⟩ := h
  obtain ⟨state, next, hread⟩ := hreads.forall t.toLexeme (List.mem_map_of_mem ht)
  exact kind_ne_endOfInput hread

/-- It has the same words. -/
theorem significant_again {line line' : Line} {depth : Nat} (h : line.bare.WellRead)
    (h' : line'.bare.WellRead)
    (hline' : line'.bare.lexemes = laidLexemes options newline depth line) :
    (significant line'.tokens).map Token.key = (significant line.tokens).map Token.key := by
  have hkeys : lexemeKeys line'.bare.lexemes = lexemeKeys line.bare.lexemes := by
    rw [hline', ← lexemeKeys_code, code_laidLexemes, lexemeKeys_new, lexemeKeys_code]
  rw [significant_keys (kind_ne_endOfInput_of_wellRead h),
    significant_keys (kind_ne_endOfInput_of_wellRead h')]
  exact congrArg (List.map fun l => (⟨l, 0⟩ : Token)) hkeys

theorem isBlank_eq (line : Line) :
    line.isBlank = line.bare.lexemes.all (·.kind == .whitespace) := by
  rw [Line.isBlank, Line.bare, List.all_map]
  rfl

theorem isBlank_again {line line' : Line} {depth : Nat} (hcode : code line.bare.lexemes ≠ [])
    (hline' : line'.bare.lexemes = laidLexemes options newline depth line) :
    line'.isBlank = false := by
  cases hblank : line'.isBlank with
  | false => rfl
  | true =>
    rw [isBlank_eq, hline'] at hblank
    have hnil : code (laidLexemes options newline depth line) = [] :=
      code_eq_nil_of_blank fun l hl => eq_of_beq (List.all_eq_true.mp hblank l hl)
    have hwords := sameWords_new options.keywordStyle false (code line.bare.lexemes)
    rw [← code_laidLexemes options newline depth line, hnil] at hwords
    exact absurd (List.forall₂_nil_right_iff.mp hwords) hcode

/-- A line that is not blank has code. -/
def HasCode (line : Line) : Prop :=
  line.isBlank = false → code line.bare.lexemes ≠ []

theorem bare_eq_iff {line : Line} {ls : List Lexeme} {nl : Option Lexeme} :
    line.bare = ⟨ls, nl⟩ ↔ line.bare.lexemes = ls ∧ line.bare.newline = nl := by
  constructor
  · intro h
    rw [h]
    exact ⟨rfl, rfl⟩
  · rintro ⟨rfl, rfl⟩
    rfl

/-- Lines that are laid out are laid out again as they are. Of a run of blank lines as many are left
as may be kept. -/
theorem lays_again {tracker : Tracker} {blanks : Nat} {lines : List Line} {out : List BareLine}
    (h : Lays options newline tracker blanks lines out)
    (hlines : ∀ line ∈ lines, line.bare.WellRead ∧ HasCode line)
    {tracker' : Tracker} {lines' : List Line} (hkey : tracker'.key = tracker.key)
    (hout : lines'.map Line.bare = out) (hlines' : ∀ line ∈ lines', line.bare.WellRead) :
    Lays options newline tracker' (min blanks options.maxBlankLines) lines' out := by
  induction h generalizing tracker' lines' with
  | blankEnd _ _ hfinish =>
    obtain ⟨line', rest, rfl, hline', hrest⟩ := List.map_eq_cons_iff.mp hout
    obtain rfl := List.map_eq_nil_iff.mp hrest
    obtain ⟨hlexemes, hnone⟩ := bare_eq_iff.mp hline'
    refine .blankEnd ?_ (Option.map_eq_none_iff.mp hnone) (Tracker.finish_of_key_eq hkey hfinish)
    rw [isBlank_eq, hlexemes]
    rfl
  | @codeEnd _ _ _ depth line hblank _ hdepth hfinish =>
    obtain ⟨line', rest, rfl, hline', hrest⟩ := List.map_eq_cons_iff.mp hout
    obtain rfl := List.map_eq_nil_iff.mp hrest
    obtain ⟨hlexemes, hnone⟩ := bare_eq_iff.mp hline'
    obtain ⟨hread, hcode⟩ := hlines line (by simp)
    obtain ⟨next, hdepth', hnext⟩ := lineDepth_of_key_eq hkey
      (significant_again hread (hlines' line' (by simp)) hlexemes) hdepth
    rw [← laidLexemes_again hread (hcode hblank) hlexemes]
    exact .codeEnd (isBlank_again (hcode hblank) hlexemes) (Option.map_eq_none_iff.mp hnone) hdepth'
      (Tracker.finish_of_key_eq hnext hfinish)
  | @keep _ blanks _ _ _ _ _ hlt _ ih =>
    obtain ⟨line', rest, rfl, hline', hrest⟩ := List.map_eq_cons_iff.mp hout
    obtain ⟨hlexemes, hsome⟩ := bare_eq_iff.mp hline'
    have hagain := ih (List.forall_mem_cons.mp hlines).2 hkey hrest
      (List.forall_mem_cons.mp hlines').2
    refine .keep ?_ ?_ ?_ ?_
    · rw [isBlank_eq, hlexemes]
      rfl
    · obtain ⟨t, ht, -⟩ := Option.map_eq_some_iff.mp hsome
      rw [ht]
      rfl
    · omega
    · have hblanks : min (blanks + 1) options.maxBlankLines =
          min blanks options.maxBlankLines + 1 := by omega
      rw [← hblanks]
      exact hagain
  | @drop _ blanks _ _ _ _ _ hle _ ih =>
    have hblanks : min blanks options.maxBlankLines = min (blanks + 1) options.maxBlankLines := by
      omega
    rw [hblanks]
    exact ih (List.forall_mem_cons.mp hlines).2 hkey hout hlines'
  | @code _ _ _ depth line _ _ hblank _ hdepth _ ih =>
    obtain ⟨line', rest, rfl, hline', hrest⟩ := List.map_eq_cons_iff.mp hout
    obtain ⟨hlexemes, hsome⟩ := bare_eq_iff.mp hline'
    obtain ⟨⟨hread, hcode⟩, hlines⟩ := List.forall_mem_cons.mp hlines
    obtain ⟨hread', hlines'⟩ := List.forall_mem_cons.mp hlines'
    obtain ⟨next, hdepth', hnext⟩ := lineDepth_of_key_eq hkey
      (significant_again hread hread' hlexemes) hdepth
    have hagain := ih hlines hnext hrest hlines'
    rw [Nat.zero_min] at hagain
    rw [← laidLexemes_again hread (hcode hblank) hlexemes]
    refine .code (isBlank_again (hcode hblank) hlexemes) ?_ hdepth' hagain
    obtain ⟨t, ht, -⟩ := Option.map_eq_some_iff.mp hsome
    rw [ht]
    rfl

end Again

section Newline

/-- The first line break, or a line feed. -/
def firstBreak (ls : List Lexeme) : Text :=
  ((ls.find? (·.kind == .newline)).map (·.text)).getD ['\n']

theorem firstBreak_append {ls : List Lexeme} (h : ∀ l ∈ ls, l.kind ≠ .newline)
    (ms : List Lexeme) : firstBreak (ls ++ ms) = firstBreak ms := by
  have hnone : ls.find? (·.kind == .newline) = none :=
    List.find?_eq_none.mpr fun l hl => by simp [h l hl]
  rw [firstBreak, List.find?_append, hnone, Option.none_or]
  rfl

theorem firstBreak_newline {nl : Lexeme} (h : nl.kind = .newline) (ls : List Lexeme) :
    firstBreak (nl :: ls) = nl.text := by
  rw [firstBreak, List.find?_cons_of_pos (by simp [h])]
  rfl

theorem newlineOf_place (start : Nat) (ls : List Lexeme) :
    newlineOf (Token.place start (ls ++ [⟨.endOfInput, []⟩])) = firstBreak ls := by
  rw [newlineOf, firstBreak, ← Token.find?_place start (p := (· == .newline)) rfl ls,
    Option.map_map]
  rfl

/-- The output has the line breaks of its source. -/
theorem firstBreak_again {options : LayoutOptions} {newline : Text} {tracker : Tracker}
    {lines : List Line} {out : List BareLine} (h : Lays options newline tracker 0 lines out)
    (hmax : 1 ≤ options.maxBlankLines) (hlines : ∀ line ∈ lines, line.bare.WellRead)
    (hnewline : newline = firstBreak (BareLine.flatten (lines.map Line.bare))) :
    firstBreak (BareLine.flatten out) = newline := by
  have hlast : ∀ {ls : List Lexeme} {line : Line}, line.bare.WellRead → line.newline = none →
      (∀ l ∈ ls, l.kind ≠ .newline) →
      newline = firstBreak (BareLine.flatten ([line].map Line.bare)) → firstBreak ls = newline := by
    intro ls line hline hnone hls hnewline
    have hbare : line.bare = ⟨line.bare.lexemes, none⟩ :=
      bare_eq_iff.mpr ⟨rfl, Option.map_eq_none_iff.mpr hnone⟩
    rw [List.map_singleton, hbare, BareLine.flatten_end, ← List.append_nil line.bare.lexemes,
      firstBreak_append hline.2] at hnewline
    rw [hnewline, ← List.append_nil ls, firstBreak_append hls]
  cases h with
  | blankEnd _ hnone =>
    rw [BareLine.flatten_end]
    exact hlast (hlines _ (by simp)) hnone (by simp) hnewline
  | codeEnd _ hnone =>
    rw [BareLine.flatten_end]
    exact hlast (hlines _ (by simp)) hnone
      (laidLexemes_no_newline (hlines _ (by simp)) _) hnewline
  | keep =>
    rw [BareLine.flatten_ended, List.nil_append, firstBreak_newline rfl]
    rfl
  | drop _ _ hle => exact absurd hmax (by omega)
  | code =>
    rw [BareLine.flatten_ended, firstBreak_append (laidLexemes_no_newline (hlines _ (by simp)) _),
      firstBreak_newline rfl]
    rfl

end Newline

/-- Without underscores by themselves none dangles. -/
theorem not_dangling_of_no_underscore {line : Line}
    (h : ∀ t ∈ line.tokens, ¬(t.kind = .punctuation ∧ t.text = ['_'])) : ¬line.bare.Dangling := by
  rintro ⟨-, p, hp, init, rfl, -⟩
  have hmem : (⟨.punctuation, ['_']⟩ : Lexeme) ∈ code (cores line.bare.lexemes).flatten :=
    List.mem_filter.mpr ⟨List.mem_flatten.mpr ⟨_, List.mem_of_getLast? hp, by simp⟩, rfl⟩
  rw [code_cores] at hmem
  obtain ⟨t, ht, he⟩ := List.mem_map.mp (List.mem_filter.mp hmem).1
  exact h t ht ⟨congrArg Lexeme.kind he, congrArg Lexeme.text he⟩

theorem hasCode_of_continuation {line : Line}
    (h : (∃ t ∈ line.tokens, t.kind = .lineContinuation) →
      ∃ t ∈ line.tokens, t.kind ≠ .whitespace ∧ t.kind ≠ .lineContinuation) : HasCode line := by
  intro hblank hnil
  have hlayout : ∀ t ∈ line.tokens, t.kind = .whitespace ∨ t.kind = .lineContinuation :=
    fun t ht => code_eq_nil_iff.mp hnil t.toLexeme (List.mem_map_of_mem ht)
  have hcontinued : ∃ t ∈ line.tokens, t.kind = .lineContinuation := by
    apply Classical.byContradiction
    intro hnone
    have hall : line.isBlank = true := List.all_eq_true.mpr fun t ht =>
      beq_iff_eq.mpr ((hlayout t ht).resolve_right fun hk => hnone ⟨t, ht, hk⟩)
    rw [hall] at hblank
    cases hblank
  obtain ⟨t, ht, hw, hk⟩ := h hcontinued
  rcases hlayout t ht with h | h
  · exact hw h
  · exact hk h

end Layout

/-- A layout that keeps names and indents by blanks does not change when it is laid out again, where
the source has no underscore by itself and no line of nothing but continuations. -/
theorem format_format {options : LayoutOptions} {source out : Text}
    (hstyle : options.nameStyle = .preserve)
    (hunit : ∀ c ∈ options.indentUnit, Text.isBlank c = true)
    (hmax : 1 ≤ options.maxBlankLines)
    (hunderscore : ∀ t ∈ tokenize source, ¬(t.kind = .punctuation ∧ t.text = ['_']))
    (hcontinued : ∀ line ∈ Line.ofTokens (tokenize source),
      (∃ t ∈ line.tokens, t.kind = .lineContinuation) →
        ∃ t ∈ line.tokens, t.kind ≠ .whitespace ∧ t.kind ≠ .lineContinuation)
    (h : format options source = .ok out) : format options out = .ok out := by
  obtain ⟨out, hlays, rfl⟩ := Layout.exists_lays_format hstyle h
  have hbreak := Layout.newlineOf_isBreak source
  have hlines : ∀ line ∈ Line.ofTokens (tokenize source), line.bare.WellRead :=
    fun line hline => (wellRead_ofTokens source line hline).1
  have hloose : ∀ line ∈ Line.ofTokens (tokenize source), ¬line.bare.Dangling :=
    fun line hline => Layout.not_dangling_of_no_underscore fun t ht =>
      hunderscore t (Line.mem_of_mem_tokens hline ht)
  have hlines' : ∀ line ∈ Line.ofTokens (tokenize (Lexeme.sourceText (BareLine.flatten out))),
      line.bare.WellRead := fun line hline => (wellRead_ofTokens _ line hline).1
  have hagain := Layout.lays_again hlays
    (fun line hline =>
      ⟨hlines line hline, Layout.hasCode_of_continuation (hcontinued line hline)⟩)
    rfl (Layout.lines_out hunit hbreak hlays hlines hloose) hlines'
  have hnewline : Layout.newlineOf (tokenize (Lexeme.sourceText (BareLine.flatten out))) =
      Layout.newlineOf (tokenize source) := by
    have hsource : Layout.newlineOf (tokenize source) = Layout.firstBreak
        (BareLine.flatten ((Line.ofTokens (tokenize source)).map Line.bare)) :=
      (Layout.newlineOf_place 0 (scanFrom .initial source)).trans
        (congrArg Layout.firstBreak (ruled_ofTokens source).2.symm)
    have hfirst := Layout.firstBreak_again hlays hmax hlines hsource
    rw [tokenize, Layout.newlineOf_place, Layout.scan_out hunit hbreak hlays hlines hloose, hfirst]
  have hplan : RenamePlan.ofLines options.nameStyle
      (Line.ofTokens (tokenize (Lexeme.sourceText (BareLine.flatten out)))) = ⟨[]⟩ := by
    rw [hstyle]
    rfl
  simp only [format, hplan, hnewline]
  rw [Nat.zero_min] at hagain
  exact Layout.formatLines_of_lays hagain hlines'

/-- A continued call that is joined, with a remark that is trimmed and blank lines that are
dropped. -/
theorem format_format_joined :
    let options : LayoutOptions := { LayoutOptions.default with
      keywordStyle := .title, continuationStyle := .collapseWhenShort, maxBlankLines := 1 }
    let source := "sub a()\n\n\nb _\n c\nrem d \nend sub".toList
    let out := "Sub a()\n\n  b c\n  rem d\nEnd Sub".toList
    format options source = .ok out ∧ format options out = .ok out := by
  have h : format { LayoutOptions.default with
        keywordStyle := .title, continuationStyle := .collapseWhenShort, maxBlankLines := 1 }
      "sub a()\n\n\nb _\n c\nrem d \nend sub".toList =
        .ok "Sub a()\n\n  b c\n  rem d\nEnd Sub".toList := by decide +kernel
  exact ⟨h, format_format rfl (List.all_eq_true.mp rfl) (by decide) (by decide +kernel)
    (by decide +kernel) h⟩

end VbaWorkbench
