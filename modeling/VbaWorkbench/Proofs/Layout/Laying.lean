import VbaWorkbench.Proofs.Layout.Lines
import VbaWorkbench.Proofs.Results

namespace VbaWorkbench

/-- The line was read from its beginning to its end. -/
def BareLine.WellRead (line : BareLine) : Prop :=
  (∃ u, u.EndsLine ∧ Reads .initial u line.lexemes) ∧ ∀ l ∈ line.lexemes, l.kind ≠ .newline

theorem ScanState.next_newline (state : ScanState) : state.next .newline = .initial :=
  rfl

/-- Each line of a text is read by itself. -/
theorem BareLine.Ruled.wellRead {lines : List BareLine} (h : Ruled lines)
    (hreads : Reads .initial [] (flatten lines)) :
    ∀ line ∈ lines, line.WellRead ∧ ∀ nl ∈ line.newline, nl.kind = .newline ∧ nl.text.IsBreak := by
  induction h with
  | last ls hls =>
    intro line hline
    obtain rfl := List.mem_singleton.mp hline
    rw [flatten_end] at hreads
    exact ⟨⟨⟨[], rfl, hreads⟩, hls⟩, by simp⟩
  | line ls nl lines hls hnl _ ih =>
    rw [flatten_ended, reads_append] at hreads
    obtain ⟨hfirst, hnewline, hrest⟩ := hreads
    have hbreak := (readsIn_layout hnewline).2.1 hnl
    rw [hnl, ScanState.next_newline] at hrest
    intro line hline
    rcases List.mem_cons.mp hline with rfl | hline
    · refine ⟨⟨⟨_, ?_, hfirst⟩, hls⟩, by simpa using ⟨hnl, hbreak⟩⟩
      rw [Lexeme.sourceText_cons, List.append_assoc]
      exact hbreak.endsLine _
    · exact ih hrest line hline

theorem wellRead_ofTokens (source : Text) :
    ∀ line ∈ Line.ofTokens (tokenize source),
      line.bare.WellRead ∧ ∀ nl ∈ line.bare.newline, nl.kind = .newline ∧ nl.text.IsBreak := by
  intro line hline
  have hreads := (scanFrom_reads .initial source).1
  obtain ⟨hruled, hflat⟩ := ruled_ofTokens source
  rw [← hflat] at hreads
  exact hruled.wellRead hreads line.bare (List.mem_map.mpr ⟨line, hline, rfl⟩)

namespace Layout

theorem chain_of_wellRead {line : BareLine} (h : line.WellRead) (style : KeywordStyle) :
    Chain true (cores (recaseAll style false line.lexemes)) := by
  obtain ⟨⟨u, hu, hreads⟩, hnl⟩ := h
  refine chain_of_reads (reads_of_lower_eq hreads (lower_recaseAll style false _) rfl) hu ?_
  intro l hl
  have hkind : l.kind ∈ (recaseAll style false line.lexemes).map (·.kind) :=
    List.mem_map_of_mem hl
  rw [kinds_recaseAll] at hkind
  obtain ⟨m, hm, hk⟩ := List.mem_map.mp hkind
  rw [← hk]
  exact hnl m hm

/-- The line break that ends a line that is laid out. -/
def newlineLexeme (newline : Text) : Lexeme :=
  ⟨.newline, newline⟩

/-- The lexemes of a line at a depth. -/
def laidLexemes (options : LayoutOptions) (newline : Text) (depth : Nat) (line : Line) :
    List Lexeme :=
  laid options newline depth (newPieces options.keywordStyle line.bare.lexemes)

/-- The text of lines of which each but the last has a newline, behind a run of blank ones. -/
inductive Formats (options : LayoutOptions) (plan : RenamePlan) (newline : Text) :
    Tracker → Nat → List Line → Text → Prop
  | blankEnd {tracker : Tracker} {blanks : Nat} {line : Line} :
      line.isBlank = true → line.newline = none → tracker.finish = .ok () →
      Formats options plan newline tracker blanks [line] []
  | codeEnd {tracker tracker' : Tracker} {blanks depth : Nat} {line : Line} :
      line.isBlank = false → line.newline = none →
      lineDepth tracker line = .ok (tracker', depth) → tracker'.finish = .ok () →
      Formats options plan newline tracker blanks [line]
        (emit options newline depth (pieces options plan line))
  | keep {tracker : Tracker} {blanks : Nat} {line : Line} {lines : List Line} {text : Text} :
      line.isBlank = true → line.newline.isSome = true → blanks < options.maxBlankLines →
      Formats options plan newline tracker (blanks + 1) lines text →
      Formats options plan newline tracker blanks (line :: lines) (newline ++ text)
  | drop {tracker : Tracker} {blanks : Nat} {line : Line} {lines : List Line} {text : Text} :
      line.isBlank = true → line.newline.isSome = true → options.maxBlankLines ≤ blanks →
      Formats options plan newline tracker (blanks + 1) lines text →
      Formats options plan newline tracker blanks (line :: lines) text
  | code {tracker tracker' : Tracker} {blanks depth : Nat} {line : Line} {lines : List Line}
      {text : Text} :
      line.isBlank = false → line.newline.isSome = true →
      lineDepth tracker line = .ok (tracker', depth) →
      Formats options plan newline tracker' 0 lines text →
      Formats options plan newline tracker blanks (line :: lines)
        (emit options newline depth (pieces options plan line) ++ newline ++ text)

/-- The lines that come of laying out lines, behind a run of blank ones. -/
inductive Lays (options : LayoutOptions) (newline : Text) :
    Tracker → Nat → List Line → List BareLine → Prop
  | blankEnd {tracker : Tracker} {blanks : Nat} {line : Line} :
      line.isBlank = true → line.newline = none → tracker.finish = .ok () →
      Lays options newline tracker blanks [line] [⟨[], none⟩]
  | codeEnd {tracker tracker' : Tracker} {blanks depth : Nat} {line : Line} :
      line.isBlank = false → line.newline = none →
      lineDepth tracker line = .ok (tracker', depth) → tracker'.finish = .ok () →
      Lays options newline tracker blanks [line] [⟨laidLexemes options newline depth line, none⟩]
  | keep {tracker : Tracker} {blanks : Nat} {line : Line} {lines : List Line}
      {out : List BareLine} :
      line.isBlank = true → line.newline.isSome = true → blanks < options.maxBlankLines →
      Lays options newline tracker (blanks + 1) lines out →
      Lays options newline tracker blanks (line :: lines)
        (⟨[], some (newlineLexeme newline)⟩ :: out)
  | drop {tracker : Tracker} {blanks : Nat} {line : Line} {lines : List Line}
      {out : List BareLine} :
      line.isBlank = true → line.newline.isSome = true → options.maxBlankLines ≤ blanks →
      Lays options newline tracker (blanks + 1) lines out →
      Lays options newline tracker blanks (line :: lines) out
  | code {tracker tracker' : Tracker} {blanks depth : Nat} {line : Line} {lines : List Line}
      {out : List BareLine} :
      line.isBlank = false → line.newline.isSome = true →
      lineDepth tracker line = .ok (tracker', depth) →
      Lays options newline tracker' 0 lines out →
      Lays options newline tracker blanks (line :: lines)
        (⟨laidLexemes options newline depth line, some (newlineLexeme newline)⟩ :: out)

section Formatting

variable {options : LayoutOptions} {newline : Text}

theorem sourceText_laidLexemes {line : Line} (h : line.bare.WellRead) (depth : Nat) :
    Lexeme.sourceText (laidLexemes options newline depth line) =
      emit options newline depth (pieces options ⟨[]⟩ line) := by
  rw [pieces_eq (chain_of_wellRead h _), ← sourceText_laid]
  rfl

theorem sourceText_ended (ls : List Lexeme) (out : List BareLine) :
    Lexeme.sourceText (BareLine.flatten (⟨ls, some (newlineLexeme newline)⟩ :: out)) =
      Lexeme.sourceText ls ++ newline ++ Lexeme.sourceText (BareLine.flatten out) := by
  simp [BareLine.all, newlineLexeme]

theorem sourceText_end (ls : List Lexeme) :
    Lexeme.sourceText (BareLine.flatten [⟨ls, none⟩]) = Lexeme.sourceText ls := by
  simp [BareLine.all]

/-- The text of the lines that are laid out. -/
theorem formatLines_of_lays {tracker : Tracker} {blanks : Nat} {lines : List Line}
    {out : List BareLine} (h : Lays options newline tracker blanks lines out)
    (hlines : ∀ line ∈ lines, line.bare.WellRead) :
    formatLines options ⟨[]⟩ newline tracker blanks lines =
      .ok (Lexeme.sourceText (BareLine.flatten out)) := by
  induction h with
  | blankEnd hblank hnone hfinish =>
    rw [formatLines, if_pos hblank, sourceText_end]
    simp [hnone, ended, formatLines, hfinish, Except.map]
  | codeEnd hblank hnone hdepth hfinish =>
    rw [formatLines, if_neg (by simp [hblank]), sourceText_end,
      sourceText_laidLexemes (hlines _ List.mem_cons_self)]
    simp [hdepth, hnone, ended, formatLines, hfinish, Except.map]
  | keep hblank hsome hlt _ ih =>
    have htext := ih (List.forall_mem_cons.mp hlines).2
    rw [formatLines, if_pos hblank, sourceText_ended]
    simp only [hsome, if_true, if_pos (Nat.succ_le_of_lt hlt), htext, ended]
    rfl
  | drop hblank hsome hle _ ih =>
    have htext := ih (List.forall_mem_cons.mp hlines).2
    rw [formatLines, if_pos hblank]
    simp only [hsome, if_true, if_neg (Nat.not_le_of_lt (Nat.lt_succ_of_le hle)), htext]
    rfl
  | code hblank hsome hdepth _ ih =>
    have htext := ih (List.forall_mem_cons.mp hlines).2
    rw [formatLines, if_neg (by simp [hblank]), sourceText_ended,
      sourceText_laidLexemes (hlines _ List.mem_cons_self)]
    simp only [hdepth, htext, ended, hsome, if_true]
    rfl

/-- Lines that have a layout are laid out one by one. -/
theorem formats_of_formatLines {plan : RenamePlan} {tracker : Tracker} {blanks : Nat}
    {lines : List Line} {text : Text}
    (h : formatLines options plan newline tracker blanks lines = .ok text)
    (hruled : BareLine.Ruled (lines.map Line.bare)) :
    Formats options plan newline tracker blanks lines text := by
  induction lines generalizing tracker blanks text with
  | nil => cases hruled
  | cons line lines ih =>
    have hend : line.newline = none ∧ lines = [] ∨
        line.newline.isSome = true ∧ BareLine.Ruled (lines.map Line.bare) := by
      rcases hruled.first with ⟨hnone, hnil⟩ | ⟨⟨nl, hnl⟩, hruled⟩
      · exact .inl ⟨Option.map_eq_none_iff.mp hnone, List.map_eq_nil_iff.mp hnil⟩
      · obtain ⟨t, ht, -⟩ := Option.map_eq_some_iff.mp hnl
        exact .inr ⟨by rw [ht]; rfl, hruled⟩
    rw [formatLines] at h
    cases hblank : line.isBlank with
    | true =>
      rw [if_pos hblank] at h
      obtain ⟨more, hmore, rfl⟩ := ok_of_map h
      rcases hend with ⟨hnone, rfl⟩ | ⟨hsome, hruled⟩
      · obtain ⟨_, hfinish, rfl⟩ := ok_of_map hmore
        simpa [ended, hnone] using Formats.blankEnd hblank hnone hfinish
      · rw [if_pos hsome] at hmore ⊢
        rcases Nat.lt_or_ge blanks options.maxBlankLines with hlt | hle
        · rw [if_pos (Nat.succ_le_of_lt hlt), ended, if_pos hsome]
          exact .keep hblank hsome hlt (ih hmore hruled)
        · rw [if_neg (by omega)]
          exact .drop hblank hsome hle (ih hmore hruled)
    | false =>
      rw [if_neg (by simp [hblank])] at h
      split at h
      · cases h
      · rename_i hdepth
        obtain ⟨more, hmore, rfl⟩ := ok_of_map h
        rcases hend with ⟨hnone, rfl⟩ | ⟨hsome, hruled⟩
        · obtain ⟨_, hfinish, rfl⟩ := ok_of_map hmore
          simpa [ended, hnone] using Formats.codeEnd hblank hnone hdepth hfinish
        · rw [ended, if_pos hsome]
          exact .code hblank hsome hdepth (ih hmore hruled)

theorem exists_lays {tracker : Tracker} {blanks : Nat} {lines : List Line} {text : Text}
    (h : Formats options ⟨[]⟩ newline tracker blanks lines text) :
    ∃ out, Lays options newline tracker blanks lines out := by
  induction h with
  | blankEnd hblank hnone hfinish => exact ⟨_, .blankEnd hblank hnone hfinish⟩
  | codeEnd hblank hnone hdepth hfinish => exact ⟨_, .codeEnd hblank hnone hdepth hfinish⟩
  | keep hblank hsome hlt _ ih => exact ih.imp' _ fun _ => .keep hblank hsome hlt
  | drop hblank hsome hle _ ih => exact ih.imp' _ fun _ => .drop hblank hsome hle
  | code hblank hsome hdepth _ ih => exact ih.imp' _ fun _ => .code hblank hsome hdepth

theorem lays_of_formatLines {tracker : Tracker} {blanks : Nat} {lines : List Line} {text : Text}
    (h : formatLines options ⟨[]⟩ newline tracker blanks lines = .ok text)
    (hruled : BareLine.Ruled (lines.map Line.bare)) (hlines : ∀ line ∈ lines, line.bare.WellRead) :
    ∃ out, Lays options newline tracker blanks lines out ∧
      Lexeme.sourceText (BareLine.flatten out) = text := by
  obtain ⟨out, hlays⟩ := exists_lays (formats_of_formatLines h hruled)
  have htext := formatLines_of_lays hlays hlines
  exact ⟨out, hlays, Except.ok.inj (htext.symm.trans h)⟩

end Formatting

end Layout
end VbaWorkbench
