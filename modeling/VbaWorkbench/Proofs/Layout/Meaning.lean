import VbaWorkbench.Proofs.Layout.Merging

namespace VbaWorkbench

theorem Line.bare_isSome (line : Line) : line.bare.newline.isSome = line.newline.isSome :=
  Option.isSome_map

namespace Layout

section Out

variable {options : LayoutOptions} {newline : Text} {tracker : Tracker} {blanks : Nat}
  {lines : List Line} {out : List BareLine}

theorem code_laidLexemes_ne_nil {line : Line} {depth : Nat} (h : line.bare.WellRead)
    (hne : laidLexemes options newline depth line ≠ []) :
    code (laidLexemes options newline depth line) ≠ [] := by
  have hchain := chain_of_wellRead h options.keywordStyle
  rw [laidLexemes, newPieces] at hne ⊢
  rw [code_laid]
  cases hcores : cores (recaseAll options.keywordStyle false line.bare.lexemes) with
  | nil =>
    rw [hcores] at hne
    exact absurd rfl hne
  | cons p ps =>
    rw [hcores] at hchain
    obtain ⟨_, _, -, hp, -⟩ := hchain.first
    obtain ⟨l, p, rfl⟩ := List.exists_cons_of_ne_nil hp.ne_nil
    have hl : l.trim.isCode = true := by
      have hk := (hp.inner l (by simp)).2
      have hw := hp.first l rfl
      simp [Lexeme.isCode, kind_trim, hk, hw]
    rw [List.map_cons, trimmed, List.map_cons, List.flatten_cons, List.cons_append,
      code_cons_of_isCode hl]
    simp

/-- Lines that do not begin with a blank one have code on the first. -/
theorem count_first (h : Lays options newline tracker blanks lines out)
    (hnewline : newline.IsBreak) (hlines : ∀ line ∈ lines, line.bare.WellRead)
    (hbegins : ¬(Lexeme.sourceText (BareLine.flatten out)).EndsLine) (b : Bool) :
    codeLineCount b (BareLine.flatten out) = codeLineCount true (BareLine.flatten out) := by
  have hcode : ∀ {line depth ms}, line.bare.WellRead → laidLexemes options newline depth line ≠ [] →
      codeLineCount b (laidLexemes options newline depth line ++ ms) =
        codeLineCount true (laidLexemes options newline depth line ++ ms) := by
    intro line depth ms hline hne
    have hnl := @laidLexemes_no_newline options newline line hline depth
    have hc := List.isEmpty_eq_false_iff.mpr (code_laidLexemes_ne_nil hline hne)
    rw [count_line hnl, count_line hnl, hc]
    simp
  induction h with
  | blankEnd => exact absurd rfl hbegins
  | @codeEnd _ _ _ depth line =>
    rw [sourceText_end] at hbegins
    have hne : laidLexemes options newline depth line ≠ [] := by
      intro hnil
      rw [hnil] at hbegins
      exact hbegins rfl
    rw [BareLine.flatten_end, ← List.append_nil (laidLexemes options newline depth line)]
    exact hcode (hlines line List.mem_cons_self) hne
  | keep =>
    rw [sourceText_ended] at hbegins
    exact absurd (hnewline.endsLine _) hbegins
  | drop _ _ _ _ ih => exact ih (List.forall_mem_cons.mp hlines).2 hbegins
  | @code _ _ _ depth line _ _ =>
    rw [sourceText_ended] at hbegins
    have hne : laidLexemes options newline depth line ≠ [] := by
      intro hnil
      rw [hnil] at hbegins
      exact hbegins (hnewline.endsLine _)
    rw [BareLine.flatten_ended]
    exact hcode (hlines line List.mem_cons_self) hne

theorem not_dangling_of_isBlank {line : Line} (h : line.isBlank = true) : ¬line.bare.Dangling := by
  rintro ⟨-, p, hp, -⟩
  have hblank : ∀ l ∈ line.bare.lexemes, l.kind = .whitespace := by
    intro l hl
    obtain ⟨t, ht, rfl⟩ := List.mem_map.mp hl
    exact eq_of_beq (List.all_eq_true.mp h t ht)
  rw [cores_whole fun l hl => by simp [hblank l hl], coreLexemes_blank hblank, if_pos rfl] at hp
  cases hp

theorem filter_begun {begun : List Lexeme} (h : begun ≠ []) :
    [begun].filter (!·.isEmpty) = [begun] :=
  List.filter_cons_of_pos (by simp [h])

theorem codeRuns_continuation (begun : List Lexeme) (text : Text) (ls : List Lexeme) :
    codeRuns begun (⟨.lineContinuation, text⟩ :: ls) = codeRuns begun ls := by
  rw [codeRuns, if_neg (by simp), code_cons_of_not rfl, code_nil, List.append_nil]

/-- The first line ends where nothing or a line break follows. -/
theorem codeRuns_endsLine {begun : List Lexeme} {t : Text} (h : begun ≠ []) (ht : t.EndsLine)
    (state : ScanState) : ∃ more, codeRuns begun (scanFrom state t) = begun :: more := by
  cases t with
  | nil =>
    rw [scanFrom_nil]
    exact ⟨[], filter_begun h⟩
  | cons d t =>
    rw [scanFrom_cons, scanStep_lineBreak ht, List.singleton_append, codeRuns_newline rfl,
      filter_begun h]
    exact ⟨_, rfl⟩

theorem exists_mem_tail {α : Type} {p : α → Prop} {x : α} {xs : List α} (h : ∃ y ∈ x :: xs, p y)
    (hx : ¬p x) : ∃ y ∈ xs, p y := by
  obtain ⟨y, hy, hp⟩ := h
  rcases List.mem_cons.mp hy with rfl | hy
  · exact absurd hp hx
  · exact ⟨y, hy, hp⟩

section Rereading

variable (hunit : ∀ c ∈ options.indentUnit, Text.isBlank c = true) (hnewline : newline.IsBreak)
include hunit hnewline

/-- No lines of code are added when the output is read. -/
theorem count_out (h : Lays options newline tracker blanks lines out)
    (hlines : ∀ line ∈ lines, line.bare.WellRead) (b : Bool) :
    codeLineCount b (scanFrom .initial (Lexeme.sourceText (BareLine.flatten out))) ≤
      codeLineCount b (BareLine.flatten out) := by
  induction h generalizing b with
  | blankEnd =>
    rw [sourceText_end, BareLine.flatten_end]
    exact Nat.le_of_eq (congrArg (codeLineCount b) (scanFrom_nil .initial))
  | @codeEnd _ _ _ depth line _ hnone =>
    have hloose : ¬line.bare.Dangling := by
      rintro ⟨hsome, -⟩
      rw [line.bare_isSome, hnone] at hsome
      cases hsome
    have hreads := reads_laidLexemes hunit hnewline (hlines line List.mem_cons_self) hloose
      (show Text.EndsLine [] from rfl) (fun _ => rfl) depth
    have hscan := scanFrom_of_reads hreads
    rw [List.append_nil, scanFrom_nil, List.append_nil] at hscan
    rw [sourceText_end, BareLine.flatten_end]
    exact Nat.le_of_eq (congrArg (codeLineCount b) hscan)
  | keep _ _ _ hrest ih =>
    obtain ⟨-, hlines⟩ := List.forall_mem_cons.mp hlines
    have hfollows := follows_out hunit hnewline hrest hlines
    rw [sourceText_ended, Lexeme.sourceText_nil, List.nil_append, scan_newline hnewline hfollows,
      BareLine.flatten_ended, List.nil_append, count_newline rfl, count_newline rfl]
    exact Nat.add_le_add_left (ih hlines false) _
  | drop _ _ _ _ ih => exact ih (List.forall_mem_cons.mp hlines).2 b
  | @code _ _ _ depth line _ out _ hsome _ hrest ih =>
    obtain ⟨hline, hlines⟩ := List.forall_mem_cons.mp hlines
    have hfollows := follows_out hunit hnewline hrest hlines
    rw [sourceText_ended, BareLine.flatten_ended]
    by_cases hd : line.bare.Dangling
    · obtain ⟨ls, state, hls, -, hblank, hscan⟩ :=
        scan_dangling hunit hnewline hline hd hfollows depth
      rw [hscan, hls, List.append_assoc]
      refine count_append fun b => ?_
      rw [count_of_not_newline (by simp), List.singleton_append, count_of_not_newline (by simp),
        count_newline rfl]
      have hfewer : FewerLines state .initial (Lexeme.sourceText (BareLine.flatten out)) :=
        fewerLines_of_later (.inr ⟨hblank, rfl⟩) _
      have hbegun := (count_begun (BareLine.flatten out)).2
      calc codeLineCount (b || false) (scanFrom state (Lexeme.sourceText (BareLine.flatten out)))
          ≤ codeLineCount true (scanFrom state (Lexeme.sourceText (BareLine.flatten out))) :=
            count_le_true _ _
        _ ≤ codeLineCount true (scanFrom .initial (Lexeme.sourceText (BareLine.flatten out))) :=
            hfewer true
        _ ≤ codeLineCount true (BareLine.flatten out) := ih hlines true
        _ ≤ (b || true).toNat + codeLineCount false (BareLine.flatten out) := by
            rw [Bool.or_true, Bool.toNat_true]
            omega
    · rw [scan_laid hunit hnewline hline hd hsome hfollows]
      refine count_append fun b => ?_
      rw [count_newline rfl, count_newline rfl]
      exact Nat.add_le_add_left (ih hlines false) _

/-- The line after a dangling underscore is lost, or the underscore is. -/
theorem not_sameCode_of_dangling_first {line : Line} (hline : line.bare.WellRead)
    (hd : line.bare.Dangling) (h : Lays options newline tracker blanks lines out)
    (hlines : ∀ line ∈ lines, line.bare.WellRead) (depth : Nat) :
    ¬List.Forall₂ (List.Forall₂ SameWord) (BareLine.codeLines ((line :: lines).map Line.bare))
      (codeRuns [] (scanFrom .initial (Lexeme.sourceText (laidLexemes options newline depth line) ++
        newline ++ Lexeme.sourceText (BareLine.flatten out)))) := by
  obtain ⟨ls, state, hls, hne, hblank, hscan⟩ :=
    scan_dangling hunit hnewline hline hd (follows_out hunit hnewline h hlines) depth
  have hnl := @laidLexemes_no_newline options newline line hline depth
  -- The underscore is one word more in the source.
  have hlonger : (code line.bare.lexemes).length = (code ls).length + 1 := by
    have hwords := sameWords_new options.keywordStyle false (code line.bare.lexemes)
    rw [← code_laidLexemes options newline depth line, hls, code_append] at hwords
    rw [hwords.length_eq, List.length_append]
    rfl
  have hcode : code line.bare.lexemes ≠ [] := by
    intro hnil
    rw [hnil] at hlonger
    cases hlonger
  rw [hls] at hnl
  rw [List.map_cons, codeLines_cons, if_neg hcode, hscan,
    codeRuns_append fun l hl => hnl l (List.mem_append_left _ hl), codeRuns_continuation,
    List.nil_append]
  intro hsame
  by_cases hends : (Lexeme.sourceText (BareLine.flatten out)).EndsLine
  · obtain ⟨more, hmore⟩ := codeRuns_endsLine hne hends state
    rw [hmore] at hsame
    cases hsame with
    | cons hfirst _ =>
      have hsize := hfirst.length_eq
      omega
  · -- The first line with code goes on into the next, so one line is missing.
    have hsize := hsame.length_eq
    have hrest := (codeLines_lays h).length_eq
    rw [← codeRuns_flatten (ruled_out h hlines), length_codeRuns] at hrest
    rw [length_codeRuns, List.isEmpty_eq_false_iff.mpr hne, Bool.not_false,
      List.length_cons] at hsize
    have hfewer : FewerLines state .initial (Lexeme.sourceText (BareLine.flatten out)) :=
      fewerLines_of_later (.inr ⟨hblank, rfl⟩) _
    have hfirst := count_first h hnewline hlines hends false
    have hout := count_out hunit hnewline h hlines true
    have hstate := hfewer true
    simp only [List.isEmpty_nil, Bool.not_true] at hrest
    omega

/-- Behind a line without a dangling underscore the code has to be the same, too. -/
theorem sameCode_behind {line : Line} (hline : line.bare.WellRead) (hd : ¬line.bare.Dangling)
    (hsome : line.newline.isSome = true) (h : Lays options newline tracker blanks lines out)
    (hlines : ∀ line ∈ lines, line.bare.WellRead) (depth : Nat)
    (hsame : List.Forall₂ (List.Forall₂ SameWord)
      (BareLine.codeLines ((line :: lines).map Line.bare))
      (codeRuns [] (scanFrom .initial (Lexeme.sourceText (laidLexemes options newline depth line) ++
        newline ++ Lexeme.sourceText (BareLine.flatten out))))) :
    List.Forall₂ (List.Forall₂ SameWord) (BareLine.codeLines (lines.map Line.bare))
      (codeRuns [] (scanFrom .initial (Lexeme.sourceText (BareLine.flatten out)))) := by
  have hwords := sameWords_new options.keywordStyle false (code line.bare.lexemes)
  rw [← code_laidLexemes options newline depth line] at hwords
  rw [List.map_cons, codeLines_cons,
    scan_laid hunit hnewline hline hd hsome (follows_out hunit hnewline h hlines),
    codeRuns_append (laidLexemes_no_newline hline depth), codeRuns_newline rfl,
    List.nil_append] at hsame
  by_cases hc : code line.bare.lexemes = []
  · rw [hc] at hwords
    rwa [if_pos hc, List.forall₂_nil_left_iff.mp hwords] at hsame
  · have hne : code (laidLexemes options newline depth line) ≠ [] := fun hn =>
      hc (List.forall₂_nil_right_iff.mp (hn ▸ hwords))
    rw [if_neg hc, filter_begun hne] at hsame
    cases hsame with
    | cons _ htail => exact htail

/-- Lines with a dangling underscore among them are not read back with the same code. -/
theorem not_sameCode_of_dangling (h : Lays options newline tracker blanks lines out)
    (hlines : ∀ line ∈ lines, line.bare.WellRead) (hd : ∃ line ∈ lines, line.bare.Dangling) :
    ¬List.Forall₂ (List.Forall₂ SameWord) (BareLine.codeLines (lines.map Line.bare))
      (codeRuns [] (scanFrom .initial (Lexeme.sourceText (BareLine.flatten out)))) := by
  induction h with
  | blankEnd hblank =>
    obtain ⟨line, hline, hd⟩ := hd
    rw [List.mem_singleton.mp hline] at hd
    exact absurd hd (not_dangling_of_isBlank hblank)
  | @codeEnd _ _ _ _ line _ hnone =>
    obtain ⟨line', hline, hsome, -⟩ := hd
    rw [List.mem_singleton.mp hline, line.bare_isSome, hnone] at hsome
    cases hsome
  | keep hblank _ _ hrest ih =>
    obtain ⟨-, hlines⟩ := List.forall_mem_cons.mp hlines
    rw [List.map_cons, codeLines_cons_of_isBlank hblank, sourceText_ended, Lexeme.sourceText_nil,
      List.nil_append, scan_newline hnewline (follows_out hunit hnewline hrest hlines),
      codeRuns_newline rfl]
    exact ih hlines (exists_mem_tail hd (not_dangling_of_isBlank hblank))
  | drop hblank _ _ _ ih =>
    rw [List.map_cons, codeLines_cons_of_isBlank hblank]
    exact ih (List.forall_mem_cons.mp hlines).2
      (exists_mem_tail hd (not_dangling_of_isBlank hblank))
  | @code _ _ _ depth line _ _ _ hsome _ hrest ih =>
    obtain ⟨hline, hlines⟩ := List.forall_mem_cons.mp hlines
    rw [sourceText_ended]
    by_cases hdangling : line.bare.Dangling
    · exact not_sameCode_of_dangling_first hunit hnewline hline hdangling hrest hlines depth
    · intro hsame
      exact ih hlines (exists_mem_tail hd hdangling)
        (sameCode_behind hunit hnewline hline hdangling hsome hrest hlines depth hsame)

end Rereading

end Out

end Layout

/-- The underscore at the end of the line dangles. -/
def Line.Dangling (line : Line) : Prop :=
  line.bare.Dangling

instance (line : Line) : Decidable line.Dangling :=
  inferInstanceAs (Decidable line.bare.Dangling)

/-- A layout that keeps names and indents by blanks says the same as its source exactly if no line
of the source ends with a dangling underscore. -/
theorem format_sameCode_iff {options : LayoutOptions} {source out : Text}
    (hstyle : options.nameStyle = .preserve)
    (hunit : ∀ c ∈ options.indentUnit, Text.isBlank c = true)
    (h : format options source = .ok out) :
    SameCode source out ↔ ∀ line ∈ Line.ofTokens (tokenize source), ¬line.Dangling := by
  obtain ⟨lines, hlays, rfl⟩ := Layout.exists_lays_format hstyle h
  have hnewline := Layout.newlineOf_isBreak source
  have hlines : ∀ line ∈ Line.ofTokens (tokenize source), line.bare.WellRead :=
    fun line hline => (wellRead_ofTokens source line hline).1
  constructor
  · intro hsame line hline hd
    rw [SameCode, Layout.codeLines_eq (Lexeme.sourceText _)] at hsame
    exact Layout.not_sameCode_of_dangling hunit hnewline hlays hlines ⟨line, hline, hd⟩ hsame
  · intro hloose
    have hcode := Layout.codeLines_lays hlays
    rw [SameCode, codeLines, codeLines, Layout.lines_out hunit hnewline hlays hlines hloose]
    exact hcode

/-- The blank behind the underscore in `x _` is trimmed, and the underscore continues the line. -/
theorem format_sameCode_iff_trimmed :
    (format .default "x _ \ny".toList = .ok "x _\ny".toList ∧
      ¬SameCode "x _ \ny".toList "x _\ny".toList) ∧
    (format .default "if a then\n x=1 ' one \nend if\n_ \ny".toList =
        .ok "if a then\n  x=1 ' one\nend if\n_\ny".toList ∧
      SameCode "if a then\n x=1 ' one \nend if\n_ \ny".toList
        "if a then\n  x=1 ' one\nend if\n_\ny".toList) := by
  have hlost : format .default "x _ \ny".toList = .ok "x _\ny".toList := by decide +kernel
  have hkept : format .default "if a then\n x=1 ' one \nend if\n_ \ny".toList =
      .ok "if a then\n  x=1 ' one\nend if\n_\ny".toList := by decide +kernel
  refine ⟨⟨hlost, fun hsame => ?_⟩, hkept, ?_⟩
  · have hnone := (format_sameCode_iff rfl (List.all_eq_true.mp rfl) hlost).mp hsame
    revert hnone
    decide +kernel
  · exact (format_sameCode_iff rfl (List.all_eq_true.mp rfl) hkept).mpr (by decide +kernel)

end VbaWorkbench
