import VbaWorkbench.Proofs.Layout.Code

namespace VbaWorkbench

namespace Layout

section Lower

theorem coreLexemes_map {f : Lexeme → Lexeme} (hf : ∀ l, (f l).kind = l.kind) (ls : List Lexeme) :
    coreLexemes (ls.map f) = (coreLexemes ls).map f := by
  have hblank : isBlankLexeme ∘ f = isBlankLexeme := by
    funext l
    simp only [Function.comp_apply, isBlankLexeme, hf l]
  simp only [coreLexemes, List.dropWhile_map, ← List.map_reverse, hblank]

/-- Where a line is cut depends on the kinds of its lexemes alone. -/
theorem cut_map {f : Lexeme → Lexeme} (hf : ∀ l, (f l).kind = l.kind) (ls : List Lexeme) :
    cut (ls.map f) = (cut ls).map (List.map f) := by
  have hkind : (fun l => (f l).kind == TokenKind.lineContinuation) =
      fun l : Lexeme => l.kind == TokenKind.lineContinuation := by
    funext l
    rw [hf l]
  rw [cut, splitOnP_map, hkind, cut]

theorem cores_map {f : Lexeme → Lexeme} (hf : ∀ l, (f l).kind = l.kind) (ls : List Lexeme) :
    cores (ls.map f) = (cores ls).map (List.map f) := by
  have hmap : coreLexemes ∘ List.map f = List.map f ∘ coreLexemes := by
    funext ls
    exact coreLexemes_map hf ls
  have hempty : (fun p : List Lexeme => !p.isEmpty) ∘ List.map f = fun p => !p.isEmpty := by
    funext p
    simp
  rw [cores, cut_map hf, List.map_map, hmap, ← List.map_map, List.filter_map, hempty]
  rfl

theorem lower_underscore {l : Lexeme} (h : l.lower = ⟨.punctuation, ['_']⟩) :
    l = ⟨.punctuation, ['_']⟩ := by
  obtain ⟨kind, text⟩ := l
  obtain rfl : kind = .punctuation := congrArg Lexeme.kind h
  have ht : text.map Char.toLower = ['_'] := congrArg Lexeme.text h
  obtain ⟨c, rfl⟩ := List.length_eq_one_iff.mp (by simpa using congrArg List.length ht)
  have hc : c.toLower = '_' := by simpa using ht
  rw [(Text.toLower_eq_iff (by decide) c).mp hc]

theorem nextAll_of_kinds {state : ScanState} {ls ls' : List Lexeme}
    (h : ls'.map (·.kind) = ls.map (·.kind)) : state.nextAll ls' = state.nextAll ls := by
  have hfold : ∀ ms : List Lexeme,
      state.nextAll ms = (ms.map (·.kind)).foldl ScanState.next state :=
    fun ms => List.foldl_map.symm
  rw [hfold, hfold, h]

/-- Whether a piece ends loosely does not depend on the case of letters. -/
theorem loose_of_lower_eq {state : ScanState} {p p' : List Lexeme}
    (h : p'.map Lexeme.lower = p.map Lexeme.lower) (hp : Loose state p') : Loose state p := by
  obtain ⟨init, rfl, hb⟩ := hp
  rw [List.map_append] at h
  obtain ⟨init', last, rfl, hinit, hlast⟩ := List.append_eq_map_iff.mp h
  obtain ⟨l, rfl⟩ := List.length_eq_one_iff.mp (by simpa using congrArg List.length hlast)
  have hl : l.lower = ⟨.punctuation, ['_']⟩ := by simpa [Lexeme.lower] using hlast
  refine ⟨init', by rw [lower_underscore hl], ?_⟩
  have hkinds : init'.map (·.kind) = init.map (·.kind) := by
    have hk := congrArg (List.map (·.kind)) hinit
    rw [List.map_map, List.map_map] at hk
    exact hk
  rw [nextAll_of_kinds hkinds, hb]

end Lower

end Layout

/-- The line ends with an underscore that only blanks behind it keep from continuing the line. -/
def BareLine.Dangling (line : BareLine) : Prop :=
  line.newline.isSome = true ∧
    ∃ p, (Layout.cores line.lexemes).getLast? = some p ∧ Loose .initial p

instance (line : BareLine) : Decidable line.Dangling :=
  decidable_of_iff
    (line.newline.isSome = true ∧
      (Layout.cores line.lexemes).getLast?.any (fun p => decide (Loose .initial p)) = true)
    (and_congr_right fun _ => by rw [Option.any_eq_true]; simp)

namespace Layout

theorem lastCore_lower (style : KeywordStyle) (ls : List Lexeme) :
    (cores (recaseAll style false ls)).getLast?.map (List.map Lexeme.lower) =
      (cores ls).getLast?.map (List.map Lexeme.lower) := by
  have hcores := congrArg cores (lower_recaseAll style false ls)
  rw [cores_map (f := Lexeme.lower) fun _ => rfl, cores_map (f := Lexeme.lower) fun _ => rfl]
    at hcores
  rw [← List.getLast?_map, ← List.getLast?_map, hcores]

/-- A dangling underscore dangles in every spelling. -/
theorem exists_loose_of_dangling {line : BareLine} (h : line.Dangling) (style : KeywordStyle) :
    ∃ p, (cores (recaseAll style false line.lexemes)).getLast? = some p ∧ Loose .initial p := by
  obtain ⟨-, q, hq, hloose⟩ := h
  have hlast := lastCore_lower style line.lexemes
  rw [hq] at hlast
  obtain ⟨p, hp, hqp⟩ := Option.map_eq_some_iff.mp hlast
  exact ⟨p, hp, loose_of_lower_eq hqp.symm hloose⟩

/-- The pieces of a line fit anywhere unless its underscore dangles. -/
theorem fits_of_not_dangling {line : BareLine} {z : Text} {style : KeywordStyle}
    (h : ¬line.Dangling) (hz : line.newline = none → z = []) :
    Fits z (cores (recaseAll style false line.lexemes)) := by
  cases hn : line.newline with
  | none =>
    left
    rw [hz hn]
    rfl
  | some nl =>
    right
    intro p hp hloose
    have hlast := lastCore_lower style line.lexemes
    rw [Option.mem_def.mp hp] at hlast
    obtain ⟨q, hq, hqp⟩ := Option.map_eq_some_iff.mp hlast.symm
    exact h ⟨by rw [hn]; rfl, q, hq, loose_of_lower_eq hqp.symm hloose⟩

section Out

variable {options : LayoutOptions} {newline : Text}

theorem laidLexemes_no_newline {line : Line} (h : line.bare.WellRead) (depth : Nat) :
    ∀ l ∈ laidLexemes options newline depth line, l.kind ≠ .newline := by
  intro l hl hk
  have hcode : l ∈ code (laidLexemes options newline depth line) :=
    List.mem_filter.mpr ⟨hl, by simp [Lexeme.isCode, hk]⟩
  rw [laidLexemes, code_laid] at hcode
  obtain ⟨p, hp, hlp⟩ := List.mem_flatten.mp (List.mem_filter.mp hcode).1
  obtain ⟨q, hq, rfl⟩ := List.mem_map.mp hp
  obtain ⟨m, hm, rfl⟩ := List.mem_map.mp hlp
  rw [kind_trim] at hk
  exact (((chain_of_wellRead h _).forall q hq).1.inner m hm).1 hk

/-- The lines that are laid out are lines. -/
theorem ruled_out {tracker : Tracker} {blanks : Nat} {lines : List Line} {out : List BareLine}
    (h : Lays options newline tracker blanks lines out)
    (hlines : ∀ line ∈ lines, line.bare.WellRead) : BareLine.Ruled out := by
  induction h with
  | blankEnd => exact .last [] (by simp)
  | codeEnd => exact .last _ (laidLexemes_no_newline (hlines _ List.mem_cons_self) _)
  | keep _ _ _ _ ih =>
    obtain ⟨-, hlines⟩ := List.forall_mem_cons.mp hlines
    exact .line [] _ _ (by simp) rfl (ih hlines)
  | drop _ _ _ _ ih => exact ih (List.forall_mem_cons.mp hlines).2
  | code _ _ _ _ ih =>
    obtain ⟨hline, hlines⟩ := List.forall_mem_cons.mp hlines
    exact .line _ _ _ (laidLexemes_no_newline hline _) rfl (ih hlines)

/-- What was read and is no line break does not begin with one. -/
theorem begins_of_reads {state : ScanState} {z : Text} {ls : List Lexeme} (h : Reads state z ls)
    (hne : ls ≠ []) (hnl : ∀ l ∈ ls, l.kind ≠ .newline) :
    ∃ c cs, Lexeme.sourceText ls = c :: cs ∧ Text.isLineBreak c = false := by
  cases ls with
  | nil => exact absurd rfl hne
  | cons l ls =>
    obtain ⟨c, cs, -, htext, -, hbreak, -⟩ := trim_begins h.1
    refine ⟨c, cs ++ Lexeme.sourceText ls, ?_, hbreak (hnl l (by simp))⟩
    rw [Lexeme.sourceText_cons, htext, List.cons_append]

theorem readsIn_newlineLexeme {state : ScanState} {u : Text} (hnewline : newline.IsBreak)
    (hu : Reach.lineBreak (newline ++ u) = newline.length) :
    (newlineLexeme newline).ReadsIn state u := by
  have hbegins := hnewline.endsLine []
  cases newline with
  | nil => exact absurd rfl hnewline.ne_nil
  | cons c cs => exact readsIn_newline hbegins hu

theorem scan_newline (hnewline : newline.IsBreak) {t : Text}
    (ht : Reach.lineBreak (newline ++ t) = newline.length) (state : ScanState) :
    scanFrom state (newline ++ t) = newlineLexeme newline :: scanFrom .initial t := by
  have hread : (newlineLexeme newline).ReadsIn state t := readsIn_newlineLexeme hnewline ht
  exact scanFrom_of_readsIn hread

section Lines

variable (hunit : ∀ c ∈ options.indentUnit, Text.isBlank c = true) (hnewline : newline.IsBreak)
include hunit hnewline

/-- A line that is laid out is read up to its end. -/
theorem reads_laidLexemes {line : Line} {z : Text} (h : line.bare.WellRead)
    (hloose : ¬line.bare.Dangling) (hz : z.EndsLine) (hlast : line.newline = none → z = [])
    (depth : Nat) : Reads .initial z (laidLexemes options newline depth line) := by
  refine reads_laid hunit hnewline hz (chain_of_wellRead h _) (fits_of_not_dangling hloose ?_) depth
  intro hnone
  exact hlast (Option.map_eq_none_iff.mp hnone)

/-- No line feed comes where the text of a line begins. -/
theorem follows_laidLexemes {line : Line} {t : Text} (h : line.bare.WellRead)
    (ht : Reach.lineBreak (newline ++ t) = newline.length) (depth : Nat) :
    Reach.lineBreak (newline ++ (Lexeme.sourceText (laidLexemes options newline depth line) ++ t)) =
      newline.length := by
  have hreads : Reads .initial [] (laidLexemes options newline depth line) :=
    reads_laid hunit hnewline (show Text.EndsLine [] from rfl) (chain_of_wellRead h _) (.inl rfl)
      depth
  have hnl := @laidLexemes_no_newline options newline line h depth
  by_cases hne : laidLexemes options newline depth line = []
  · rw [hne]
    exact ht
  · obtain ⟨c, cs, htext, hc⟩ := begins_of_reads hreads hne hnl
    refine hnewline.lineBreak ?_
    rw [htext]
    intro he
    rw [show c = '\n' from Option.some.inj he] at hc
    cases hc

/-- No line feed comes where the lines begin. -/
theorem follows_out {tracker : Tracker} {blanks : Nat} {lines : List Line} {out : List BareLine}
    (h : Lays options newline tracker blanks lines out)
    (hlines : ∀ line ∈ lines, line.bare.WellRead) :
    Reach.lineBreak (newline ++ Lexeme.sourceText (BareLine.flatten out)) = newline.length := by
  induction h with
  | blankEnd =>
    rw [sourceText_end]
    exact hnewline.lineBreak (by simp)
  | codeEnd =>
    have hfollows := follows_laidLexemes hunit hnewline (hlines _ List.mem_cons_self) (t := [])
      (hnewline.lineBreak (by simp))
    rw [sourceText_end]
    simpa using hfollows _
  | keep _ _ _ _ ih =>
    rw [sourceText_ended]
    exact hnewline.lineBreak_twice _
  | drop _ _ _ _ ih => exact ih (List.forall_mem_cons.mp hlines).2
  | code _ _ _ _ ih =>
    obtain ⟨hline, -⟩ := List.forall_mem_cons.mp hlines
    rw [sourceText_ended, List.append_assoc]
    exact follows_laidLexemes hunit hnewline hline (hnewline.lineBreak_twice _) _

/-- The lines that are laid out are read as they are. -/
theorem reads_out {tracker : Tracker} {blanks : Nat} {lines : List Line} {out : List BareLine}
    (h : Lays options newline tracker blanks lines out)
    (hlines : ∀ line ∈ lines, line.bare.WellRead)
    (hloose : ∀ line ∈ lines, ¬line.bare.Dangling) :
    Reads .initial [] (BareLine.flatten out) := by
  induction h with
  | blankEnd => trivial
  | codeEnd =>
    obtain ⟨hline, -⟩ := List.forall_mem_cons.mp hlines
    obtain ⟨hloose, -⟩ := List.forall_mem_cons.mp hloose
    have hreads := reads_laidLexemes hunit hnewline hline hloose
      (show Text.EndsLine [] from rfl) (fun _ => rfl)
    simpa [BareLine.all] using hreads _
  | keep _ _ _ hrest ih =>
    obtain ⟨-, hlines⟩ := List.forall_mem_cons.mp hlines
    obtain ⟨-, hloose⟩ := List.forall_mem_cons.mp hloose
    rw [BareLine.flatten_ended]
    refine ⟨?_, ih hlines hloose⟩
    rw [List.append_nil]
    exact readsIn_newlineLexeme hnewline (follows_out hunit hnewline hrest hlines)
  | drop _ _ _ _ ih =>
    exact ih (List.forall_mem_cons.mp hlines).2 (List.forall_mem_cons.mp hloose).2
  | @code _ _ _ depth line lines out _ hsome _ hrest ih =>
    obtain ⟨hline, hlines⟩ := List.forall_mem_cons.mp hlines
    obtain ⟨hlineLoose, hloose⟩ := List.forall_mem_cons.mp hloose
    have hout := ih hlines hloose
    rw [BareLine.flatten_ended]
    refine reads_append.mpr ⟨?_, ?_, hout⟩
    · refine reads_laidLexemes hunit hnewline hline hlineLoose ?_ ?_ depth
      · have hends := hnewline.endsLine (Lexeme.sourceText (BareLine.flatten out))
        simpa [newlineLexeme] using hends
      · intro hnone
        rw [hnone] at hsome
        cases hsome
    · rw [List.append_nil]
      exact readsIn_newlineLexeme hnewline (follows_out hunit hnewline hrest hlines)

theorem scan_out {tracker : Tracker} {blanks : Nat} {lines : List Line} {out : List BareLine}
    (h : Lays options newline tracker blanks lines out)
    (hlines : ∀ line ∈ lines, line.bare.WellRead)
    (hloose : ∀ line ∈ lines, ¬line.bare.Dangling) :
    scanFrom .initial (Lexeme.sourceText (BareLine.flatten out)) = BareLine.flatten out := by
  have hscan := scanFrom_of_reads (reads_out hunit hnewline h hlines hloose)
  rwa [List.append_nil, scanFrom_nil, List.append_nil] at hscan

/-- The output has the lines that were laid out. -/
theorem lines_out {tracker : Tracker} {blanks : Nat} {lines : List Line} {out : List BareLine}
    (h : Lays options newline tracker blanks lines out)
    (hlines : ∀ line ∈ lines, line.bare.WellRead)
    (hloose : ∀ line ∈ lines, ¬line.bare.Dangling) :
    (Line.ofTokens (tokenize (Lexeme.sourceText (BareLine.flatten out)))).map Line.bare = out :=
  tokenize_lines (ruled_out h hlines) (scan_out hunit hnewline h hlines hloose)

end Lines

end Out

end Layout
end VbaWorkbench
