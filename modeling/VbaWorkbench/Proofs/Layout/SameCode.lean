import Mathlib.Data.List.Forall2
import VbaWorkbench.Proofs.Layout.Rereading

namespace VbaWorkbench

/-- The same word of code, but for the case of a keyword and the blanks at the end of a comment. -/
def SameWord (l l' : Lexeme) : Prop :=
  l'.kind = l.kind ∧
    match l.kind with
    | .keyword => Text.sameAscii l.text l'.text = true
    | .comment => ∃ blanks, l.text = l'.text ++ blanks ∧ ∀ c ∈ blanks, Text.isBlank c = true
    | _ => l'.text = l.text

/-- The code of the lines that have any. -/
def BareLine.codeLines (lines : List BareLine) : List (List Lexeme) :=
  (lines.map fun line => code line.lexemes).filter (!·.isEmpty)

/-- The code of the logical lines of a source, but for those that have none. -/
def codeLines (source : Text) : List (List Lexeme) :=
  BareLine.codeLines ((Line.ofTokens (tokenize source)).map Line.bare)

/-- The sources have the same code on the same logical lines. -/
def SameCode (source source' : Text) : Prop :=
  List.Forall₂ (List.Forall₂ SameWord) (codeLines source) (codeLines source')

namespace Layout

theorem sameWord_new (style : KeywordStyle) (member : Bool) (l : Lexeme) :
    SameWord l (recase style member l).trim := by
  obtain ⟨kind, text⟩ := l
  cases kind with
  | keyword =>
    cases member with
    | true => exact ⟨rfl, beq_self_eq_true _⟩
    | false => exact ⟨rfl, by simp [recase, Lexeme.trim, Text.sameAscii]⟩
  | comment => exact ⟨rfl, Text.trimRight_append Text.isBlank text⟩
  | _ => exact ⟨rfl, rfl⟩

/-- The code of a line that is laid out is its code before. -/
theorem sameWords_new (style : KeywordStyle) (member : Bool) (ls : List Lexeme) :
    List.Forall₂ SameWord ls ((recaseAll style member ls).map Lexeme.trim) := by
  induction ls generalizing member with
  | nil => exact .nil
  | cons l ls ih => exact .cons (sameWord_new style member l) (ih _)

theorem codeLines_cons (line : BareLine) (lines : List BareLine) :
    BareLine.codeLines (line :: lines) =
      if code line.lexemes = [] then BareLine.codeLines lines
      else code line.lexemes :: BareLine.codeLines lines := by
  by_cases h : code line.lexemes = [] <;> simp [BareLine.codeLines, h]

theorem codeLines_cons_of_isBlank {line : Line} (h : line.isBlank = true) (lines : List BareLine) :
    BareLine.codeLines (line.bare :: lines) = BareLine.codeLines lines := by
  have hcode : code line.bare.lexemes = [] := by
    refine code_eq_nil_of_blank fun l hl => ?_
    obtain ⟨t, ht, rfl⟩ := List.mem_map.mp hl
    exact eq_of_beq (List.all_eq_true.mp h t ht)
  rw [codeLines_cons, if_pos hcode]

theorem codeLines_cons_laid {options : LayoutOptions} {newline : Text} {depth : Nat} {line : Line}
    {lines out : List BareLine} {end? : Option Lexeme}
    (h : List.Forall₂ (List.Forall₂ SameWord) (BareLine.codeLines lines) (BareLine.codeLines out)) :
    List.Forall₂ (List.Forall₂ SameWord) (BareLine.codeLines (line.bare :: lines))
      (BareLine.codeLines (⟨laidLexemes options newline depth line, end?⟩ :: out)) := by
  have hwords := sameWords_new options.keywordStyle false (code line.bare.lexemes)
  rw [← code_laidLexemes options newline depth line] at hwords
  rw [codeLines_cons, codeLines_cons]
  by_cases hc : code line.bare.lexemes = []
  · rw [hc] at hwords
    rw [if_pos hc, if_pos (List.forall₂_nil_left_iff.mp hwords)]
    exact h
  · rw [if_neg hc, if_neg fun hn => hc (List.forall₂_nil_right_iff.mp (hn ▸ hwords))]
    exact .cons hwords h

/-- Laying out keeps the code of the lines. -/
theorem codeLines_lays {options : LayoutOptions} {newline : Text} {tracker : Tracker}
    {blanks : Nat} {lines : List Line} {out : List BareLine}
    (h : Lays options newline tracker blanks lines out) :
    List.Forall₂ (List.Forall₂ SameWord) (BareLine.codeLines (lines.map Line.bare))
      (BareLine.codeLines out) := by
  induction h with
  | blankEnd hblank =>
    rw [List.map_cons, codeLines_cons_of_isBlank hblank]
    exact .nil
  | codeEnd => exact codeLines_cons_laid .nil
  | keep hblank _ _ _ ih =>
    rw [List.map_cons, codeLines_cons_of_isBlank hblank, codeLines_cons, if_pos (by rfl)]
    exact ih
  | drop hblank _ _ _ ih =>
    rw [List.map_cons, codeLines_cons_of_isBlank hblank]
    exact ih
  | code _ _ _ _ ih => exact codeLines_cons_laid ih

/-- The code of the lines that lexemes make up; `begun` is that of the first line so far. -/
def codeRuns (begun : List Lexeme) : List Lexeme → List (List Lexeme)
  | [] => [begun].filter (!·.isEmpty)
  | l :: ls =>
    if l.kind = .newline then [begun].filter (!·.isEmpty) ++ codeRuns [] ls
    else codeRuns (begun ++ code [l]) ls

theorem codeRuns_append {begun ls : List Lexeme} (h : ∀ l ∈ ls, l.kind ≠ .newline)
    (ms : List Lexeme) : codeRuns begun (ls ++ ms) = codeRuns (begun ++ code ls) ms := by
  induction ls generalizing begun with
  | nil => rw [code_nil, List.append_nil, List.nil_append]
  | cons l ls ih =>
    rw [List.cons_append, codeRuns, if_neg (h l (by simp)),
      ih fun m hm => h m (List.mem_cons_of_mem _ hm), List.append_assoc, ← code_append]
    rfl

theorem codeRuns_newline {nl : Lexeme} (h : nl.kind = .newline) (begun ls : List Lexeme) :
    codeRuns begun (nl :: ls) = [begun].filter (!·.isEmpty) ++ codeRuns [] ls := by
  rw [codeRuns, if_pos h]

theorem codeRuns_flatten {lines : List BareLine} (h : BareLine.Ruled lines) :
    codeRuns [] (BareLine.flatten lines) = BareLine.codeLines lines := by
  induction h with
  | last ls hls =>
    rw [BareLine.flatten_end, ← List.append_nil ls, codeRuns_append hls, List.append_nil]
    rfl
  | line ls nl lines hls hnl _ ih =>
    rw [BareLine.flatten_ended, codeRuns_append hls, codeRuns_newline hnl, ih, BareLine.codeLines,
      BareLine.codeLines, List.map_cons, ← List.filter_append]
    rfl

theorem codeLines_eq (source : Text) :
    codeLines source = codeRuns [] (scanFrom .initial source) := by
  obtain ⟨hruled, hflat⟩ := ruled_ofTokens source
  rw [← hflat, codeRuns_flatten hruled]
  rfl

section Format

variable {options : LayoutOptions} {source out : Text}

theorem newlineOf_isBreak (source : Text) : (newlineOf (tokenize source)).IsBreak := by
  unfold newlineOf
  cases hf : (tokenize source).find? (·.kind == .newline) with
  | none => exact .inl rfl
  | some t =>
    have hkind : t.kind = .newline := by simpa using List.find?_some hf
    rw [tokenize] at hf
    have hmem := Token.lexeme_of_mem_place (List.mem_of_find?_eq_some hf)
    rcases List.mem_append.mp hmem with hmem | hmem
    · obtain ⟨state, next, hread⟩ := (scanFrom_reads .initial source).1.forall t.toLexeme hmem
      exact (readsIn_layout hread).2.1 hkind
    · rw [List.mem_singleton.mp hmem] at hkind
      cases hkind

/-- A layout that keeps names lays the lines of its source out. -/
theorem exists_lays_format (hstyle : options.nameStyle = .preserve)
    (h : format options source = .ok out) :
    ∃ lines, Lays options (newlineOf (tokenize source)) .empty 0 (Line.ofTokens (tokenize source))
      lines ∧ Lexeme.sourceText (BareLine.flatten lines) = out := by
  have hplan : RenamePlan.ofLines options.nameStyle (Line.ofTokens (tokenize source)) = ⟨[]⟩ := by
    rw [hstyle]
    rfl
  simp only [format, hplan] at h
  exact lays_of_formatLines h (ruled_ofTokens source).1
    fun line hline => (wellRead_ofTokens source line hline).1

end Format

end Layout
end VbaWorkbench
