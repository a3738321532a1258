import VbaWorkbench.Proofs.Layout.Laying
import VbaWorkbench.Proofs.Line.Tokens

namespace VbaWorkbench

/-- Whitespace and continuations only lay code out. -/
def Lexeme.isCode (l : Lexeme) : Bool :=
  l.kind != .whitespace && l.kind != .lineContinuation

theorem Lexeme.isCode_eq_false {l : Lexeme} :
    l.isCode = false ↔ l.kind = .whitespace ∨ l.kind = .lineContinuation := by
  cases hk : l.kind <;> simp [isCode, hk]

/-- The lexemes that make up the code. -/
def code (ls : List Lexeme) : List Lexeme :=
  ls.filter Lexeme.isCode

@[simp] theorem code_nil : code [] = [] :=
  rfl

@[simp] theorem code_append (ls ms : List Lexeme) : code (ls ++ ms) = code ls ++ code ms :=
  List.filter_append ..

theorem code_cons_of_isCode {l : Lexeme} (h : l.isCode = true) (ls : List Lexeme) :
    code (l :: ls) = l :: code ls :=
  List.filter_cons_of_pos h

theorem code_cons_of_not {l : Lexeme} (h : l.isCode = false) (ls : List Lexeme) :
    code (l :: ls) = code ls :=
  List.filter_cons_of_neg (by simp [h])

theorem code_eq_nil_iff {ls : List Lexeme} :
    code ls = [] ↔ ∀ l ∈ ls, l.kind = .whitespace ∨ l.kind = .lineContinuation := by
  simp only [code, List.filter_eq_nil_iff, Bool.not_eq_true, Lexeme.isCode_eq_false]

theorem code_eq_nil_of_blank {ls : List Lexeme} (h : ∀ l ∈ ls, l.kind = .whitespace) :
    code ls = [] :=
  code_eq_nil_iff.mpr fun l hl => .inl (h l hl)

namespace Layout

theorem code_core (ls : List Lexeme) : code (coreLexemes ls) = code ls := by
  obtain ⟨before, after, hls, hbefore, hafter⟩ := exists_core ls
  conv => rhs; rw [hls]
  rw [code_append, code_append, code_eq_nil_of_blank hbefore, code_eq_nil_of_blank hafter,
    List.nil_append, List.append_nil]

theorem code_cores_whole {ls : List Lexeme} (h : ∀ l ∈ ls, l.kind ≠ .lineContinuation) :
    code (cores ls).flatten = code ls := by
  rw [cores_whole h, ← code_core ls]
  split
  · rename_i hnil
    rw [hnil]
    rfl
  · simp

/-- The pieces have all the code of their line. -/
theorem code_cores (ls : List Lexeme) : code (cores ls).flatten = code ls := by
  rcases cut_cases ls with hlc | ⟨seg, lc, more, rfl, hlc, hseg⟩
  · exact code_cores_whole hlc
  · have hshort : more.length < (seg ++ lc :: more).length := by
      simp only [List.length_append, List.length_cons]
      omega
    rw [cores_append hlc, List.flatten_append, code_append, code_cores_whole hseg, code_cores more,
      code_append, code_cons_of_not (Lexeme.isCode_eq_false.mpr (.inr hlc))]
termination_by ls.length

/-- A line without code has no pieces. -/
theorem cores_eq_nil_iff {ls : List Lexeme} : cores ls = [] ↔ code ls = [] := by
  refine ⟨fun h => ?_, fun h => ?_⟩
  · rw [← code_cores, h]
    rfl
  · refine List.filter_eq_nil_iff.mpr fun p hp => ?_
    obtain ⟨segment, hsegment, rfl⟩ := List.mem_map.mp hp
    have hblank : ∀ l ∈ segment, l.kind = .whitespace := by
      intro l hl
      obtain ⟨hmem, hk⟩ := mem_of_mem_splitOnP hsegment hl
      exact (code_eq_nil_iff.mp h l hmem).resolve_right (by simpa using hk)
    simp [coreLexemes_blank hblank]

theorem code_blankLexemes (t : Text) : code (blankLexemes t) = [] :=
  code_eq_nil_of_blank (blankLexemes_blank t)

theorem code_indentLexemes (indent : Text) (p : List Lexeme) :
    code (indentLexemes indent p) = [] := by
  unfold indentLexemes
  split
  · rfl
  · exact code_blankLexemes indent

theorem code_continuation (hanging newline : Text) (p : List Lexeme) :
    code (continuation hanging newline p) = [] := by
  rw [continuation, code_append, code_indentLexemes]
  rfl

theorem code_spaced {gap : List Lexeme → List Lexeme} (h : ∀ q, code (gap q) = [])
    (p : List Lexeme) (ps : List (List Lexeme)) :
    code (spaced gap p ps) = code (p :: ps).flatten := by
  rw [spaced, code_append, List.flatten_cons, code_append]
  congr 1
  induction ps with
  | nil => rfl
  | cons q ps ih =>
    rw [List.flatMap_cons, code_append, code_append, ih, h q, List.flatten_cons, code_append,
      List.nil_append]

/-- Laying a line out adds no code to its pieces. -/
theorem code_laid (options : LayoutOptions) (newline : Text) (depth : Nat)
    (ps : List (List Lexeme)) : code (laid options newline depth ps) = code ps.flatten := by
  cases ps with
  | nil => rfl
  | cons p ps =>
    simp only [laid]
    split
    · rw [code_append, code_blankLexemes, code_spaced fun _ => rfl, List.nil_append]
    · rw [code_append, code_indentLexemes, code_spaced (code_continuation _ _), List.nil_append]

theorem code_map_trim (ls : List Lexeme) :
    code (ls.map Lexeme.trim) = (code ls).map Lexeme.trim := by
  have hcode : Lexeme.isCode ∘ Lexeme.trim = Lexeme.isCode := by
    funext l
    simp only [Function.comp_apply, Lexeme.isCode, kind_trim]
  rw [code, List.filter_map, hcode]
  rfl

theorem isCode_recase (style : KeywordStyle) (member : Bool) (l : Lexeme) :
    (recase style member l).isCode = l.isCode := by
  unfold recase
  split <;> rfl

/-- Whitespace and continuations do not matter to how the code is spelled. -/
theorem code_recaseAll (style : KeywordStyle) (member : Bool) (ls : List Lexeme) :
    code (recaseAll style member ls) = recaseAll style member (code ls) := by
  induction ls generalizing member with
  | nil => rfl
  | cons l ls ih =>
    rw [recaseAll]
    cases hl : l.isCode with
    | true =>
      rw [code_cons_of_isCode (by rw [isCode_recase, hl]), code_cons_of_isCode hl, ih, recaseAll]
    | false =>
      have hmember : memberAfter member l = member := by
        rw [memberAfter, if_pos (Lexeme.isCode_eq_false.mp hl)]
      rw [code_cons_of_not (by rw [isCode_recase, hl]), code_cons_of_not hl, ih, hmember]

/-- The code of a line that is laid out. -/
theorem code_laidLexemes (options : LayoutOptions) (newline : Text) (depth : Nat) (line : Line) :
    code (laidLexemes options newline depth line) =
      (recaseAll options.keywordStyle false (code line.bare.lexemes)).map Lexeme.trim := by
  have hflatten : ((cores (recaseAll options.keywordStyle false line.bare.lexemes)).map
      trimmed).flatten =
        (cores (recaseAll options.keywordStyle false line.bare.lexemes)).flatten.map
          Lexeme.trim :=
    List.map_flatten.symm
  rw [laidLexemes, code_laid, newPieces, hflatten, code_map_trim, code_cores, code_recaseAll]

end Layout
end VbaWorkbench
