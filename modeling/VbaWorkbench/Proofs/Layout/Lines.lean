import VbaWorkbench.Proofs.Layout.Reading
import VbaWorkbench.Proofs.Layout.Spelling

namespace VbaWorkbench.Layout

theorem splitOnP_map {α β : Type} (f : α → β) (p : β → Bool) (xs : List α) :
    (xs.map f).splitOnP p = (xs.splitOnP fun x => p (f x)).map (·.map f) := by
  induction xs with
  | nil => rfl
  | cons x xs ih =>
    rw [List.map_cons, List.splitOnP_cons_eq_if_modifyHead, List.splitOnP_cons_eq_if_modifyHead, ih]
    split
    · rfl
    · cases xs.splitOnP fun x => p (f x) <;> rfl

section Texts

variable {state : ScanState} {u : Text}

/-- Only the last lexeme of a line can be a comment. -/
theorem no_comment_before {init : List Lexeme} {l : Lexeme} (h : Reads state u (init ++ [l]))
    (hnl : ∀ m ∈ init ++ [l], m.kind ≠ .newline) : ∀ m ∈ init, m.kind ≠ .comment := by
  induction init generalizing state with
  | nil => simp
  | cons m init ih =>
    intro n hn
    rcases List.mem_cons.mp hn with rfl | hn
    · obtain ⟨hfirst, hrest⟩ := h
      cases hms : init ++ [l] with
      | nil => simp at hms
      | cons m' ms =>
        rw [List.append_eq, hms] at hfirst hrest
        obtain ⟨c, cs, -, htext, -, hbreak, -⟩ := trim_begins hrest.1
        rw [Lexeme.sourceText_cons, htext, List.append_assoc, List.cons_append] at hfirst
        refine kind_ne_comment_of_inside hfirst (hbreak (hnl m' ?_))
        rw [List.cons_append, hms]
        simp
    · exact ih h.2 (fun m hm => hnl m (List.mem_cons_of_mem _ hm)) n hn

theorem map_trim_of_ne {ls : List Lexeme} (h : ∀ l ∈ ls, l.kind ≠ .comment) :
    ls.map Lexeme.trim = ls := by
  induction ls with
  | nil => rfl
  | cons l ls ih =>
    rw [List.map_cons, Lexeme.trim_of_ne (h l (by simp)),
      ih fun m hm => h m (List.mem_cons_of_mem _ hm)]

theorem trimRight_append_left {p : Char → Bool} {s t : Text} (h : Text.trimRight p t ≠ []) :
    Text.trimRight p (s ++ t) = s ++ Text.trimRight p t := by
  have hne : (t.reverse.dropWhile p).isEmpty = false := by
    cases hd : t.reverse.dropWhile p with
    | nil => exact absurd (by rw [Text.trimRight, hd]; rfl) h
    | cons c r => rfl
  rw [Text.trimRight, List.reverse_append, List.dropWhile_append, hne]
  simp [Text.trimRight]

/-- The text of a segment without blanks at its edges. -/
def pieceText (segment : List Lexeme) : Text :=
  let ls := coreLexemes segment
  if ls.getLast?.any (·.kind == .comment) then Text.trimRight Text.isBlank (Lexeme.sourceText ls)
  else Lexeme.sourceText ls

theorem piece_eq (segment : List Token) :
    piece segment = pieceText (segment.map (·.toLexeme)) := by
  have hblank : (fun t : Token => t.kind == TokenKind.whitespace) =
      isBlankLexeme ∘ fun t : Token => t.toLexeme := rfl
  have hcore : (core segment).map (·.toLexeme) =
      coreLexemes (segment.map (·.toLexeme)) := by
    simp only [core, coreLexemes, hblank, List.dropWhile_map, ← List.map_reverse]
  have htext : Token.sourceText (core segment) =
      Lexeme.sourceText (coreLexemes (segment.map (·.toLexeme))) := by
    rw [← hcore, Lexeme.sourceText, List.flatMap_map]
    rfl
  have hlast : (core segment).getLast?.any (·.kind == .comment) =
      (coreLexemes (segment.map (·.toLexeme))).getLast?.any (·.kind == .comment) := by
    rw [← hcore, List.getLast?_map, Option.any_map]
  simp only [piece, pieceText, htext, hlast]

theorem pieceText_eq {segment : List Lexeme} (hsolid : Solid (coreLexemes segment))
    (h : Reads state u (coreLexemes segment)) :
    pieceText segment = Lexeme.sourceText (trimmed (coreLexemes segment)) := by
  rcases List.eq_nil_or_concat (coreLexemes segment) with hnil | ⟨init, l, hls⟩
  · exact absurd hnil hsolid.ne_nil
  · rw [List.concat_eq_append] at hls
    simp only [pieceText]
    rw [hls] at h ⊢
    have hinner := hsolid.inner
    rw [hls] at hinner
    have hinit := no_comment_before h fun m hm => (hinner m hm).1
    rw [trimmed, List.map_append, map_trim_of_ne hinit, Lexeme.sourceText_append,
      Lexeme.sourceText_append]
    obtain ⟨c, cs, cs', -, htrim, -, -⟩ := trim_begins (reads_append.mp h).2.1
    by_cases hk : l.kind = .comment
    · have hne : Text.trimRight Text.isBlank (Lexeme.sourceText [l]) ≠ [] := by
        rw [Lexeme.trim, if_pos hk] at htrim
        rw [Lexeme.sourceText_cons, Lexeme.sourceText_nil, List.append_nil, show
          Text.trimRight Text.isBlank l.text = c :: cs' from htrim]
        simp
      rw [if_pos (by simp [hk]), trimRight_append_left hne]
      simp [Lexeme.trim, hk]
    · rw [if_neg (by simp [hk])]
      simp [Lexeme.trim_of_ne hk]

theorem Chain.forall {start : Bool} {ps : List (List Lexeme)} (h : Chain start ps) :
    ∀ p ∈ ps, Solid p ∧ ∃ state u, Reads state u p := by
  induction h with
  | nil => simp
  | cons hp hread _ _ ih =>
    intro q hq
    rcases List.mem_cons.mp hq with rfl | hq
    · exact ⟨hp, _, _, hread⟩
    · exact ih q hq

end Texts

/-- The pieces of a line in their new spelling. -/
def newPieces (style : KeywordStyle) (ls : List Lexeme) : List (List Lexeme) :=
  (cores (recaseAll style false ls)).map trimmed

/-- The pieces of a line are told by its lexemes in their new spelling. -/
theorem pieces_respelled (options : LayoutOptions) (plan : RenamePlan) (line : Line) :
    pieces options plan line =
      ((cut ((respellAll options plan false line.tokens).map (·.toLexeme))).map pieceText).filter
        (!·.isEmpty) := by
  have hpiece : pieceText ∘ List.map (fun t : Token => t.toLexeme) = piece := by
    funext segment
    exact (piece_eq segment).symm
  rw [cut, splitOnP_map, List.map_map, hpiece]
  rfl

theorem pieces_cut (options : LayoutOptions) (line : Line) :
    pieces options ⟨[]⟩ line =
      ((cut (recaseAll options.keywordStyle false line.bare.lexemes)).map pieceText).filter
        (!·.isEmpty) := by
  rw [pieces_respelled, toLexeme_respellAll]
  rfl

/-- What the pieces of a line say. -/
theorem pieces_eq {options : LayoutOptions} {line : Line} {start : Bool}
    (h : Chain start (cores (recaseAll options.keywordStyle false line.bare.lexemes))) :
    pieces options ⟨[]⟩ line =
      (newPieces options.keywordStyle line.bare.lexemes).map Lexeme.sourceText := by
  have hforall := h.forall
  rw [pieces_cut, newPieces, cores, List.map_map]
  rw [cores] at hforall
  generalize cut (recaseAll options.keywordStyle false line.bare.lexemes) = segments at hforall ⊢
  induction segments with
  | nil => rfl
  | cons segment segments ih =>
    by_cases hc : coreLexemes segment = []
    · have htext : pieceText segment = [] := by simp [pieceText, hc]
      simp only [List.map_cons, hc, htext, List.filter_cons, List.isEmpty_nil, Bool.not_true,
        Bool.false_eq_true, if_false] at hforall ⊢
      exact ih hforall
    · obtain ⟨hsolid, state, u, hread⟩ := hforall (coreLexemes segment) (by simp [hc])
      obtain ⟨c, cs, htext, -⟩ := hsolid.beginsCode hread []
      rw [List.append_nil] at htext
      have hpiece := pieceText_eq hsolid hread
      simp only [List.map_cons, List.filter_cons, hpiece, htext, List.isEmpty_cons, Bool.not_false,
        if_true, List.isEmpty_eq_false_iff.mpr hc, Function.comp_apply]
      rw [ih fun p hp => hforall p (by simp [hc, hp])]

end VbaWorkbench.Layout
