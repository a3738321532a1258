import VbaWorkbench.Proofs.Token.Edges

namespace VbaWorkbench

@[simp] theorem ScanState.nextAll_nil (state : ScanState) : state.nextAll [] = state :=
  rfl

@[simp] theorem ScanState.nextAll_cons (state : ScanState) (l : Lexeme) (ls : List Lexeme) :
    state.nextAll (l :: ls) = (state.next l.kind).nextAll ls :=
  rfl

theorem ScanState.nextAll_append (state : ScanState) (ls ms : List Lexeme) :
    state.nextAll (ls ++ ms) = (state.nextAll ls).nextAll ms :=
  List.foldl_append

/-- Blanks before a lexeme matter only to that lexeme. -/
theorem ScanState.next_congr {state state' : ScanState}
    (h : state'.statementStart = state.statementStart) (k : TokenKind) :
    state'.next k = state.next k := by
  cases k <;> simp [next, h]

/-- A lexeme and what is left of it without the blanks at its end begin alike. -/
theorem trim_begins {state : ScanState} {l : Lexeme} {u : Text} (h : l.ReadsIn state u) :
    ∃ c cs cs', l.text = c :: cs ∧ l.trim.text = c :: cs' ∧
      (l.kind ≠ .newline → Text.isLineBreak c = false) ∧
      (l.kind ≠ .whitespace → Text.isBlank c = false) := by
  obtain ⟨c, cs, htext, -⟩ := id h
  obtain ⟨k, text⟩ := l
  obtain rfl : text = c :: cs := htext
  have hbreak : k ≠ .newline → Text.isLineBreak c = false := by
    intro hk
    cases hc : Text.isLineBreak c with
    | false => rfl
    | true => exact absurd (readsIn_lineBreak_kind hc h) hk
  have hblank : k ≠ .whitespace → Text.isBlank c = false := by
    intro hk
    cases hc : Text.isBlank c with
    | false => rfl
    | true => exact absurd ((readsIn_blank hc).mp h).1 hk
  by_cases hk : k = .comment
  · subst hk
    refine ⟨c, cs, Text.trimRight Text.isBlank cs, rfl, ?_, hbreak, hblank⟩
    rw [Lexeme.trim, if_pos rfl, Text.trimRight_cons (hblank (by simp))]
  · exact ⟨c, cs, cs, rfl, by rw [Lexeme.trim_of_ne hk], hbreak, hblank⟩

/-- A comment runs to the end of its line. -/
theorem kind_ne_comment_of_inside {state : ScanState} {l : Lexeme} {d : Char} {u : Text}
    (h : l.ReadsIn state (d :: u)) (hd : Text.isLineBreak d = false) : l.kind ≠ .comment := by
  intro hk
  have he : Text.EndsLine (d :: u) := (readsIn_trim h hk (show Text.EndsLine [] from rfl) rfl).1
  rw [Text.EndsLine, List.head?_cons, Option.all_some, hd] at he
  cases he

/-- Trimming takes nothing but blanks from the end of a line. -/
theorem sourceText_trim {state : ScanState} {u : Text} {ls : List Lexeme}
    (h : Reads state u ls) (hb : ∀ l ∈ ls, l.kind ≠ .newline) :
    ∃ rest, Lexeme.sourceText ls = Lexeme.sourceText (ls.map Lexeme.trim) ++ rest ∧
      ∀ c ∈ rest, Text.isBlank c = true := by
  induction ls generalizing state with
  | nil => exact ⟨[], rfl, by simp⟩
  | cons l ls ih =>
    cases ls with
    | nil =>
      by_cases hk : l.kind = .comment
      · obtain ⟨rest, hrest⟩ := Text.trimRight_append Text.isBlank l.text
        refine ⟨rest, ?_, hrest.2⟩
        simpa [Lexeme.trim, hk] using hrest.1
      · exact ⟨[], by simp [Lexeme.trim_of_ne hk], by simp⟩
    | cons l' ls =>
      obtain ⟨rest, htext, hrest⟩ := ih h.2 fun m hm => hb m (List.mem_cons_of_mem _ hm)
      obtain ⟨c, cs, cs', hc, -, hbreak, -⟩ := trim_begins h.2.1
      have hl := h.1
      rw [Lexeme.sourceText_cons, hc, List.append_assoc, List.cons_append] at hl
      have hk := kind_ne_comment_of_inside hl (hbreak (hb l' (by simp)))
      refine ⟨rest, ?_, hrest⟩
      have hmap : (l :: l' :: ls).map Lexeme.trim = l :: (l' :: ls).map Lexeme.trim := by
        rw [List.map_cons, Lexeme.trim_of_ne hk]
      rw [hmap, Lexeme.sourceText_cons l, Lexeme.sourceText_cons l, htext, List.append_assoc]

/-- The last lexeme is an underscore that comes between a blank and a line break. -/
def Loose (state : ScanState) (ls : List Lexeme) : Prop :=
  ∃ init, ls = init ++ [⟨.punctuation, ['_']⟩] ∧ (state.nextAll init).afterBlank = true

theorem loose_iff {state : ScanState} {ls : List Lexeme} :
    Loose state ls ↔ ls.getLast? = some ⟨.punctuation, ['_']⟩ ∧
      (state.nextAll ls.dropLast).afterBlank = true := by
  constructor
  · rintro ⟨init, rfl, hb⟩
    simpa using hb
  · rintro ⟨hlast, hb⟩
    obtain ⟨init, rfl⟩ := List.getLast?_eq_some_iff.mp hlast
    exact ⟨init, rfl, by simpa using hb⟩

instance (state : ScanState) (ls : List Lexeme) : Decidable (Loose state ls) :=
  decidable_of_iff _ loose_iff.symm

/-- A piece is read as before when it is moved, but for such an underscore. -/
theorem reads_moved {state state' : ScanState} {u u' : Text} {ls : List Lexeme}
    (h : Reads state u ls) (hm : Text.Moves u u')
    (hstart : state'.statementStart = state.statementStart)
    (hinner : ∀ l ∈ ls, l.kind ≠ .newline ∧ l.kind ≠ .lineContinuation)
    (hlast : ∀ l ∈ ls.getLast?, l.kind ≠ .whitespace)
    (hloose : Reach.lineBreak u' = 0 ∨ ¬Loose state' ls) :
    Reads state' u' (ls.map Lexeme.trim) := by
  induction ls generalizing state state' with
  | nil => trivial
  | cons l ls ih =>
    obtain ⟨hnl, hlc⟩ := hinner l (by simp)
    cases ls with
    | nil =>
      refine ⟨?_, trivial⟩
      rw [Reads, Lexeme.sourceText_nil, List.nil_append] at h
      by_cases hk : l.kind = .comment
      · have hu := (readsIn_trim h.1 hk (show Text.EndsLine [] from rfl) rfl).1
        exact (readsIn_trim h.1 hk (hm.endsLine hu) hstart).2
      · rw [Lexeme.trim_of_ne hk]
        refine readsIn_moved h.1 hm hstart (hlast l rfl) hnl hlc ?_
        rintro rfl
        refine hloose.imp_right fun hn => ?_
        cases hb : state'.afterBlank with
        | false => rfl
        | true => exact absurd ⟨[], rfl, hb⟩ hn
    | cons l' ls =>
      have hinner' : ∀ m ∈ l' :: ls, m.kind ≠ .newline ∧ m.kind ≠ .lineContinuation :=
        fun m hm => hinner m (List.mem_cons_of_mem _ hm)
      have hnext := ScanState.next_congr hstart l.kind
      have hrest : Reads (state'.next l.kind) u' ((l' :: ls).map Lexeme.trim) := by
        refine ih h.2 (congrArg _ hnext) hinner' hlast (hloose.imp_right fun hn => ?_)
        rintro ⟨init, hls, hb⟩
        exact hn ⟨l :: init, by rw [hls, List.cons_append], hb⟩
      -- What follows the first lexeme begins as before and differs only in what ends the piece.
      obtain ⟨rest, htext, hblank⟩ := sourceText_trim h.2 fun m hm => (hinner' m hm).1
      obtain ⟨c, cs, cs', -, hc, hbreak, -⟩ := trim_begins h.2.1
      have hbegin : Lexeme.sourceText ((l' :: ls).map Lexeme.trim) =
          c :: (cs' ++ Lexeme.sourceText (ls.map Lexeme.trim)) := by
        rw [List.map_cons, Lexeme.sourceText_cons, hc, List.cons_append]
      have hl := h.1
      rw [htext, hbegin, List.append_assoc] at hl
      obtain ⟨hu, hu'⟩ := hm.endsPiece
      have hmoved := readsIn_inside hl (hbreak (hinner' l' (by simp)).1)
        (endsPiece_append hblank hu) hu' hstart hnl hlc
      have hk : l.kind ≠ .comment :=
        kind_ne_comment_of_inside hl (hbreak (hinner' l' (by simp)).1)
      rw [List.map_cons, Lexeme.trim_of_ne hk]
      exact ⟨by rw [hbegin]; exact hmoved, hrest⟩

end VbaWorkbench
