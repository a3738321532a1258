import VbaWorkbench.Proofs.Layout.Emission
import VbaWorkbench.Proofs.Token.Kinds

namespace VbaWorkbench.Layout

/-- A stretch of a line between continuations that begins and ends with code. -/
structure Solid (p : List Lexeme) : Prop where
  ne_nil : p ≠ []
  first : ∀ l ∈ p.head?, l.kind ≠ .whitespace
  last : ∀ l ∈ p.getLast?, l.kind ≠ .whitespace
  inner : ∀ l ∈ p, l.kind ≠ .newline ∧ l.kind ≠ .lineContinuation

/-- The pieces of a line as they were read: a blank follows each but the last, and the end of the
line may follow that one. `start` says whether a statement has yet to begin. -/
inductive Chain : Bool → List (List Lexeme) → Prop
  | nil (start : Bool) : Chain start []
  | cons {state : ScanState} {u : Text} {p : List Lexeme} {ps : List (List Lexeme)} :
      Solid p → Reads state u p → (u.head?.any Text.isBlank = true ∨ ps = [] ∧ u.EndsLine) →
      Chain (state.nextAll p).statementStart ps → Chain state.statementStart (p :: ps)

theorem Chain.first {start : Bool} {p : List Lexeme} {ps : List (List Lexeme)}
    (h : Chain start (p :: ps)) :
    ∃ state u, state.statementStart = start ∧ Solid p ∧ Reads state u p ∧
      (u.head?.any Text.isBlank = true ∨ ps = [] ∧ u.EndsLine) ∧
      Chain (state.nextAll p).statementStart ps := by
  cases h with
  | cons hp hread hu hps => exact ⟨_, _, rfl, hp, hread, hu, hps⟩

section Core

variable {ls : List Lexeme}

theorem exists_core (ls : List Lexeme) :
    ∃ before after, ls = before ++ coreLexemes ls ++ after ∧
      (∀ l ∈ before, l.kind = .whitespace) ∧ ∀ l ∈ after, l.kind = .whitespace := by
  have hall : ∀ ms : List Lexeme, ∀ l ∈ ms.takeWhile isBlankLexeme, l.kind = .whitespace := by
    intro ms l hl
    exact eq_of_beq (List.all_eq_true.mp List.all_takeWhile l hl)
  refine ⟨ls.takeWhile isBlankLexeme,
    ((ls.dropWhile isBlankLexeme).reverse.takeWhile isBlankLexeme).reverse, ?_, hall ls, ?_⟩
  · rw [coreLexemes, List.append_assoc, ← List.reverse_append, List.takeWhile_append_dropWhile,
      List.reverse_reverse, List.takeWhile_append_dropWhile]
  · intro l hl
    exact hall _ l (List.mem_reverse.mp hl)

theorem mem_of_mem_core {l : Lexeme} (h : l ∈ coreLexemes ls) : l ∈ ls := by
  obtain ⟨before, after, hls, -⟩ := exists_core ls
  rw [hls]
  simp [h]

theorem coreLexemes_solid (hne : coreLexemes ls ≠ [])
    (hinner : ∀ l ∈ ls, l.kind ≠ .newline ∧ l.kind ≠ .lineContinuation) :
    Solid (coreLexemes ls) := by
  have hhead : ∀ ms : List Lexeme, ∀ l ∈ (ms.dropWhile isBlankLexeme).head?,
      l.kind ≠ .whitespace := by
    intro ms l hl
    have h := List.head?_dropWhile_not isBlankLexeme ms
    rw [Option.mem_def.mp hl] at h
    simpa [isBlankLexeme] using h
  refine ⟨hne, ?_, ?_, fun l hl => hinner l (mem_of_mem_core hl)⟩
  · intro l hl
    -- The core is what is left of `dropWhile` without blanks at its end.
    have hprefix : coreLexemes ls <+: ls.dropWhile isBlankLexeme := by
      rw [coreLexemes, ← List.reverse_suffix, List.reverse_reverse]
      exact List.dropWhile_suffix _
    obtain ⟨more, hmore⟩ := hprefix
    refine hhead ls l ?_
    rw [← hmore, List.head?_append, Option.mem_def.mp hl]
    rfl
  · intro l hl
    rw [coreLexemes, List.getLast?_reverse] at hl
    exact hhead _ l hl

theorem dropWhile_blanks {w ms : List Lexeme} (hw : ∀ l ∈ w, l.kind = .whitespace) :
    (w ++ ms).dropWhile isBlankLexeme = ms.dropWhile isBlankLexeme :=
  List.dropWhile_append_of_pos fun l hl => beq_iff_eq.mpr (hw l hl)

theorem dropWhile_code {p ms : List Lexeme} (hne : p ≠ [])
    (h : ∀ l ∈ p.head?, l.kind ≠ .whitespace) : (p ++ ms).dropWhile isBlankLexeme = p ++ ms := by
  cases p with
  | nil => exact absurd rfl hne
  | cons l p =>
    rw [List.cons_append, List.dropWhile_cons_of_neg]
    simpa [isBlankLexeme] using h l rfl

/-- The blanks around a piece do not belong to it. -/
theorem coreLexemes_of_solid {p before after : List Lexeme} (hp : Solid p)
    (hbefore : ∀ l ∈ before, l.kind = .whitespace) (hafter : ∀ l ∈ after, l.kind = .whitespace) :
    coreLexemes (before ++ p ++ after) = p := by
  have hlast : ∀ l ∈ p.reverse.head?, l.kind ≠ .whitespace := by
    rw [List.head?_reverse]
    exact hp.last
  have hback := @dropWhile_code _ [] (List.reverse_ne_nil_iff.mpr hp.ne_nil) hlast
  rw [List.append_nil] at hback
  rw [coreLexemes, List.append_assoc, dropWhile_blanks hbefore, dropWhile_code hp.ne_nil hp.first,
    List.reverse_append, dropWhile_blanks fun l hl => hafter l (List.mem_reverse.mp hl), hback,
    List.reverse_reverse]

theorem coreLexemes_blank (h : ∀ l ∈ ls, l.kind = .whitespace) : coreLexemes ls = [] := by
  have hdrop := @dropWhile_blanks _ [] h
  rw [List.append_nil] at hdrop
  rw [coreLexemes, hdrop]
  rfl

end Core

section Cores

variable {ls ms : List Lexeme} {lc : Lexeme}

theorem cores_append (h : lc.kind = .lineContinuation) :
    cores (ls ++ lc :: ms) = cores ls ++ cores ms := by
  rw [cores, cut, List.splitOnP_append_cons ls ms (by simp [h]), List.map_append,
    List.filter_append]
  rfl

theorem cores_whole (h : ∀ l ∈ ls, l.kind ≠ .lineContinuation) :
    cores ls = if coreLexemes ls = [] then [] else [coreLexemes ls] := by
  rw [cores, cut, List.splitOnP_eq_singleton fun l hl => by simpa using h l hl, List.map_singleton]
  by_cases hc : coreLexemes ls = [] <;> simp [hc]

/-- A line has no continuation or is cut at its first one. -/
theorem cut_cases (ls : List Lexeme) :
    (∀ l ∈ ls, l.kind ≠ .lineContinuation) ∨
      ∃ seg lc more, ls = seg ++ lc :: more ∧ lc.kind = .lineContinuation ∧
        ∀ l ∈ seg, l.kind ≠ .lineContinuation := by
  cases hf : ls.find? (·.kind == .lineContinuation) with
  | none =>
    left
    simpa using List.find?_eq_none.mp hf
  | some lc =>
    right
    obtain ⟨hlc, seg, more, hls, hseg⟩ := List.find?_eq_some_iff_append.mp hf
    exact ⟨seg, lc, more, hls, by simpa using hlc, by simpa using hseg⟩

end Cores

section Reading

variable {u : Text}

/-- The piece between two continuations, if it is any. -/
theorem chain_whole {state : ScanState} {ls : List Lexeme} (h : Reads state u ls)
    (hinner : ∀ l ∈ ls, l.kind ≠ .newline ∧ l.kind ≠ .lineContinuation)
    {ps : List (List Lexeme)} (hps : Chain (state.nextAll ls).statementStart ps)
    (hu : ps = [] ∧ u.EndsLine ∨ (state.nextAll ls).afterBlank = true) :
    Chain state.statementStart (cores ls ++ ps) := by
  rw [cores_whole fun l hl => (hinner l hl).2]
  obtain ⟨before, after, hls, hbefore, hafter⟩ := exists_core ls
  have hstart : ∀ {state : ScanState} {w : List Lexeme}, (∀ l ∈ w, l.kind = .whitespace) →
      (state.nextAll w).statementStart = state.statementStart :=
    fun hw => ScanState.nextAll_statementStart fun l hl => .inl (hw l hl)
  by_cases hc : coreLexemes ls = []
  · have hw : ∀ l ∈ ls, l.kind = .whitespace := by
      rw [hls, hc]
      simpa [or_imp, forall_and] using ⟨hbefore, hafter⟩
    rw [hstart hw] at hps
    simpa [hc] using hps
  · have hsolid := coreLexemes_solid hc hinner
    rw [if_neg hc]
    have hread := h
    rw [hls, reads_append, reads_append] at hread
    obtain ⟨⟨-, hcore⟩, hrest⟩ := hread
    have hnext : (state.nextAll ls).statementStart =
        ((state.nextAll before).nextAll (coreLexemes ls)).statementStart := by
      conv => lhs; rw [hls]
      rw [ScanState.nextAll_append, hstart hafter, ScanState.nextAll_append]
    rw [hnext] at hps
    rw [← hstart hbefore]
    refine .cons hsolid hcore ?_ hps
    cases after with
    | cons l after =>
      obtain ⟨c, hc, hb⟩ := (Option.any_eq_true _ _).mp
        ((readsIn_layout hrest.1).1 (hafter l (by simp)))
      left
      rw [Lexeme.sourceText_cons, List.append_assoc, List.head?_append, hc]
      simpa using hb
    | nil =>
      rcases hu with hu | hb
      · exact .inr (by simpa using hu)
      · rw [List.append_nil] at hls
        rcases ScanState.nextAll_afterBlank hb with ⟨hnil, -⟩ | ⟨init, l, hinit, hl⟩
        · exact absurd (by rw [hnil]; rfl) hc
        · have hlast : l ∈ (coreLexemes ls).getLast? := by
            have hsame : (before ++ coreLexemes ls).getLast? = some l := by
              rw [← hls, hinit, List.getLast?_append]
              rfl
            obtain ⟨m, hm⟩ := Option.ne_none_iff_exists'.mp (mt List.getLast?_eq_none_iff.mp hc)
            rw [List.getLast?_append, hm] at hsame
            rw [hm]
            exact hsame
          exact absurd hl (hsolid.last l hlast)

/-- The pieces of a line that was read. -/
theorem chain_of_reads {state : ScanState} {ls : List Lexeme} (h : Reads state u ls)
    (hu : u.EndsLine) (hnl : ∀ l ∈ ls, l.kind ≠ .newline) :
    Chain state.statementStart (cores ls) := by
  rcases cut_cases ls with hlc | ⟨seg, lc, more, hls, hlc, hseg⟩
  · rw [← List.append_nil (cores ls)]
    exact chain_whole h (fun l hl => ⟨hnl l hl, hlc l hl⟩) (.nil _) (.inl ⟨rfl, hu⟩)
  · subst hls
    obtain ⟨hreads, hmore⟩ := reads_append.mp h
    have hshort : more.length < (seg ++ lc :: more).length := by
      simp only [List.length_append, List.length_cons]
      omega
    have hrest := chain_of_reads hmore.2 hu fun l hl => hnl l (by simp [hl])
    rw [hlc, ScanState.next_statementStart (.inr rfl)] at hrest
    rw [cores_append hlc]
    exact chain_whole hreads (fun l hl => ⟨hnl l (by simp [hl]), hseg l hl⟩) hrest
      (.inr ((readsIn_layout hmore.1).2.2 hlc).1)
termination_by ls.length

end Reading

end VbaWorkbench.Layout
