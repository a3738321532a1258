import VbaWorkbench.Proofs.Layout.Rows

namespace VbaWorkbench

/-- A newline token that no continuation comes before is the first one. -/
theorem Layout.newlineOf_first {tokens : List Token} {t : Token}
    (h : tokens.find? (·.kind.breaksLine) = some t) (hk : t.kind = .newline) :
    newlineOf tokens = t.text := by
  obtain ⟨-, before, after, hsplit, hbefore⟩ := List.find?_eq_some_iff_append.mp h
  have hfind : tokens.find? (·.kind == .newline) = some t := by
    refine List.find?_eq_some_iff_append.mpr ⟨by simp [hk], before, after, hsplit, fun u hu => ?_⟩
    have hline : u.kind.breaksLine = false := by simpa using hbefore u hu
    simpa using (TokenKind.breaksLine_eq_false.mp hline).1
  rw [newlineOf, hfind]
  rfl

/-- All line breaks of a layout that indents by blanks are that of the first newline token, or line
feeds where there is none. They are the first line break of the source unless the layout has several
lines and that one stands in a continuation and is another one. -/
theorem format_breaks_iff {options : LayoutOptions} {source out : Text}
    (hunit : ∀ c ∈ options.indentUnit, Text.isBlank c = true)
    (hsource : ∃ c ∈ source, Text.isLineBreak c = true) (h : format options source = .ok out) :
    (∀ br ∈ Text.breaks out, br = Layout.newlineOf (tokenize source)) ∧
    ((∀ br ∈ Text.breaks out, (Text.breaks source).head? = some br) ↔
      Text.breaks out = [] ∨ ∀ t ∈ (tokenize source).find? (·.kind.breaksLine),
        t.kind = .lineContinuation → t.text = '_' :: Layout.newlineOf (tokenize source)) := by
  obtain ⟨rows, last, hstacks, rfl⟩ := Layout.stacks_format hunit h
  obtain ⟨hrows, hlast⟩ := hstacks.inside
  rw [Text.breaks_stacked (Layout.newlineOf_isBreak source) hrows hlast]
  refine ⟨by simp, ?_⟩
  obtain ⟨c, hc, hbreak⟩ := hsource
  obtain ⟨t, first, ht, hfirst, hcases⟩ := exists_firstBreak hc hbreak
  have hsame : (t.kind = .lineContinuation → t.text = '_' :: Layout.newlineOf (tokenize source)) ↔
      first = Layout.newlineOf (tokenize source) := by
    rcases hcases with ⟨hk, rfl⟩ | ⟨hk, htext⟩
    · simp [hk, Layout.newlineOf_first ht hk]
    · simp [hk, htext]
  simp only [ht, hfirst, Option.mem_some_iff, forall_eq', hsame, Option.some.injEq]
  constructor
  · intro hall
    cases rows with
    | nil => exact .inl rfl
    | cons row rows => exact .inr (hall _ List.mem_cons_self)
  · rintro (hnil | heq) br hbr
    · rw [hnil] at hbr
      cases hbr
    · obtain ⟨row, -, rfl⟩ := List.mem_map.mp hbr
      exact heq

/-- The first line break stands in a continuation, and all of the output are like the second one. -/
theorem format_breaks_continued :
    let source := "x _\r\ny\nz".toList
    let out := "x _\n  y\nz".toList
    format .default source = .ok out ∧ Text.breaks out = [['\n'], ['\n']] ∧
      ¬∀ br ∈ Text.breaks out, (Text.breaks source).head? = some br := by
  intro source out
  have h : format .default source = .ok out := by decide +kernel
  have hbreaks : Text.breaks out = [['\n'], ['\n']] := by decide
  refine ⟨h, hbreaks, fun hall => ?_⟩
  have hiff := (format_breaks_iff (List.all_eq_true.mp rfl) ⟨'\n', by decide, rfl⟩ h).2
  rcases hiff.mp hall with hnil | hcontinued
  · rw [hbreaks] at hnil
    cases hnil
  · have hfirst : (tokenize source).find? (·.kind.breaksLine) =
        some ⟨⟨.lineContinuation, "_\r\n".toList⟩, 2⟩ := by decide +kernel
    have hnewline : Layout.newlineOf (tokenize source) = ['\n'] := by decide +kernel
    have htext := hcontinued _ hfirst rfl
    rw [hnewline] at htext
    cases htext

end VbaWorkbench
