import VbaWorkbench.Proofs.Layout.Depth
import VbaWorkbench.Proofs.Layout.Rereading

namespace VbaWorkbench

theorem Text.trimRight_trimRight (p : Char → Bool) (t : Text) :
    trimRight p (trimRight p t) = trimRight p t := by
  have hidem : ∀ s : Text, (s.dropWhile p).dropWhile p = s.dropWhile p := by
    intro s
    induction s with
    | nil => rfl
    | cons c s ih => cases hc : p c <;> simp [hc, ih]
  rw [trimRight, trimRight, List.reverse_reverse, hidem]

@[simp] theorem Lexeme.trim_trim (l : Lexeme) : l.trim.trim = l.trim := by
  by_cases h : l.kind = .comment
  · simp [trim, h, Text.trimRight_trimRight]
  · rw [trim_of_ne h, trim_of_ne h]

namespace Layout

section Spelling

variable {style : KeywordStyle}

theorem recase_recase (member : Bool) (l : Lexeme) :
    recase style member (recase style member l) = recase style member l := by
  unfold recase
  split
  · rw [style.apply_apply]
  · rfl

theorem memberAfter_recase (member m : Bool) (l : Lexeme) :
    memberAfter m (recase style member l) = memberAfter m l := by
  unfold recase
  split
  · rename_i h
    simp only [memberAfter, h.1]
    rfl
  · rfl

theorem memberAfter_trim (m : Bool) (l : Lexeme) : memberAfter m l.trim = memberAfter m l := by
  by_cases h : l.kind = .comment
  · simp only [memberAfter, kind_trim, h]
    rfl
  · rw [Lexeme.trim_of_ne h]

theorem recase_trim (member : Bool) (l : Lexeme) :
    recase style member l.trim = (recase style member l).trim := by
  by_cases h : l.kind = .comment
  · simp [recase, Lexeme.trim, h]
  · have hk : (recase style member l).kind ≠ .comment := by
      unfold recase
      split <;> exact h
    rw [Lexeme.trim_of_ne h, Lexeme.trim_of_ne hk]

theorem recaseAll_recaseAll (member : Bool) (ls : List Lexeme) :
    recaseAll style member (recaseAll style member ls) = recaseAll style member ls := by
  induction ls generalizing member with
  | nil => rfl
  | cons l ls ih => rw [recaseAll, recaseAll, recase_recase, memberAfter_recase, ih]

theorem recaseAll_trim (member : Bool) (ls : List Lexeme) :
    recaseAll style member (ls.map Lexeme.trim) = (recaseAll style member ls).map Lexeme.trim := by
  induction ls generalizing member with
  | nil => rfl
  | cons l ls ih =>
    rw [List.map_cons, recaseAll, recaseAll, List.map_cons, recase_trim, memberAfter_trim, ih]

/-- A line is spelled in a style if its code is. -/
theorem recaseAll_of_code {member : Bool} {ls : List Lexeme}
    (h : recaseAll style member (code ls) = code ls) : recaseAll style member ls = ls := by
  induction ls generalizing member with
  | nil => rfl
  | cons l ls ih =>
    rw [recaseAll]
    cases hl : l.isCode with
    | true =>
      rw [code_cons_of_isCode hl, recaseAll, List.cons.injEq] at h
      rw [h.1, ih h.2]
    | false =>
      rw [code_cons_of_not hl] at h
      have hkind := Lexeme.isCode_eq_false.mp hl
      have hsame : recase style member l = l := by
        rcases hkind with hk | hk <;> simp [recase, hk]
      rw [memberAfter, if_pos hkind, hsame, ih h]

end Spelling

section Keys

/-- The words of a lexeme list as the block structure sees them. -/
def lexemeKeys (ls : List Lexeme) : List Lexeme :=
  ((code ls).filter (·.kind != .comment)).map Lexeme.key

theorem lexemeKeys_cons (l : Lexeme) (ls : List Lexeme) :
    lexemeKeys (l :: ls) =
      if l.isCode = true ∧ l.kind ≠ .comment then l.key :: lexemeKeys ls else lexemeKeys ls := by
  cases hl : l.isCode with
  | true =>
    rw [lexemeKeys, code_cons_of_isCode hl]
    by_cases hk : l.kind = .comment <;> simp [hk, lexemeKeys]
  | false => rw [lexemeKeys, code_cons_of_not hl]; simp [lexemeKeys]

theorem lexemeKeys_code (ls : List Lexeme) : lexemeKeys (code ls) = lexemeKeys ls := by
  have hcode : code (code ls) = code ls := by
    unfold code
    rw [List.filter_filter]
    simp
  rw [lexemeKeys, lexemeKeys, hcode]

theorem lexemeKeys_new (style : KeywordStyle) (member : Bool) (ls : List Lexeme) :
    lexemeKeys ((recaseAll style member ls).map Lexeme.trim) = lexemeKeys ls := by
  induction ls generalizing member with
  | nil => rfl
  | cons l ls ih =>
    have hkind : (recase style member l).trim.kind = l.kind := by
      rw [kind_trim, recase]
      split <;> rfl
    have hcode : (recase style member l).trim.isCode = l.isCode := by
      rw [Lexeme.isCode, hkind, Lexeme.isCode]
    rw [recaseAll, List.map_cons, lexemeKeys_cons, lexemeKeys_cons, hkind, hcode, ih]
    split
    · rename_i h
      have hkey : (recase style member l).trim.key = l.key := by
        rw [Lexeme.trim_of_ne (by rw [← kind_trim, hkind]; exact h.2), recase]
        split
        · rename_i hk
          simp [Lexeme.key, hk.1, Lexeme.lower]
        · rfl
      rw [hkey]
    · rfl

/-- What is significant in a line, wherever it stands. -/
theorem significant_keys {tokens : List Token} (h : ∀ t ∈ tokens, t.kind ≠ .endOfInput) :
    (significant tokens).map Token.key =
      (lexemeKeys (tokens.map (·.toLexeme))).map fun l => ⟨l, 0⟩ := by
  induction tokens with
  | nil => rfl
  | cons t tokens ih =>
    have hrest := ih fun t ht => h t (List.mem_cons_of_mem _ ht)
    have ht := h t (by simp)
    have hsignificant : t.isSignificant = true ↔ t.toLexeme.isCode = true ∧ t.kind ≠ .comment := by
      unfold Token.isSignificant Lexeme.isCode
      cases hk : t.kind <;> simp_all
    rw [List.map_cons, lexemeKeys_cons, significant, List.filter_cons]
    by_cases hs : t.isSignificant = true
    · rw [if_pos hs, if_pos (hsignificant.mp hs), List.map_cons, List.map_cons, ← hrest]
      rfl
    · rw [if_neg hs, if_neg (mt hsignificant.mpr hs), ← hrest]
      rfl

end Keys

section Pieces

variable {p : List Lexeme} {ps : List (List Lexeme)}

theorem Solid.trimmed (h : Solid p) : Solid (trimmed p) := by
  obtain ⟨hne, hfirst, hlast, hinner⟩ := h
  refine ⟨fun hnil => hne (List.map_eq_nil_iff.mp hnil), ?_, ?_, ?_⟩
  · intro l hl
    rw [Layout.trimmed, List.head?_map] at hl
    obtain ⟨m, hm, rfl⟩ := Option.map_eq_some_iff.mp hl
    rw [kind_trim]
    exact hfirst m hm
  · intro l hl
    rw [Layout.trimmed, List.getLast?_map] at hl
    obtain ⟨m, hm, rfl⟩ := Option.map_eq_some_iff.mp hl
    rw [kind_trim]
    exact hlast m hm
  · intro l hl
    obtain ⟨m, hm, rfl⟩ := List.mem_map.mp hl
    rw [kind_trim]
    exact hinner m hm

theorem trimmed_trimmed (p : List Lexeme) : trimmed (trimmed p) = trimmed p := by
  rw [trimmed, trimmed, List.map_map]
  exact List.map_congr_left fun l _ => l.trim_trim

theorem cores_of_solid {before after : List Lexeme} (hp : Solid p)
    (hbefore : ∀ l ∈ before, l.kind = .whitespace) (hafter : ∀ l ∈ after, l.kind = .whitespace) :
    cores (before ++ p ++ after) = [p] := by
  have hlc : ∀ l ∈ before ++ p ++ after, l.kind ≠ .lineContinuation := by
    intro l hl
    rcases List.mem_append.mp hl with hl | hl
    · rcases List.mem_append.mp hl with hl | hl
      · simp [hbefore l hl]
      · exact (hp.inner l hl).2
    · simp [hafter l hl]
  rw [cores_whole hlc, coreLexemes_of_solid hp hbefore hafter, if_neg hp.ne_nil]

/-- The pieces on lines of their own are cut out again. -/
theorem cores_continued {hanging newline : Text} {before : List Lexeme} (hp : Solid p)
    (hps : ∀ q ∈ ps, Solid q) (hbefore : ∀ l ∈ before, l.kind = .whitespace) :
    cores (before ++ spaced (continuation hanging newline) p ps) = p :: ps := by
  induction ps generalizing p before with
  | nil =>
    have hcores : cores (before ++ p ++ []) = [p] := cores_of_solid hp hbefore (by simp)
    rw [List.append_nil] at hcores
    rw [spaced_nil, hcores]
  | cons q ps ih =>
    have hsplit : before ++ spaced (continuation hanging newline) p (q :: ps) =
        (before ++ p ++ [⟨.whitespace, [' ']⟩]) ++ ⟨.lineContinuation, '_' :: newline⟩ ::
          (indentLexemes hanging q ++ spaced (continuation hanging newline) q ps) := by
      rw [spaced_cons, continuation]
      simp
    rw [hsplit, cores_append rfl, cores_of_solid hp hbefore (by simp),
      ih (hps q (by simp)) (fun r hr => hps r (List.mem_cons_of_mem _ hr))
        (indentLexemes_blank hanging q)]
    rfl

/-- The pieces that are joined make up one. -/
theorem solid_joined (hp : Solid p) (hps : ∀ q ∈ ps, Solid q) : Solid (spaced joint p ps) := by
  induction ps generalizing p with
  | nil =>
    rw [spaced_nil]
    exact hp
  | cons q ps ih =>
    obtain ⟨hne, hfirst, hlast, hinner⟩ :=
      ih (hps q (by simp)) fun r hr => hps r (List.mem_cons_of_mem _ hr)
    rw [spaced_cons]
    refine ⟨by simp [hp.ne_nil], ?_, ?_, ?_⟩
    · intro l hl
      obtain ⟨m, p, rfl⟩ := List.exists_cons_of_ne_nil hp.ne_nil
      exact hp.first l hl
    · intro l hl
      obtain ⟨m, hm⟩ := Option.ne_none_iff_exists'.mp (mt List.getLast?_eq_none_iff.mp hne)
      rw [List.getLast?_append, List.getLast?_append, hm] at hl
      obtain rfl : m = l := Option.some.inj hl
      exact hlast m hm
    · intro l hl
      rcases List.mem_append.mp hl with hl | hl
      · exact hp.inner l hl
      · rcases List.mem_append.mp hl with hl | hl
        · obtain rfl := List.mem_singleton.mp hl
          exact ⟨by simp, by simp⟩
        · exact hinner l hl

theorem trimmed_joined (hp : trimmed p = p) (hps : ∀ q ∈ ps, trimmed q = q) :
    trimmed (spaced joint p ps) = spaced joint p ps := by
  induction ps generalizing p with
  | nil => rw [spaced_nil, hp]
  | cons q ps ih =>
    have hrest := ih (hps q (by simp)) fun r hr => hps r (List.mem_cons_of_mem _ hr)
    rw [trimmed] at hp hrest
    rw [spaced_cons, trimmed, List.map_append, List.map_append, hp, hrest]
    rfl

/-- A line that is laid out is laid out again as it is. -/
theorem laid_again (options : LayoutOptions) (newline : Text) (depth : Nat) (hne : ps ≠ [])
    (hsolid : ∀ p ∈ ps, Solid p) (htrim : ∀ p ∈ ps, trimmed p = p) :
    laid options newline depth ((cores (laid options newline depth ps)).map trimmed) =
      laid options newline depth ps := by
  cases ps with
  | nil => exact absurd rfl hne
  | cons p ps =>
    have hp := hsolid p (by simp)
    have hps : ∀ q ∈ ps, Solid q := fun q hq => hsolid q (List.mem_cons_of_mem _ hq)
    have hptrim := htrim p (by simp)
    have hpstrim : ∀ q ∈ ps, trimmed q = q := fun q hq => htrim q (List.mem_cons_of_mem _ hq)
    by_cases hc : ps ≠ [] ∧ (collapsed? options (Text.repeated options.indentUnit depth)
        ((p :: ps).map Lexeme.sourceText)).isSome = true
    · have hlaid : laid options newline depth (p :: ps) =
          blankLexemes (Text.repeated options.indentUnit depth) ++ spaced joint p ps := by
        simp only [laid]
        rw [if_pos hc]
      have hcores : cores (blankLexemes (Text.repeated options.indentUnit depth) ++
          spaced joint p ps ++ []) = [spaced joint p ps] :=
        cores_of_solid (solid_joined hp hps) (blankLexemes_blank _) (by simp)
      rw [List.append_nil] at hcores
      have hlone : Lexeme.sourceText (spaced joint p ps) ≠ ['_'] := by
        obtain ⟨q, ps, rfl⟩ := List.exists_cons_of_ne_nil hc.1
        intro hunderscore
        have hblank : ' ' ∈ Lexeme.sourceText (spaced joint p (q :: ps)) := by
          rw [spaced_cons, Lexeme.sourceText_append, Lexeme.sourceText_append]
          simp [joint]
        rw [hunderscore] at hblank
        simp at hblank
      rw [hlaid, hcores, List.map_singleton, trimmed_joined hptrim hpstrim]
      simp only [laid, ne_eq, not_true_eq_false, false_and, if_false, spaced_nil]
      rw [indentLexemes, if_neg hlone]
    · have hlaid : laid options newline depth (p :: ps) =
          indentLexemes (Text.repeated options.indentUnit depth) p ++
            spaced (continuation (Text.repeated options.indentUnit depth ++ options.indentUnit)
              newline) p ps := by
        simp only [laid]
        rw [if_neg hc]
      have hcores : cores (laid options newline depth (p :: ps)) = p :: ps := by
        rw [hlaid]
        exact cores_continued hp hps (indentLexemes_blank _ p)
      have hmap : (p :: ps).map trimmed = p :: ps := by
        rw [List.map_congr_left fun q hq => htrim q hq]
        simp
      rw [hcores, hmap]

end Pieces

end Layout
end VbaWorkbench
