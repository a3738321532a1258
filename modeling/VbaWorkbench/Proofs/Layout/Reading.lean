import VbaWorkbench.Proofs.Layout.Chain

namespace VbaWorkbench.Layout

/-- What comes next is neither a blank nor a line break. -/
def BeginsCode (t : Text) : Prop :=
  ∃ c cs, t = c :: cs ∧ Text.isEdge c = false

theorem BeginsCode.head?_ne {t : Text} (h : BeginsCode t) {d : Char} (hd : Text.isEdge d = true) :
    t.head? ≠ some d := by
  obtain ⟨c, cs, rfl, hc⟩ := h
  intro he
  rw [Option.some.inj he, hd] at hc
  cases hc

theorem Solid.beginsCode {state : ScanState} {u : Text} {p : List Lexeme} (hp : Solid p)
    (h : Reads state u p) (v : Text) : BeginsCode (Lexeme.sourceText (trimmed p) ++ v) := by
  obtain ⟨hne, hfirst, -, hinner⟩ := hp
  cases p with
  | nil => exact absurd rfl hne
  | cons l p =>
    obtain ⟨c, -, cs, -, htext, hbreak, hblank⟩ := trim_begins h.1
    refine ⟨c, cs ++ (Lexeme.sourceText (p.map Lexeme.trim) ++ v), ?_, ?_⟩
    · rw [trimmed, List.map_cons, Lexeme.sourceText_cons, htext, List.append_assoc,
        List.cons_append]
    · simp [Text.isEdge, hbreak (hinner l (by simp)).1, hblank (hfirst l rfl)]

theorem kind_trim (l : Lexeme) : l.trim.kind = l.kind := by
  unfold Lexeme.trim
  split
  · rename_i h
    exact h.symm
  · rfl

theorem nextAll_trimmed (state : ScanState) (p : List Lexeme) :
    state.nextAll (trimmed p) = state.nextAll p := by
  induction p generalizing state with
  | nil => rfl
  | cons l p ih =>
    rw [trimmed, List.map_cons, ScanState.nextAll_cons, kind_trim]
    exact ih _

/-- Whitespace is read up to the code behind it. -/
theorem reads_blankLexemes {state : ScanState} {t u : Text} (ht : ∀ c ∈ t, Text.isBlank c = true)
    (hu : u.head?.all (fun c => !Text.isBlank c) = true) : Reads state u (blankLexemes t) := by
  unfold blankLexemes
  split
  · trivial
  · rename_i hne
    cases t with
    | nil => exact absurd rfl hne
    | cons c t =>
      refine ⟨(readsIn_blank (ht c (by simp))).mpr ⟨rfl, ?_⟩, trivial⟩
      rw [Lexeme.sourceText_nil, List.nil_append, Reach.many_eq_length]
      exact ⟨fun d hd => ht d (by simp [hd]), hu⟩

theorem blankLexemes_blank (t : Text) : ∀ l ∈ blankLexemes t, l.kind = .whitespace := by
  unfold blankLexemes
  split <;> simp

theorem indentLexemes_blank (indent : Text) (p : List Lexeme) :
    ∀ l ∈ indentLexemes indent p, l.kind = .whitespace := by
  unfold indentLexemes
  split
  · simp
  · exact blankLexemes_blank indent

theorem BeginsCode.not_blank {u : Text} (h : BeginsCode u) :
    u.head?.all (fun c => !Text.isBlank c) = true := by
  obtain ⟨c, cs, rfl, hc⟩ := h
  simp only [Text.isEdge, Bool.or_eq_false_iff] at hc
  simp [hc.1]

/-- A gap is read as it is written wherever code follows it, begins with a blank and leaves open
whether a statement has begun. -/
structure GapReads (gap : List Lexeme) : Prop where
  reads : ∀ (state : ScanState) (u : Text), BeginsCode u → Reads state u gap
  kinds : ∀ l ∈ gap, l.kind = .whitespace ∨ l.kind = .lineContinuation
  begins : ∃ t, Lexeme.sourceText gap = ' ' :: t

theorem joint_reads (p : List Lexeme) : GapReads (joint p) := by
  refine ⟨fun state u hu => ?_, by simp [joint], [], rfl⟩
  exact reads_blankLexemes (t := [' ']) (by simp [Text.isBlank]) hu.not_blank

theorem continuation_reads {hanging newline : Text} (hnewline : newline.IsBreak)
    (hhanging : ∀ c ∈ hanging, Text.isBlank c = true) (p : List Lexeme) :
    GapReads (continuation hanging newline p) := by
  refine ⟨fun state u hu => ?_, ?_, '_' :: newline ++ Lexeme.sourceText (indentLexemes hanging p),
    by simp [continuation]⟩
  · have hafter : Reads ((state.next .whitespace).next .lineContinuation) u
        (indentLexemes hanging p) := by
      unfold indentLexemes
      split
      · trivial
      · exact reads_blankLexemes hhanging hu.not_blank
    have hhead : (Lexeme.sourceText (indentLexemes hanging p) ++ u).head? ≠ some '\n' := by
      unfold indentLexemes
      split
      · exact hu.head?_ne rfl
      · rw [sourceText_blankLexemes]
        cases hanging with
        | nil => exact hu.head?_ne rfl
        | cons c hanging =>
          intro he
          have hc := hhanging c (by simp)
          rw [show c = '\n' from Option.some.inj he] at hc
          cases hc
    refine reads_append.mpr ⟨⟨?_, ?_, trivial⟩, hafter⟩
    · exact (readsIn_blank rfl).mpr ⟨rfl, rfl⟩
    · exact readsIn_continuation rfl hnewline.ne_nil (hnewline.lineBreak hhead)
  · intro l hl
    rcases List.mem_append.mp hl with hl | hl
    · rcases List.mem_cons.mp hl with rfl | hl
      · exact .inl rfl
      · obtain rfl := List.mem_singleton.mp hl
        exact .inr rfl
    · exact .inl (indentLexemes_blank hanging p l hl)

/-- Without a blank before it only an underscore behind a blank of its own piece is loose. -/
theorem loose_cases {state : ScanState} {p : List Lexeme} (h : Loose state p) :
    Loose .initial p ∨ p = [⟨.punctuation, ['_']⟩] ∧ state.afterBlank = true := by
  obtain ⟨init, rfl, hb⟩ := h
  rcases ScanState.nextAll_afterBlank hb with ⟨rfl, hb⟩ | ⟨init', l, rfl, hl⟩
  · exact .inr ⟨rfl, hb⟩
  · refine .inl ⟨init' ++ [l], rfl, ?_⟩
    rw [ScanState.nextAll_append, ScanState.nextAll_cons, ScanState.nextAll_nil,
      ScanState.next_afterBlank]
    exact hl

/-- What stands on a line before its last piece is read whatever follows the line, and that piece
was read where the same statement had begun. -/
structure Ending (state : ScanState) (before p : List Lexeme) : Prop where
  reads : ∀ z, Reads state (Lexeme.sourceText (trimmed p) ++ z) before
  solid : Solid p
  piece : ∃ state' u, state'.statementStart = (state.nextAll before).statementStart ∧
    Reads state' u p ∧ (u.head?.any Text.isBlank = true ∨ u.EndsLine)
  lone : p = [⟨.punctuation, ['_']⟩] → (state.nextAll before).afterBlank = false

/-- A chain of pieces is read as before with other gaps between them. `hlone` says that the gaps let
an underscore stand by itself at the end of a line. -/
theorem ending_spaced {gap : List Lexeme → List Lexeme} {state : ScanState} {p : List Lexeme}
    {ps : List (List Lexeme)} (h : Chain state.statementStart (p :: ps))
    (hgap : ∀ q, GapReads (gap q))
    (hlone : ∀ q ∈ (p :: ps).getLast?, q = [⟨.punctuation, ['_']⟩] →
      (ps = [] → state.afterBlank = false) ∧
        ∀ state : ScanState, (state.nextAll (gap (trimmed q))).afterBlank = false) :
    ∃ before last, (p :: ps).getLast? = some last ∧
      spaced gap (trimmed p) (ps.map trimmed) = before ++ trimmed last ∧
      Ending state before last := by
  induction ps generalizing p state with
  | nil =>
    obtain ⟨state', u, hs, hp, hread, hu, -⟩ := h.first
    refine ⟨[], p, rfl, by simp, fun _ => trivial, hp, ⟨state', u, hs, hread, ?_⟩, ?_⟩
    · exact hu.imp_right fun h => h.2
    · exact fun he => (hlone p rfl he).1 rfl
  | cons q ps ih =>
    obtain ⟨state', u, hs, hp, hread, hu, hps⟩ := h.first
    have hu : u.head?.any Text.isBlank = true := by simpa using hu
    obtain ⟨hreads, hkinds, t, hbegins⟩ := hgap (trimmed q)
    have hnext : (state'.nextAll p).statementStart =
        ((state.nextAll (trimmed p)).nextAll (gap (trimmed q))).statementStart := by
      rw [ScanState.nextAll_statementStart hkinds, nextAll_trimmed]
      obtain ⟨l, p, rfl⟩ := List.exists_cons_of_ne_nil hp.ne_nil
      rw [ScanState.nextAll_cons, ScanState.nextAll_cons, ScanState.next_congr hs]
    rw [List.getLast?_cons_cons] at hlone ⊢
    obtain ⟨before, last, hlast, hspaced, hending⟩ := ih (hnext ▸ hps) fun r hr he => by
      refine ⟨?_, (hlone r hr he).2⟩
      rintro rfl
      obtain rfl : q = r := Option.some.inj hr
      exact (hlone q hr he).2 _
    have hcode : ∀ z, BeginsCode
        (Lexeme.sourceText before ++ (Lexeme.sourceText (trimmed last) ++ z)) := by
      intro z
      obtain ⟨_, _, -, hq, hqread, -⟩ := hps.first
      rw [← List.append_assoc, ← Lexeme.sourceText_append, ← hspaced, spaced,
        Lexeme.sourceText_append, List.append_assoc]
      exact hq.beginsCode hqread _
    refine ⟨trimmed p ++ (gap (trimmed q) ++ before), last, hlast, ?_, fun z => ?_, hending.solid,
      ?_, ?_⟩
    · rw [List.map_cons, spaced_cons, hspaced, List.append_assoc, List.append_assoc]
    · refine reads_append.mpr ⟨?_, reads_append.mpr ⟨hreads _ _ (hcode z), hending.reads z⟩⟩
      rw [Lexeme.sourceText_append, hbegins]
      exact reads_moved hread (.inl ⟨hu, rfl⟩) hs.symm hp.inner hp.last
        (.inl (Text.lineBreak_eq_zero rfl))
    · rw [ScanState.nextAll_append, ScanState.nextAll_append]
      exact hending.piece
    · rw [ScanState.nextAll_append, ScanState.nextAll_append]
      exact hending.lone

theorem repeated_blank {t : Text} (h : ∀ c ∈ t, Text.isBlank c = true) (n : Nat) :
    ∀ c ∈ Text.repeated t n, Text.isBlank c = true := by
  intro c hc
  obtain ⟨s, hs, hc⟩ := List.mem_flatten.mp hc
  rw [List.eq_of_mem_replicate hs] at hc
  exact h c hc

theorem Ending.behind {state : ScanState} {gap before p : List Lexeme}
    (h : Ending (state.nextAll gap) before p)
    (hgap : ∀ z,
      Reads state (Lexeme.sourceText before ++ (Lexeme.sourceText (trimmed p) ++ z)) gap) :
    Ending state (gap ++ before) p := by
  refine ⟨fun z => reads_append.mpr ⟨hgap z, h.reads z⟩, h.solid, ?_, ?_⟩
  · rw [ScanState.nextAll_append]
    exact h.piece
  · rw [ScanState.nextAll_append]
    exact h.lone

/-- A line that is laid out is read up to its last piece. -/
theorem ending_laid {options : LayoutOptions} {newline : Text} {ps : List (List Lexeme)}
    (hunit : ∀ c ∈ options.indentUnit, Text.isBlank c = true) (hnewline : newline.IsBreak)
    (h : Chain true ps) (hne : ps ≠ []) (depth : Nat) :
    ∃ before last, ps.getLast? = some last ∧
      laid options newline depth (ps.map trimmed) = before ++ trimmed last ∧
      Ending .initial before last := by
  have hindent := repeated_blank hunit depth
  have hhanging : ∀ c ∈ Text.repeated options.indentUnit depth ++ options.indentUnit,
      Text.isBlank c = true := by
    intro c hc
    rcases List.mem_append.mp hc with hc | hc
    · exact hindent c hc
    · exact hunit c hc
  cases ps with
  | nil => exact absurd rfl hne
  | cons p ps =>
    obtain ⟨_, _, -, hp, hread, -⟩ := h.first
    have hcode : ∀ {gap before last z},
        spaced gap (trimmed p) (ps.map trimmed) = before ++ trimmed last →
        BeginsCode (Lexeme.sourceText before ++ (Lexeme.sourceText (trimmed last) ++ z)) := by
      intro gap before last z hspaced
      rw [← List.append_assoc, ← Lexeme.sourceText_append, ← hspaced, spaced,
        Lexeme.sourceText_append, List.append_assoc]
      exact hp.beginsCode hread _
    have hstart : ∀ {gap : List Lexeme}, (∀ l ∈ gap, l.kind = .whitespace) →
        true = (ScanState.initial.nextAll gap).statementStart := by
      intro gap hgap
      rw [ScanState.nextAll_statementStart fun l hl => .inl (hgap l hl)]
      rfl
    simp only [List.map_cons, laid]
    split
    · rename_i hc
      obtain ⟨-, hc⟩ := hc
      have hchain := hstart (blankLexemes_blank (Text.repeated options.indentUnit depth)) ▸ h
      obtain ⟨before, last, hlast, hspaced, hending⟩ := ending_spaced hchain joint_reads <| by
        rintro q hq rfl
        refine absurd ?_ (collapsed?_last hc)
        rw [← List.map_cons, ← List.map_cons, List.getLast?_map, List.getLast?_map,
          Option.mem_def.mp hq]
        rfl
      refine ⟨_, last, hlast, by rw [hspaced, List.append_assoc], hending.behind fun z => ?_⟩
      exact reads_blankLexemes hindent (hcode hspaced).not_blank
    · have hchain := hstart
        (indentLexemes_blank (Text.repeated options.indentUnit depth) (trimmed p)) ▸ h
      obtain ⟨before, last, hlast, hspaced, hending⟩ :=
        ending_spaced hchain (continuation_reads hnewline hhanging) <| by
          rintro q hq rfl
          refine ⟨?_, fun state => rfl⟩
          rintro rfl
          obtain rfl := Option.some.inj hq
          rfl
      refine ⟨_, last, hlast, by rw [hspaced, List.append_assoc], hending.behind fun z => ?_⟩
      unfold indentLexemes
      split
      · trivial
      · exact reads_blankLexemes hindent (hcode hspaced).not_blank

/-- The last piece may end its line. -/
def Fits (z : Text) (ps : List (List Lexeme)) : Prop :=
  Reach.lineBreak z = 0 ∨ ∀ p ∈ ps.getLast?, ¬Loose .initial p

theorem Ending.reads_last {state : ScanState} {before p : List Lexeme} {z : Text}
    (h : Ending state before p) (hz : z.EndsLine)
    (hloose : Reach.lineBreak z = 0 ∨ ¬Loose .initial p) :
    Reads state z (before ++ trimmed p) := by
  obtain ⟨state', u, hs, hread, hu⟩ := h.piece
  have hmoves : Text.Moves u z := by
    rcases hu with hu | hu
    · exact .inl ⟨hu, hz.endsPiece⟩
    · exact .inr ⟨hu, hz⟩
  refine reads_append.mpr ⟨h.reads z, ?_⟩
  refine reads_moved hread hmoves hs.symm h.solid.inner h.solid.last ?_
  refine hloose.imp_right fun hn hp => ?_
  rcases loose_cases hp with hp | ⟨hp, hb⟩
  · exact hn hp
  · rw [h.lone hp] at hb
    cases hb

/-- No whitespace is read where whitespace follows. -/
theorem not_blank_before_blank {state : ScanState} {u : Text} {q : List Lexeme} {w : Lexeme}
    (h : Reads state u (q ++ [w])) (hw : w.kind = .whitespace) :
    ∀ l ∈ q.getLast?, l.kind ≠ .whitespace := by
  intro l hl hk
  obtain ⟨init, rfl⟩ := List.getLast?_eq_some_iff.mp (Option.mem_def.mp hl)
  obtain ⟨hq, hwread, -⟩ := reads_append.mp h
  obtain ⟨-, hlread, -⟩ := reads_append.mp hq
  obtain ⟨c, cs, htext, -⟩ := id hlread
  obtain ⟨k, text⟩ := l
  obtain rfl : text = c :: cs := htext
  have hc : Text.isBlank c = true := by simpa using (readsIn_layout hlread).1 hk
  have hstop := (Reach.many_eq_length.mp ((readsIn_blank hc).mp hlread).2).2
  obtain ⟨d, ds, hwtext, -⟩ := id hwread
  have hd : Text.isBlank d = true := by
    have hblank := (readsIn_layout hwread).1 hw
    rw [hwtext] at hblank
    simpa using hblank
  simp [hwtext, hd] at hstop

/-- An underscore behind a blank of its piece comes last, and what stands before it is read whatever
follows the line. -/
theorem Ending.reads_loose {state : ScanState} {before p : List Lexeme}
    (h : Ending state before p) (hp : Loose .initial p) :
    ∃ ls, before ++ trimmed p = ls ++ [⟨.punctuation, ['_']⟩] ∧
      (∀ z, Reads state ('_' :: z) ls) ∧ (state.nextAll ls).afterBlank = true ∧
      ∃ l ∈ ls, l.kind ≠ .whitespace ∧ l.kind ≠ .lineContinuation := by
  obtain ⟨init, rfl, hb⟩ := hp
  obtain ⟨hnil, hb⟩ | ⟨q, w, rfl, hw⟩ := ScanState.nextAll_afterBlank hb
  · cases hb
  obtain ⟨state', u, hs, hread, -⟩ := h.piece
  have hsolid := h.solid
  have htrim : trimmed (q ++ [w] ++ [⟨.punctuation, ['_']⟩]) =
      trimmed q ++ [w] ++ [⟨.punctuation, ['_']⟩] := by
    have hwtrim : w.trim = w := Lexeme.trim_of_ne (by simp [hw])
    rw [trimmed, List.map_append, List.map_append, List.map_singleton, hwtrim]
    rfl
  obtain ⟨hinit, -⟩ := reads_append.mp hread
  obtain ⟨hq, hwread, -⟩ := reads_append.mp hinit
  obtain ⟨c, cs, hwtext, -⟩ := id hwread
  have hc : Text.isBlank c = true := by
    have hblank := (readsIn_layout hwread).1 hw
    rw [hwtext] at hblank
    simpa using hblank
  refine ⟨before ++ trimmed q ++ [w], by rw [htrim]; simp, fun z => ?_, ?_, ?_⟩
  · have hbefore := h.reads z
    rw [htrim] at hbefore
    refine reads_append.mpr ⟨reads_append.mpr ⟨?_, ?_⟩, ?_, trivial⟩
    · simpa using hbefore
    · refine reads_moved hq (.inl ⟨?_, ?_⟩) hs.symm
        (fun l hl => hsolid.inner l (by simp [hl])) (not_blank_before_blank hinit hw)
        (.inl ?_)
      · simp [hwtext, hc]
      · simp [Text.EndsPiece, Text.isEdge, hwtext, hc]
      · refine Text.lineBreak_eq_zero ?_
        simp [hwtext, Text.not_isLineBreak_of_isBlank hc]
    · obtain ⟨k, text⟩ := w
      obtain rfl : text = c :: cs := hwtext
      have hmany := (readsIn_blank hc).mp hwread
      rw [Reach.many_eq_length] at hmany
      refine (readsIn_blank hc).mpr ⟨hmany.1, ?_⟩
      rw [Reach.many_eq_length]
      exact ⟨hmany.2.1, rfl⟩
  · rw [ScanState.nextAll_append, ScanState.nextAll_cons, ScanState.nextAll_nil,
      ScanState.next_afterBlank]
    exact hw
  · cases q with
    | nil => exact absurd hw (hsolid.first w rfl)
    | cons l q =>
      refine ⟨l.trim, by simp [trimmed], ?_⟩
      rw [kind_trim]
      exact ⟨hsolid.first l rfl, (hsolid.inner l (by simp)).2⟩

/-- A line is read as it was laid out. -/
theorem reads_laid {options : LayoutOptions} {newline z : Text} {ps : List (List Lexeme)}
    (hunit : ∀ c ∈ options.indentUnit, Text.isBlank c = true) (hnewline : newline.IsBreak)
    (hz : z.EndsLine) (h : Chain true ps) (hfits : Fits z ps) (depth : Nat) :
    Reads .initial z (laid options newline depth (ps.map trimmed)) := by
  by_cases hne : ps = []
  · rw [hne]
    trivial
  · obtain ⟨before, last, hlast, hlaid, hending⟩ := ending_laid hunit hnewline h hne depth
    rw [hlaid]
    exact hending.reads_last hz (hfits.imp_right fun hn => hn last hlast)

end VbaWorkbench.Layout
