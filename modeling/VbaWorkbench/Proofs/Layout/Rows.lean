import VbaWorkbench.Proofs.Layout.Indentation
import VbaWorkbench.Proofs.Layout.SameCode
import VbaWorkbench.Proofs.Name.Renames
import VbaWorkbench.Proofs.Token.Neighbours
import VbaWorkbench.Proofs.Token.PhysicalLines

namespace VbaWorkbench

/-- The line has whitespace and continuations only. -/
def Line.isHollow (line : Line) : Bool :=
  line.tokens.all Token.isGap

theorem Line.isHollow_of_isBlank {line : Line} (h : line.isBlank = true) :
    line.isHollow = true := by
  refine List.all_eq_true.mpr fun t ht => Token.isGap_iff.mpr (.inl ?_)
  exact eq_of_beq (List.all_eq_true.mp h t ht)

section Texts

variable {s t : Text}

theorem Text.Inline.of_lower_eq (h : Text.lowerAscii s = Text.lowerAscii t) (ht : t.Inline) :
    s.Inline where
  ne_nil := by
    rintro rfl
    exact ht.ne_nil (List.map_eq_nil_iff.mp h.symm)
  inside c hc := by
    have hlow : c.toLower ∈ Text.lowerAscii t := h ▸ List.mem_map_of_mem hc
    obtain ⟨d, hd, hcd⟩ := List.mem_map.mp hlow
    rw [← Text.isLineBreak_caseBlind c, ← hcd, Text.isLineBreak_caseBlind d]
    exact ht.inside d hd

theorem inline_trimRight (h : ∀ c ∈ t, Text.isLineBreak c = false)
    (hshown : ∃ c ∈ t, Text.isBlank c = false) : (Text.trimRight Text.isBlank t).Inline := by
  obtain ⟨blanks, ht, hblanks⟩ := Text.trimRight_append Text.isBlank t
  generalize Text.trimRight Text.isBlank t = trimmed at ht ⊢
  subst ht
  refine ⟨?_, (List.forall_mem_append.mp h).1⟩
  rintro rfl
  obtain ⟨c, hc, hcode⟩ := hshown
  rw [hblanks c hc] at hcode
  cases hcode

theorem inline_sourceText {ls : List Lexeme} (hne : ls ≠ []) (h : ∀ l ∈ ls, l.text.Inline) :
    (Lexeme.sourceText ls).Inline := by
  obtain ⟨l, ls, rfl⟩ := List.exists_cons_of_ne_nil hne
  obtain ⟨hl, hls⟩ := List.forall_mem_cons.mp h
  rw [Lexeme.sourceText_cons]
  refine hl.append fun c hc => ?_
  obtain ⟨m, hm, hc⟩ := List.mem_flatMap.mp hc
  exact (hls m hm).inside c hc

end Texts

section Plans

/-- New names have no line breaks. -/
def RenamePlan.Inline (plan : RenamePlan) : Prop :=
  ∀ r ∈ plan.renames, r.target.Inline

theorem isNamePart_of_isLineBreak {c : Char} (h : Text.isLineBreak c = true) :
    isNamePart c = false := by
  rcases Text.isLineBreak_iff.mp h with rfl | rfl <;> decide

theorem TypeTag.Given.inside {tag : Text} (h : TypeTag.Given tag) :
    ∀ c ∈ tag, Text.isLineBreak c = false := by
  have hsmall : "abcdefghijklmnopqrstuvwxyz".toList.all (Text.isLineBreak · == false) = true := by
    decide
  exact fun c hc => beq_iff_eq.mp (List.all_eq_true.mp hsmall c (h.small.2 c hc))

theorem RenamePlan.inline_ofLines (style : NameStyle) (source : Text) :
    (ofLines style (Line.ofTokens (tokenize source))).Inline := fun _ hr =>
  ⟨target_ne_nil hr, forall_target Name.caseKept_isLineBreak
    (fun hname => hname.forall isNamePart_of_isLineBreak) (fun htag => htag.inside) hr⟩

theorem RenamePlan.Inline.spelled {plan : RenamePlan} (hplan : plan.Inline) {name : Text}
    (h : name.Inline) : (plan.spelled name).Inline := by
  cases hfind : plan.renames.find? (·.key == Name.key name) with
  | none => rwa [spelled_of_none (by rw [renamed?_eq, hfind]; rfl)]
  | some r =>
    have htarget := hplan r (List.mem_of_find?_eq_some hfind)
    rw [RenamePlan.spelled, renamed?_eq, hfind, Option.map_some, Option.getD_some]
    exact htarget.append fun c hc => h.inside c (List.mem_of_mem_drop hc)

end Plans

/-- The text of the lexeme is on one line, and that of a comment is more than blanks. -/
structure Lexeme.Shown (l : Lexeme) : Prop where
  inline : l.text.Inline
  comment : l.kind = .comment → ∃ c ∈ l.text, Text.isBlank c = false

theorem Lexeme.ReadsIn.shown {state : ScanState} {l : Lexeme} {next : Text}
    (h : l.ReadsIn state next) (hn : l.kind ≠ .newline) (hk : l.kind ≠ .lineContinuation) :
    l.Shown := by
  obtain ⟨c, cs, -, htext, -, -, hblank⟩ := trim_begins h
  refine ⟨⟨by simp [htext], no_lineBreak_inside h hn hk⟩, fun hcomment => ⟨c, ?_, ?_⟩⟩
  · rw [htext]
    exact List.mem_cons_self
  · exact hblank (by simp [hcomment])

namespace Layout

section Pieces

variable {options : LayoutOptions} {plan : RenamePlan}

/-- The lexemes of a line in their new spelling. -/
def respelled (options : LayoutOptions) (plan : RenamePlan) (line : Line) : List Lexeme :=
  (respellAll options plan false line.tokens).map (·.toLexeme)

theorem exists_of_mem_respellAll {member : Bool} {tokens : List Token} {t : Token}
    (h : t ∈ respellAll options plan member tokens) :
    ∃ u ∈ tokens, ∃ member, t = respell options plan member u := by
  induction tokens generalizing member with
  | nil => cases h
  | cons u tokens ih =>
    rcases List.mem_cons.mp h with rfl | h
    · exact ⟨u, List.mem_cons_self, member, rfl⟩
    · obtain ⟨v, hv, hmember⟩ := ih h
      exact ⟨v, List.mem_cons_of_mem _ hv, hmember⟩

theorem shown_respell (hplan : plan.Inline) {t : Token} (h : t.toLexeme.Shown) (member : Bool) :
    (respell options plan member t).toLexeme.Shown := by
  unfold respell
  split
  · rename_i hk
    exact ⟨.of_lower_eq (KeywordStyle.lowerAscii_apply ..) h.inline, by simp [hk]⟩
  · rename_i hk
    exact ⟨hplan.spelled h.inline, by simp [hk]⟩
  · exact h

/-- Between its continuations a line is shown. -/
theorem shown_respelled (hplan : plan.Inline) {line : Line} (h : line.bare.WellRead) :
    ∀ l ∈ respelled options plan line, l.kind ≠ .lineContinuation → l.Shown := by
  intro l hl hk
  obtain ⟨t, ht, rfl⟩ := List.mem_map.mp hl
  obtain ⟨u, hu, member, rfl⟩ := exists_of_mem_respellAll ht
  rw [kind_respell] at hk
  obtain ⟨⟨_, -, hreads⟩, hnl⟩ := h
  have hmem : u.toLexeme ∈ line.bare.lexemes := List.mem_map_of_mem hu
  obtain ⟨state, next, hread⟩ := hreads.forall _ hmem
  exact shown_respell hplan (hread.shown (hnl _ hmem) hk) member

theorem pieceText_eq_nil {segment : List Lexeme} (h : coreLexemes segment = []) :
    pieceText segment = [] := by
  rw [pieceText, h]
  rfl

theorem inline_pieceText {segment : List Lexeme} (hne : coreLexemes segment ≠ [])
    (h : ∀ l ∈ segment, l.Shown) : (pieceText segment).Inline := by
  have hcore : ∀ l ∈ coreLexemes segment, l.Shown := fun l hl => h l (mem_of_mem_core hl)
  have htext := inline_sourceText hne fun l hl => (hcore l hl).inline
  simp only [pieceText]
  split
  · rename_i hlast
    obtain ⟨l, hl, hk⟩ := (Option.any_eq_true _ _).mp hlast
    have hmem := List.mem_of_getLast? hl
    obtain ⟨c, hc, hblank⟩ := (hcore l hmem).comment (eq_of_beq hk)
    exact inline_trimRight htext.inside ⟨c, List.mem_flatMap.mpr ⟨l, hmem, hc⟩, hblank⟩
  · exact htext

theorem code_respelled (options : LayoutOptions) (plan : RenamePlan) (line : Line) :
    code (respelled options plan line) = [] ↔ line.isHollow = true := by
  have hkinds := kinds_respellAll options plan false line.tokens
  have hgaps : ∀ tokens : List Token, code (tokens.map (·.toLexeme)) = [] ↔
      ∀ k ∈ tokens.map (·.kind), k = .whitespace ∨ k = .lineContinuation := by
    intro tokens
    simp [code_eq_nil_iff]
  rw [respelled, hgaps, hkinds, ← hgaps, code_eq_nil_iff, Line.isHollow]
  simp [Token.isGap_iff]

/-- Every piece has something on its one line, and only a line without code has no piece. -/
theorem pieces_spec (options : LayoutOptions) (hplan : plan.Inline) {line : Line}
    (h : line.bare.WellRead) :
    (∀ p ∈ pieces options plan line, p.Inline) ∧
      (pieces options plan line = [] ↔ line.isHollow = true) := by
  have hshown : ∀ segment ∈ cut (respelled options plan line), ∀ l ∈ segment, l.Shown := by
    intro segment hsegment l hl
    obtain ⟨hmem, hk⟩ := mem_of_mem_splitOnP hsegment hl
    exact shown_respelled hplan h l hmem (by simpa using hk)
  have hpiece : ∀ segment ∈ cut (respelled options plan line),
      pieceText segment = [] ↔ coreLexemes segment = [] := fun segment hsegment =>
    ⟨fun hnil => by_contra fun hne => (inline_pieceText hne (hshown _ hsegment)).ne_nil hnil,
      pieceText_eq_nil⟩
  have hpieces := pieces_respelled options plan line
  rw [← respelled] at hpieces
  refine ⟨fun p hp => ?_, ?_⟩
  · rw [hpieces] at hp
    obtain ⟨hp, hne⟩ := List.mem_filter.mp hp
    obtain ⟨segment, hsegment, rfl⟩ := List.mem_map.mp hp
    refine inline_pieceText (fun hnil => ?_) (hshown _ hsegment)
    rw [pieceText_eq_nil hnil] at hne
    cases hne
  · have hcores : pieces options plan line = [] ↔ cores (respelled options plan line) = [] := by
      rw [hpieces, cores, List.filter_eq_nil_iff, List.filter_eq_nil_iff]
      simpa using forall₂_congr hpiece
    rw [hcores, cores_eq_nil_iff, code_respelled]

end Pieces

section Emission

variable {options : LayoutOptions} {newline indent : Text}

/-- A line as it is emitted: rows with something on each. -/
def IsRows (newline text : Text) : Prop :=
  ∃ rows last, text = Text.stacked newline rows last ∧ (∀ row ∈ rows, row.Inline) ∧ last.Inline

theorem isRows_of_inline {text : Text} (h : text.Inline) : IsRows newline text :=
  ⟨[], text, rfl, by simp, h⟩

theorem inline_indented (hindent : ∀ c ∈ indent, Text.isLineBreak c = false) {p : Text}
    (hp : p.Inline) : (indented indent p).Inline := by
  unfold indented
  split
  · exact hp
  · exact hp.after hindent

theorem inline_joined {p : Text} {ps : List Text} (h : ∀ q ∈ p :: ps, q.Inline) :
    (Text.joined [' '] (p :: ps)).Inline := by
  induction ps generalizing p with
  | nil => exact h p List.mem_cons_self
  | cons q ps ih =>
    obtain ⟨hp, hps⟩ := List.forall_mem_cons.mp h
    have hspaced : (p ++ [' ']).Inline := hp.append (by simp [Text.isLineBreak])
    exact hspaced.append (ih hps).inside

/-- Each continuation ends a row, and its piece begins the next one. -/
theorem isRows_continued (hindent : ∀ c ∈ indent, Text.isLineBreak c = false) {front : Text}
    (hfront : front.Inline) {ps : List Text} (h : ∀ p ∈ ps, p.Inline) :
    IsRows newline (front ++ continued indent newline ps) := by
  induction ps generalizing front with
  | nil =>
    rw [continued, List.flatMap_nil, List.append_nil]
    exact isRows_of_inline hfront
  | cons p ps ih =>
    obtain ⟨hp, hps⟩ := List.forall_mem_cons.mp h
    obtain ⟨rows, last, htext, hrows, hlast⟩ := ih (inline_indented hindent hp) hps
    have hrow : (front ++ " _".toList).Inline :=
      hfront.append (by simp [Text.isLineBreak])
    refine ⟨(front ++ " _".toList) :: rows, last, ?_, List.forall_mem_cons.mpr ⟨hrow, hrows⟩, hlast⟩
    rw [Text.stacked_cons, ← htext]
    simp [continued]

theorem isRows_emit (hunit : ∀ c ∈ options.indentUnit, Text.isBlank c = true) (depth : Nat)
    {pieces : List Text} (hne : pieces ≠ []) (h : ∀ p ∈ pieces, p.Inline) :
    IsRows newline (emit options newline depth pieces) := by
  have hindent : ∀ c ∈ Text.repeated options.indentUnit depth, Text.isLineBreak c = false :=
    fun c hc => Text.not_isLineBreak_of_isBlank (repeated_blank hunit depth c hc)
  have hhanging : ∀ c ∈ Text.repeated options.indentUnit depth ++ options.indentUnit,
      Text.isLineBreak c = false := List.forall_mem_append.mpr
    ⟨hindent, fun c hc => Text.not_isLineBreak_of_isBlank (hunit c hc)⟩
  match pieces with
  | [] => exact absurd rfl hne
  | [p] => exact isRows_of_inline (inline_indented hindent (h p List.mem_cons_self))
  | p :: q :: rest =>
    simp only [emit]
    cases hc : collapsed? options (Text.repeated options.indentUnit depth) (p :: q :: rest) with
    | some text =>
      rw [Option.getD_some, collapsed?_eq hc]
      exact isRows_of_inline ((inline_joined h).after hindent)
    | none =>
      obtain ⟨hp, hrest⟩ := List.forall_mem_cons.mp h
      rw [Option.getD_none]
      exact isRows_continued hhanging (inline_indented hindent hp) hrest

end Emission

/-- The rows of lines: those that end with a line break, and the last one. Behind a run of blank
lines blank ones are dropped, and a line that has nothing but continuations leaves an empty row. -/
inductive Stacks (limit : Nat) : Nat → List Line → List Text → Text → Prop
  | blankEnd {blanks : Nat} {line : Line} :
      line.isBlank = true → line.newline = none → Stacks limit blanks [line] [] []
  | hollowEnd {blanks : Nat} {line : Line} :
      line.isBlank = false → line.isHollow = true → line.newline = none →
      Stacks limit blanks [line] [] []
  | codeEnd {blanks : Nat} {line : Line} {rows : List Text} {last : Text} :
      line.isHollow = false → line.newline = none → (∀ row ∈ rows, row.Inline) → last.Inline →
      Stacks limit blanks [line] rows last
  | keep {blanks : Nat} {line : Line} {lines : List Line} {rows : List Text} {last : Text} :
      line.isBlank = true → line.newline.isSome = true → blanks < limit →
      Stacks limit (blanks + 1) lines rows last →
      Stacks limit blanks (line :: lines) ([] :: rows) last
  | drop {blanks : Nat} {line : Line} {lines : List Line} {rows : List Text} {last : Text} :
      line.isBlank = true → line.newline.isSome = true → limit ≤ blanks →
      Stacks limit (blanks + 1) lines rows last → Stacks limit blanks (line :: lines) rows last
  | hollow {blanks : Nat} {line : Line} {lines : List Line} {rows : List Text} {last : Text} :
      line.isBlank = false → line.isHollow = true → line.newline.isSome = true →
      Stacks limit 0 lines rows last → Stacks limit blanks (line :: lines) ([] :: rows) last
  | code {blanks : Nat} {line : Line} {lines : List Line} {rows more : List Text}
      {row last : Text} :
      line.isHollow = false → line.newline.isSome = true → (∀ r ∈ rows, r.Inline) → row.Inline →
      Stacks limit 0 lines more last →
      Stacks limit blanks (line :: lines) (rows ++ row :: more) last

section Stacking

variable {options : LayoutOptions} {plan : RenamePlan} {newline : Text}

/-- A line has nothing to write, or writes rows. -/
theorem emit_cases (hunit : ∀ c ∈ options.indentUnit, Text.isBlank c = true) (hplan : plan.Inline)
    {line : Line} (h : line.bare.WellRead) (depth : Nat) :
    line.isHollow = true ∧ emit options newline depth (pieces options plan line) = [] ∨
      line.isHollow = false ∧
        IsRows newline (emit options newline depth (pieces options plan line)) := by
  obtain ⟨hpieces, hnil⟩ := pieces_spec options hplan h
  cases hhollow : line.isHollow with
  | true =>
    rw [hnil.mpr hhollow]
    exact .inl ⟨rfl, rfl⟩
  | false =>
    refine .inr ⟨rfl, isRows_emit hunit depth (fun hpiece => ?_) hpieces⟩
    rw [hnil.mp hpiece] at hhollow
    cases hhollow

theorem stacks_of_formats (hunit : ∀ c ∈ options.indentUnit, Text.isBlank c = true)
    (hplan : plan.Inline) {tracker : Tracker} {blanks : Nat} {lines : List Line} {text : Text}
    (h : Formats options plan newline tracker blanks lines text)
    (hlines : ∀ line ∈ lines, line.bare.WellRead) :
    ∃ rows last, Stacks options.maxBlankLines blanks lines rows last ∧
      text = Text.stacked newline rows last := by
  induction h with
  | blankEnd hblank hnone => exact ⟨[], [], .blankEnd hblank hnone, rfl⟩
  | @codeEnd _ _ _ depth line hblank hnone =>
    rcases emit_cases hunit hplan (hlines line List.mem_cons_self) depth with
      ⟨hhollow, hnil⟩ | ⟨hcode, rows, last, htext, hrows, hlast⟩
    · exact ⟨[], [], .hollowEnd hblank hhollow hnone, hnil⟩
    · exact ⟨rows, last, .codeEnd hcode hnone hrows hlast, htext⟩
  | keep hblank hsome hlt _ ih =>
    obtain ⟨rows, last, hstacks, rfl⟩ := ih (List.forall_mem_cons.mp hlines).2
    exact ⟨[] :: rows, last, .keep hblank hsome hlt hstacks, by simp [Text.stacked_cons]⟩
  | drop hblank hsome hle _ ih =>
    obtain ⟨rows, last, hstacks, rfl⟩ := ih (List.forall_mem_cons.mp hlines).2
    exact ⟨rows, last, .drop hblank hsome hle hstacks, rfl⟩
  | @code _ _ _ depth line _ _ hblank hsome _ _ ih =>
    obtain ⟨hline, hrest⟩ := List.forall_mem_cons.mp hlines
    obtain ⟨more, last, hstacks, rfl⟩ := ih hrest
    rcases emit_cases hunit hplan hline depth with
      ⟨hhollow, hnil⟩ | ⟨hcode, rows, row, htext, hrows, hrow⟩
    · rw [hnil]
      exact ⟨[] :: more, last, .hollow hblank hhollow hsome hstacks, by simp [Text.stacked_cons]⟩
    · rw [htext]
      exact ⟨_, last, .code hcode hsome hrows hrow hstacks, (Text.stacked_append ..).symm⟩

/-- No row has a line break of its own. -/
theorem Stacks.inside {limit blanks : Nat} {lines : List Line} {rows : List Text} {last : Text}
    (h : Stacks limit blanks lines rows last) :
    (∀ row ∈ rows, ∀ c ∈ row, Text.isLineBreak c = false) ∧
      ∀ c ∈ last, Text.isLineBreak c = false := by
  have hnil : ∀ c ∈ ([] : Text), Text.isLineBreak c = false := by simp
  induction h with
  | blankEnd | hollowEnd => exact ⟨by simp, hnil⟩
  | codeEnd _ _ hrows hlast => exact ⟨fun row hrow => (hrows row hrow).inside, hlast.inside⟩
  | keep _ _ _ _ ih => exact ⟨List.forall_mem_cons.mpr ⟨hnil, ih.1⟩, ih.2⟩
  | drop _ _ _ _ ih => exact ih
  | hollow _ _ _ _ ih => exact ⟨List.forall_mem_cons.mpr ⟨hnil, ih.1⟩, ih.2⟩
  | code _ _ hrows hrow _ ih =>
    refine ⟨List.forall_mem_append.mpr ⟨fun r hr => (hrows r hr).inside, ?_⟩, ih.2⟩
    exact List.forall_mem_cons.mpr ⟨hrow.inside, ih.1⟩

/-- The output of a source is made of rows. -/
theorem stacks_format {source out : Text}
    (hunit : ∀ c ∈ options.indentUnit, Text.isBlank c = true)
    (h : format options source = .ok out) :
    ∃ rows last,
      Stacks options.maxBlankLines 0 (Line.ofTokens (tokenize source)) rows last ∧
      out = Text.stacked (newlineOf (tokenize source)) rows last :=
  stacks_of_formats hunit (RenamePlan.inline_ofLines options.nameStyle source)
    (formats_of_formatLines h (ruled_ofTokens source).1)
    fun line hline => (wellRead_ofTokens source line hline).1

end Stacking

end Layout
end VbaWorkbench
