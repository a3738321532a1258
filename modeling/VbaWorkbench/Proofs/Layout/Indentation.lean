import Mathlib.Data.List.DropRight
import VbaWorkbench.Proofs.Layout.Offsets
import VbaWorkbench.Proofs.Token.Indentation

namespace VbaWorkbench

/-- The tokens but for the whitespace at the start of physical lines. -/
abbrev Token.unindented (begins : Bool) (tokens : List Token) : List Token :=
  VbaWorkbench.unindented (fun t : Token => t.kind) begins tokens

/-- The line but for the whitespace at the start of its physical lines. -/
def Line.unindented (line : Line) : Line :=
  { line with tokens := Token.unindented true line.tokens }

namespace Layout

theorem significant_unindented (begins : Bool) (tokens : List Token) :
    significant (Token.unindented begins tokens) = significant tokens :=
  filter_unindented (fun t ht => by rw [Token.isSignificant, ht]) begins tokens

theorem isBlank_unindented (line : Line) : line.unindented.isBlank = line.isBlank := by
  have hfilter : ∀ line : Line,
      line.isBlank = (line.tokens.filter (!·.kind == .whitespace)).isEmpty := by
    intro line
    rw [Bool.eq_iff_iff]
    simp [Line.isBlank]
  rw [hfilter, Line.unindented, filter_unindented (by simp), ← hfilter]

theorem newlineOf_unindented (begins : Bool) (tokens more : List Token) :
    newlineOf (Token.unindented begins tokens ++ more) = newlineOf (tokens ++ more) := by
  rw [newlineOf, ← List.head?_filter, List.filter_append,
    filter_unindented (fun t ht => by simp [ht]), ← List.filter_append, List.head?_filter,
    newlineOf]

theorem lineDepth_unindented (tracker : Tracker) (line : Line) :
    lineDepth tracker line.unindented = lineDepth tracker line := by
  rw [← lineDepth_significant, Line.unindented, significant_unindented, lineDepth_significant]

theorem kind_respell (options : LayoutOptions) (plan : RenamePlan) (member : Bool) (t : Token) :
    (respell options plan member t).kind = t.kind := by
  unfold respell
  split <;> rfl

theorem kinds_respellAll (options : LayoutOptions) (plan : RenamePlan) (member : Bool)
    (tokens : List Token) :
    (respellAll options plan member tokens).map (·.kind) = tokens.map (·.kind) := by
  induction tokens generalizing member with
  | nil => rfl
  | cons t tokens ih => rw [respellAll, List.map_cons, kind_respell, ih, List.map_cons]

theorem respellAll_unindented (options : LayoutOptions) (plan : RenamePlan) (member begins : Bool)
    (tokens : List Token) :
    respellAll options plan member (Token.unindented begins tokens) =
      Token.unindented begins (respellAll options plan member tokens) := by
  induction tokens generalizing member begins with
  | nil => rfl
  | cons t tokens ih =>
    simp only [Token.unindented, unindented, respellAll, kind_respell]
    split
    · rename_i h
      rw [if_pos (.inl h.2)]
      exact ih member begins
    · rw [respellAll]
      exact congrArg _ (ih _ _)

/-- Indentation stands at the front of the segments between continuations. -/
theorem splitOnP_unindented {tokens : List Token} (h : ∀ t ∈ tokens, t.kind ≠ .newline)
    (begins : Bool) :
    ∃ first rest, tokens.splitOnP (·.kind == .lineContinuation) = first :: rest ∧
      (Token.unindented begins tokens).splitOnP (·.kind == .lineContinuation) =
        (if begins then first.dropWhile (·.kind == .whitespace) else first) ::
          rest.map (List.dropWhile (·.kind == .whitespace)) := by
  induction tokens generalizing begins with
  | nil => exact ⟨[], [], rfl, by simp [unindented]⟩
  | cons t tokens ih =>
    obtain ⟨ht, htokens⟩ := List.forall_mem_cons.mp h
    rw [Token.unindented, unindented]
    by_cases hbegins : begins = true ∧ t.kind = .whitespace
    · obtain ⟨rfl, hk⟩ := hbegins
      obtain ⟨first, rest, hsplit, hunindented⟩ := ih htokens true
      refine ⟨t :: first, rest, ?_, ?_⟩
      · rw [List.splitOnP_cons_eq_if_modifyHead, if_neg (by simp [hk]), hsplit]
        rfl
      · rw [if_pos ⟨rfl, hk⟩, hunindented]
        simp [hk]
    · rw [if_neg hbegins, List.splitOnP_cons_eq_if_modifyHead, List.splitOnP_cons_eq_if_modifyHead]
      by_cases hk : t.kind = .lineContinuation
      · obtain ⟨first, rest, hsplit, hunindented⟩ := ih htokens true
        refine ⟨[], first :: rest, by rw [if_pos (by simp [hk]), hsplit], ?_⟩
        rw [if_pos (by simp [hk]), hk, show TokenKind.lineContinuation.breaksLine = true from rfl,
          hunindented]
        simp
      · have hbreaks : t.kind.breaksLine = false := TokenKind.breaksLine_eq_false.mpr ⟨ht, hk⟩
        obtain ⟨first, rest, hsplit, hunindented⟩ := ih htokens false
        refine ⟨t :: first, rest, by rw [if_neg (by simp [hk]), hsplit]; rfl, ?_⟩
        rw [if_neg (by simp [hk]), hbreaks, hunindented]
        cases begins with
        | false => rfl
        | true =>
          have hdrop : (t :: first).dropWhile (·.kind == .whitespace) = t :: first :=
            List.dropWhile_cons_of_neg fun hw => hbegins ⟨rfl, eq_of_beq hw⟩
          rw [if_pos rfl, hdrop]
          rfl

theorem piece_dropWhile (segment : List Token) :
    piece (segment.dropWhile (·.kind == .whitespace)) = piece segment := by
  have hcore : core (segment.dropWhile (·.kind == .whitespace)) = core segment := by
    simp only [core, List.dropWhile_idempotent]
  rw [piece, hcore, piece]

theorem pieces_unindented (options : LayoutOptions) (plan : RenamePlan) {line : Line}
    (h : ∀ t ∈ line.tokens, t.kind ≠ .newline) :
    pieces options plan line.unindented = pieces options plan line := by
  have hpiece : piece ∘ List.dropWhile (fun t : Token => t.kind == .whitespace) = piece :=
    funext piece_dropWhile
  have hkinds : ∀ t ∈ respellAll options plan false line.tokens, t.kind ≠ .newline := by
    intro t ht
    have hmem := List.mem_map_of_mem (f := fun t : Token => t.kind) ht
    rw [kinds_respellAll] at hmem
    obtain ⟨t', ht', hkind⟩ := List.mem_map.mp hmem
    rw [← hkind]
    exact h t' ht'
  obtain ⟨first, rest, hsplit, hunindented⟩ := splitOnP_unindented hkinds true
  simp only [pieces, Line.segments, Line.unindented, respellAll_unindented]
  rw [hsplit, hunindented]
  simp only [if_true, List.map_cons, List.map_map, hpiece, piece_dropWhile]

theorem formatLines_unindented (options : LayoutOptions) (plan : RenamePlan) (newline : Text)
    (tracker : Tracker) (blanks : Nat) {lines : List Line}
    (h : ∀ line ∈ lines, ∀ t ∈ line.tokens, t.kind ≠ .newline) :
    formatLines options plan newline tracker blanks (lines.map Line.unindented) =
      formatLines options plan newline tracker blanks lines := by
  induction lines generalizing tracker blanks with
  | nil => rfl
  | cons line lines ih =>
    obtain ⟨hline, hlines⟩ := List.forall_mem_cons.mp h
    have hended : ∀ text, ended newline line.unindented text = ended newline line text :=
      fun _ => rfl
    have hsome : line.unindented.newline.isSome = line.newline.isSome := rfl
    rw [List.map_cons, formatLines, formatLines, isBlank_unindented, lineDepth_unindented]
    simp only [hended, hsome, pieces_unindented options plan hline, ih _ _ hlines]

end Layout

namespace Mention

/-- Names are declared in what is significant. -/
theorem ofStatements_significant (body : Option Body) (statements : List (List Token)) :
    ofStatements body (statements.map significant) = ofStatements body statements := by
  induction statements generalizing body with
  | nil => rfl
  | cons statement statements ih =>
    rw [List.map_cons, ofStatements, Layout.significant_significant, ofStatements]
    simp only [ih]

theorem ofLines_unindented (lines : List Line) :
    ofLines (lines.map Line.unindented) = ofLines lines := by
  have hline : ∀ line : Line,
      line.unindented.statements.map significant = line.statements.map significant := by
    intro line
    rw [← Layout.statements_significant, Line.unindented, Layout.significant_unindented,
      Layout.statements_significant]
  have hstatements : ((lines.map Line.unindented).flatMap Line.statements).map significant =
      (lines.flatMap Line.statements).map significant := by
    rw [List.flatMap_map, List.map_flatMap, List.map_flatMap]
    exact List.flatMap_congr fun line _ => hline line
  rw [ofLines, ← ofStatements_significant, hstatements, ofStatements_significant, ofLines]

end Mention

theorem RenamePlan.ofLines_unindented (style : NameStyle) (lines : List Line) :
    ofLines style (lines.map Line.unindented) = ofLines style lines := by
  unfold ofLines
  rw [Mention.ofLines_unindented]

namespace Line

theorem ofTokens_newline {t : Token} (h : t.kind = .newline) (tokens : List Token) :
    ofTokens (t :: tokens) = ⟨[], some t⟩ :: ofTokens tokens := by
  rw [ofTokens, h]

theorem ofTokens_push {t : Token} (hn : t.kind ≠ .newline) (he : t.kind ≠ .endOfInput)
    (tokens : List Token) : ofTokens (t :: tokens) = push t (ofTokens tokens) := by
  rw [ofTokens]
  split
  · contradiction
  · contradiction
  · rfl

/-- The lines of tokens without indentation are the lines without indentation. -/
theorem ofTokens_unindented {tokens : List Token} (h : ∀ t ∈ tokens, t.kind ≠ .endOfInput)
    {marker : Token} (hmarker : marker.kind = .endOfInput) (begins : Bool) :
    ∃ first rest, ofTokens (tokens ++ [marker]) = first :: rest ∧
      ofTokens (Token.unindented begins tokens ++ [marker]) =
        { first with tokens := Token.unindented begins first.tokens } ::
          rest.map unindented := by
  induction tokens generalizing begins with
  | nil =>
    have hlines : ofTokens [marker] = [⟨[], none⟩] := by rw [ofTokens, hmarker]; rfl
    exact ⟨⟨[], none⟩, [], hlines, hlines⟩
  | cons t tokens ih =>
    obtain ⟨ht, htokens⟩ := List.forall_mem_cons.mp h
    rw [List.cons_append]
    by_cases hbegins : begins = true ∧ t.kind = .whitespace
    · obtain ⟨rfl, hk⟩ := hbegins
      obtain ⟨first, rest, hlines, hunindented⟩ := ih htokens true
      have hdrop : ∀ tokens, Token.unindented true (t :: tokens) = Token.unindented true tokens :=
        fun tokens => by rw [Token.unindented, VbaWorkbench.unindented, if_pos ⟨rfl, hk⟩]
      refine ⟨{ first with tokens := t :: first.tokens }, rest, ?_, ?_⟩
      · rw [ofTokens_push (by simp [hk]) ht, hlines, push]
      · rw [hdrop, hunindented, hdrop]
    · have hkeep : ∀ tokens, Token.unindented begins (t :: tokens) =
          t :: Token.unindented t.kind.breaksLine tokens :=
        fun tokens => by rw [Token.unindented, VbaWorkbench.unindented, if_neg hbegins]
      obtain ⟨first, rest, hlines, hunindented⟩ := ih htokens t.kind.breaksLine
      rw [hkeep, List.cons_append]
      by_cases hn : t.kind = .newline
      · refine ⟨⟨[], some t⟩, first :: rest, by rw [ofTokens_newline hn, hlines], ?_⟩
        rw [ofTokens_newline hn, hunindented, hn]
        rfl
      · refine ⟨{ first with tokens := t :: first.tokens }, rest, ?_, ?_⟩
        · rw [ofTokens_push hn ht, hlines, push]
        · rw [ofTokens_push hn ht, hunindented, push, hkeep]

/-- The newlines stand between the lines. -/
theorem ofTokens_no_newline (tokens : List Token) :
    ∀ line ∈ ofTokens tokens, ∀ t ∈ line.tokens, t.kind ≠ .newline := by
  induction tokens with
  | nil => simp [ofTokens]
  | cons t tokens ih =>
    rw [ofTokens]
    split
    · exact List.forall_mem_cons.mpr ⟨by simp, ih⟩
    · exact List.forall_mem_cons.mpr ⟨by simp, ih⟩
    · rename_i hn _
      cases hlines : ofTokens tokens with
      | nil => simpa [push] using hn
      | cons first rest =>
        rw [hlines] at ih
        obtain ⟨hfirst, hrest⟩ := List.forall_mem_cons.mp ih
        exact List.forall_mem_cons.mpr ⟨List.forall_mem_cons.mpr ⟨hn, hfirst⟩, hrest⟩

end Line

namespace Layout

/-- Whitespace at the start of physical lines does not matter to the layout. -/
theorem formatTokens_unindented (options : LayoutOptions) {tokens : List Token}
    (h : ∀ t ∈ tokens, t.kind ≠ .endOfInput) {marker : Token}
    (hmarker : marker.kind = .endOfInput) :
    formatTokens options (Token.unindented true tokens ++ [marker]) =
      formatTokens options (tokens ++ [marker]) := by
  have hlines : Line.ofTokens (Token.unindented true tokens ++ [marker]) =
      (Line.ofTokens (tokens ++ [marker])).map Line.unindented := by
    obtain ⟨first, rest, hlines, hunindented⟩ := Line.ofTokens_unindented h hmarker true
    rw [hunindented, hlines]
    rfl
  rw [formatTokens, hlines, RenamePlan.ofLines_unindented, newlineOf_unindented,
    formatLines_unindented _ _ _ _ _ (Line.ofTokens_no_newline _), formatTokens]

/-- What the layout of a source is made from: its tokens without indentation and offsets. -/
def outline (source : Text) : List Token :=
  (unindented Lexeme.kind true (scanFrom .initial source) ++ [Lexeme.mk .endOfInput []]).map
    (Token.mk · 0)

theorem format_outline (options : LayoutOptions) (source : Text) :
    (format options source).mapError Imbalance.told =
      (formatTokens options (outline source)).mapError Imbalance.told := by
  obtain ⟨-, -, hkinds⟩ := scanFrom_reads .initial source
  let marker : Token :=
    ⟨⟨.endOfInput, []⟩, 0 + Text.byteLength (Lexeme.sourceText (scanFrom .initial source))⟩
  have htokens : tokenize source = Token.place 0 (scanFrom .initial source) ++ [marker] :=
    Token.place_append 0 _ _
  have houtline : (Token.unindented true (Token.place 0 (scanFrom .initial source)) ++
      [marker]).map Token.unplaced = outline source := by
    have hunplaced : Token.unplaced = (Token.mk · 0) ∘ fun t : Token => t.toLexeme := rfl
    have hlexemes := @unindented_map _ _ Lexeme.kind (fun t : Token => t.toLexeme) true
      (Token.place 0 (scanFrom .initial source))
    rw [Token.toLexeme_place] at hlexemes
    rw [outline, hlexemes, List.map_append, List.map_append, hunplaced, ← List.map_map]
    rfl
  have hformat : format options source = formatTokens options (tokenize source) := rfl
  rw [hformat, htokens, ← formatTokens_unindented options ?_ rfl, ← houtline,
    formatTokens_map Token.unplaced_keeps (fun _ => rfl)
      (Imbalance.told_same Token.unplaced_keeps fun _ => rfl)]
  exact fun t ht => (hkinds _ (Token.lexeme_of_mem_place ht)).2

/-- The same text, or failures of statements of the same name in the same way. -/
def Agree (result result' : Except Imbalance Text) : Prop :=
  (∃ out, result = .ok out ∧ result' = .ok out) ∨
    ∃ e e', result = .error e ∧ result' = .error e' ∧ e'.construct = e.construct ∧
      e'.fault = e.fault

theorem agree_of_told {result result' : Except Imbalance Text}
    (h : result.mapError Imbalance.told = result'.mapError Imbalance.told) :
    Agree result result' := by
  cases result with
  | ok out =>
    cases result' with
    | ok out' =>
      obtain rfl := Except.ok.inj h
      exact .inl ⟨out, rfl, rfl⟩
    | error e' => cases h
  | error e =>
    cases result' with
    | ok out' => cases h
    | error e' =>
      obtain ⟨hconstruct, hfault⟩ := Prod.mk.inj (Except.error.inj h)
      exact .inr ⟨e, e', rfl, rfl, hconstruct.symm, hfault.symm⟩

end Layout

/-- The layout does not depend on the indentation of the source. Only what stands before an
underscore has to stay, which it makes a continuation, and no two line breaks may become one. -/
theorem format_reindented {source : Text} {lines : List PhysicalLine}
    (h : List.Forall₂ PhysicalLine.Reindents (PhysicalLine.ofSource source) lines)
    (hapart : lines.IsChain PhysicalLine.Apart) (options : LayoutOptions) :
    Layout.Agree (format options source) (format options (PhysicalLine.sourceText lines)) := by
  obtain ⟨hruled, hsource⟩ := PhysicalLine.ruled_ofSource source
  have hread := unindented_scan h hruled (hruled.reindented h hapart) true
  rw [hsource] at hread
  have houtline : Layout.outline source = Layout.outline (PhysicalLine.sourceText lines) := by
    rw [Layout.outline, Layout.outline]
    exact congrArg (fun read => (read ++ [_]).map _) hread
  refine Layout.agree_of_told ?_
  rw [Layout.format_outline, houtline, Layout.format_outline]

/-- A continued line, a blank line and an underscore that keeps its indentation. -/
theorem format_reindented_continued :
    let source := "Sub a\n  x = _\n1\n  \r _b\nEnd Sub".toList
    let lines : List PhysicalLine := [⟨[' '], "Sub a".toList, ['\n']⟩,
      ⟨[], "x = _".toList, ['\n']⟩, ⟨['\t'], ['1'], ['\n']⟩, ⟨[], [], ['\r']⟩,
      ⟨[' '], "_b".toList, ['\n']⟩, ⟨[' '], "End Sub".toList, []⟩]
    List.Forall₂ PhysicalLine.Reindents (PhysicalLine.ofSource source) lines ∧
      lines.IsChain PhysicalLine.Apart ∧
      PhysicalLine.sourceText lines = " Sub a\nx = _\n\t1\n\r _b\n End Sub".toList ∧
      format .default source = .ok "Sub a\n  x = _\n    1\n\n  _b\nEnd Sub".toList ∧
      Layout.Agree (format .default source) (format .default (PhysicalLine.sourceText lines)) := by
  intro source lines
  have hreindents : List.Forall₂ PhysicalLine.Reindents (PhysicalLine.ofSource source) lines := by
    decide
  have hapart : lines.IsChain PhysicalLine.Apart := by decide
  have hout : format .default source = .ok "Sub a\n  x = _\n    1\n\n  _b\nEnd Sub".toList := by
    decide +kernel
  exact ⟨hreindents, hapart, by decide, hout, format_reindented hreindents hapart .default⟩

/-- Without its indentation the second line break joins the first, so the source has one line fewer
and another first line break. -/
theorem format_joinedBreaks :
    let source := "x\r \ny".toList
    let lines : List PhysicalLine := [⟨[], ['x'], ['\r']⟩, ⟨[], [], ['\n']⟩, ⟨[], ['y'], []⟩]
    List.Forall₂ PhysicalLine.Reindents (PhysicalLine.ofSource source) lines ∧
      PhysicalLine.sourceText lines = "x\r\ny".toList ∧
      ¬Layout.Agree (format .default source) (format .default (PhysicalLine.sourceText lines)) := by
  intro source lines
  have hout : format .default source = .ok "x\r\ry".toList := by decide +kernel
  have hout' : format .default (PhysicalLine.sourceText lines) = .ok "x\r\ny".toList := by
    decide +kernel
  refine ⟨by decide, by decide, ?_⟩
  rw [hout, hout']
  rintro (⟨out, hok, hok'⟩ | ⟨e, e', herror, -⟩)
  · exact absurd (hok.trans hok'.symm) (by decide)
  · cases herror

end VbaWorkbench
