import Mathlib.Data.List.Basic
import VbaWorkbench.Proofs.Layout.Depth
import VbaWorkbench.Proofs.Layout.Rereading
import VbaWorkbench.Proofs.Token.Lowering

namespace VbaWorkbench

namespace Text

theorem trimRight_lowerAscii {p : Char → Bool} (hp : CaseBlind p) (t : Text) :
    trimRight p (lowerAscii t) = lowerAscii (trimRight p t) := by
  have hsame : p ∘ Char.toLower = p := funext hp
  simp only [trimRight, lowerAscii, ← List.map_reverse, List.dropWhile_map, hsame]

theorem lowerAscii_joined (mark : Text) (ts : List Text) :
    lowerAscii (joined mark ts) = joined (lowerAscii mark) (ts.map lowerAscii) := by
  fun_induction joined mark ts with
  | case1 => rfl
  | case2 t => rfl
  | case3 t ts hne ih =>
    cases ts with
    | nil => exact absurd rfl hne
    | cons u ts =>
      rw [lowerAscii_append, lowerAscii_append, ih]
      rfl

/-- Only letters have a case. -/
theorem toLower_eq_iff_of_not_alpha {d : Char} (h : d.isAlpha = false) (c : Char) :
    c.toLower = d ↔ c = d := by
  have hletters : (capitals.all fun c => c.isAlpha && c.toLower.isAlpha) = true := by decide
  refine toLower_eq_iff (List.all_eq_true.mpr fun c hc => ?_) c
  obtain ⟨hupper, hlower⟩ := Bool.and_eq_true_iff.mp (List.all_eq_true.mp hletters c hc)
  have hne : (c == d) = false := beq_eq_false_iff_ne.mpr fun he => by simp [← he, hupper] at h
  have hne' : (c.toLower == d) = false :=
    beq_eq_false_iff_ne.mpr fun he => by simp [← he, hlower] at h
  rw [hne, hne']
  rfl

theorem lowerAscii_eq_singleton {d : Char} (h : d.isAlpha = false) {t : Text} :
    lowerAscii t = [d] ↔ t = [d] := by
  match t with
  | [] => simp
  | [c] => simp [toLower_eq_iff_of_not_alpha h c]
  | c :: c' :: t => simp

end Text

theorem Lexeme.sourceText_lower (ls : List Lexeme) :
    sourceText (ls.map lower) = Text.lowerAscii (sourceText ls) :=
  (lowerAscii_sourceText ls).symm

theorem Token.lower_keeps : Token.Keeps id Token.lower where
  kind _ := rfl
  isKeyword word t := by
    have htext : Text.sameAscii t.lower.text word.toList = Text.sameAscii t.text word.toList :=
      Text.sameAscii_lowerAscii t.text word.toList
    rw [isKeyword, kind_lower, htext, isKeyword]
  isPunctuation c hc t := by
    have htext : (t.lower.text == [c]) = (t.text == [c]) := by
      rw [Bool.eq_iff_iff, beq_iff_eq, beq_iff_eq]
      exact Text.lowerAscii_eq_singleton hc
    rw [isPunctuation, kind_lower, htext, isPunctuation]
  start _ := rfl
  zero := rfl

@[simp] theorem Tracker.move_id (t : Tracker) : t.move id = t := by
  have hframe : Frame.move id = id := rfl
  rw [move, hframe, List.map_id]

namespace Line

section Maps

variable {f : Token → Token} (hf : ∀ t, (f t).kind = t.kind)
include hf

theorem ofTokens_map (tokens : List Token) :
    ofTokens (tokens.map f) = (ofTokens tokens).map (map f) := by
  induction tokens with
  | nil => rfl
  | cons t tokens ih =>
    have hpush : push (f t) (ofTokens (tokens.map f)) = (push t (ofTokens tokens)).map (map f) := by
      rw [ih]
      cases ofTokens tokens <;> rfl
    rw [List.map_cons, ofTokens, hf, ofTokens, ih]
    cases t.kind with
    | newline | endOfInput => rfl
    | _ => rw [← ih]; exact hpush

theorem isBlank_map (line : Line) : (line.map f).isBlank = line.isBlank := by
  have hsame : (fun t : Token => t.kind == .whitespace) ∘ f = fun t => t.kind == .whitespace :=
    funext fun t => by rw [Function.comp_apply, hf]
  rw [isBlank, map, List.all_map, hsame, isBlank]

end Maps

end Line

namespace Layout

/-- Whether the blocks of the lines balance, whatever becomes of their text. -/
def checkLines (tracker : Tracker) : List Line → Except Imbalance Unit
  | [] => tracker.finish
  | line :: lines =>
    if line.isBlank then checkLines tracker lines
    else
      match lineDepth tracker line with
      | .error e => .error e
      | .ok (tracker, _) => checkLines tracker lines

/-- The options do not matter to the blocks. -/
theorem checkLines_eq (options : LayoutOptions) (plan : RenamePlan) (newline : Text)
    (tracker : Tracker) (blanks : Nat) (lines : List Line) :
    (formatLines options plan newline tracker blanks lines).map (fun _ => ()) =
      checkLines tracker lines := by
  have hforget : ∀ (x : Except Imbalance Text) (s : Text),
      (x.map (s ++ ·)).map (fun _ => ()) = x.map fun _ => () := by
    intro x s
    cases x <;> rfl
  induction lines generalizing tracker blanks with
  | nil =>
    rw [formatLines, checkLines]
    cases tracker.finish <;> rfl
  | cons line lines ih =>
    rw [formatLines, checkLines]
    split
    · rw [hforget, ih]
    · cases lineDepth tracker line with
      | error e => rfl
      | ok r => exact (hforget ..).trans (ih r.1 0)

section Maps

variable {g : Nat → Nat} {f : Token → Token} (hf : Token.Keeps g f)
include hf

theorem checkLines_map (tracker : Tracker) (lines : List Line) :
    (checkLines (tracker.move g) (lines.map (Line.map f))).mapError (Imbalance.site id) =
      (checkLines tracker lines).mapError (Imbalance.site g) := by
  induction lines generalizing tracker with
  | nil => exact Tracker.finish_move (Imbalance.site_same hf) tracker
  | cons line lines ih =>
    rw [List.map_cons, checkLines, checkLines, Line.isBlank_map hf.kind]
    have hdepth := lineDepth_map hf (Imbalance.site_same hf) tracker line
    split
    · exact ih tracker
    · generalize lineDepth (tracker.move g) (line.map f) = moved at *
      cases hline : lineDepth tracker line with
      | error e =>
        rw [hline] at hdepth
        cases moved with
        | ok r => cases hdepth
        | error e' => exact congrArg Except.error (Except.error.inj hdepth)
      | ok r =>
        rw [hline] at hdepth
        cases moved with
        | error e' => cases hdepth
        | ok r' =>
          obtain rfl := Except.ok.inj hdepth
          exact ih r.1

end Maps

section Texts

theorem pieceText_lower (segment : List Lexeme) :
    pieceText (segment.map Lexeme.lower) = Text.lowerAscii (pieceText segment) := by
  have hcore : coreLexemes (segment.map Lexeme.lower) =
      (coreLexemes segment).map Lexeme.lower :=
    coreLexemes_map (f := Lexeme.lower) (fun _ => rfl) segment
  have hlast : ((coreLexemes segment).map Lexeme.lower).getLast?.any (·.kind == .comment) =
      (coreLexemes segment).getLast?.any (·.kind == .comment) := by
    rw [List.getLast?_map, Option.any_map]
    rfl
  simp only [pieceText, hcore, hlast, Lexeme.sourceText_lower,
    Text.trimRight_lowerAscii Text.isBlank_caseBlind]
  split <;> rfl

/-- In small letters the pieces of a line are those of its lexemes in small letters. -/
theorem lowerAscii_pieces (options : LayoutOptions) (line : Line) :
    (pieces options ⟨[]⟩ line).map Text.lowerAscii =
      ((cut (line.bare.lexemes.map Lexeme.lower)).map pieceText).filter (!·.isEmpty) := by
  have hempty : (fun t : Text => !t.isEmpty) ∘ Text.lowerAscii = fun t => !t.isEmpty := by
    funext t
    simp [Text.lowerAscii]
  have htext : Text.lowerAscii ∘ pieceText = pieceText ∘ List.map Lexeme.lower := by
    funext segment
    exact (pieceText_lower segment).symm
  have hcut := cut_map (f := Lexeme.lower) (fun _ => rfl)
    (recaseAll options.keywordStyle false line.bare.lexemes)
  rw [lower_recaseAll] at hcut
  rw [pieces_cut, hcut, List.map_map, ← htext, ← List.map_map]
  generalize (cut (recaseAll options.keywordStyle false line.bare.lexemes)).map pieceText = texts
  rw [List.filter_map, hempty]

theorem pieces_of_lower_eq (options : LayoutOptions) {line line' : Line}
    (h : line'.map Token.lower = line.map Token.lower) :
    (pieces options ⟨[]⟩ line').map Text.lowerAscii =
      (pieces options ⟨[]⟩ line).map Text.lowerAscii := by
  have hlexemes : line'.bare.lexemes.map Lexeme.lower = line.bare.lexemes.map Lexeme.lower := by
    have htokens := congrArg (fun l : Line => l.tokens.map (·.toLexeme)) h
    simp only [Line.map, List.map_map] at htokens
    simp only [Line.bare, List.map_map]
    exact htokens
  rw [lowerAscii_pieces, lowerAscii_pieces, hlexemes]

theorem indented_of_lower_eq {indent piece piece' : Text}
    (h : Text.lowerAscii piece' = Text.lowerAscii piece) :
    Text.lowerAscii (indented indent piece') = Text.lowerAscii (indented indent piece) := by
  have hunderscore : piece' = ['_'] ↔ piece = ['_'] := by
    rw [← Text.lowerAscii_eq_singleton (d := '_') rfl, h, Text.lowerAscii_eq_singleton rfl]
  unfold indented
  by_cases hp : piece = ['_']
  · rw [if_pos hp, if_pos (hunderscore.mpr hp), h]
  · rw [if_neg hp, if_neg (mt hunderscore.mp hp), Text.lowerAscii_append, h, Text.lowerAscii_append]

theorem continued_of_lower_eq {hanging newline newline' : Text} {ps ps' : List Text}
    (hnewline : Text.lowerAscii newline' = Text.lowerAscii newline)
    (h : ps'.map Text.lowerAscii = ps.map Text.lowerAscii) :
    Text.lowerAscii (continued hanging newline' ps') =
      Text.lowerAscii (continued hanging newline ps) := by
  induction ps generalizing ps' with
  | nil => rw [List.map_eq_nil_iff.mp h]; rfl
  | cons p ps ih =>
    obtain ⟨p', ps', rfl, hp, hps⟩ := List.map_eq_cons_iff.mp h
    have hrest := ih hps
    unfold continued at hrest ⊢
    rw [List.flatMap_cons, List.flatMap_cons]
    simp only [Text.lowerAscii_append, hnewline, indented_of_lower_eq hp, hrest]

theorem collapsed_of_lower_eq (options : LayoutOptions) (indent : Text) {ps ps' : List Text}
    (h : ps'.map Text.lowerAscii = ps.map Text.lowerAscii) :
    (collapsed? options indent ps').map Text.lowerAscii =
      (collapsed? options indent ps).map Text.lowerAscii := by
  have hjoined : Text.lowerAscii (indent ++ Text.joined [' '] ps') =
      Text.lowerAscii (indent ++ Text.joined [' '] ps) := by
    rw [Text.lowerAscii_append, Text.lowerAscii_joined, h, ← Text.lowerAscii_joined,
      Text.lowerAscii_append]
  have hlength : (indent ++ Text.joined [' '] ps').length =
      (indent ++ Text.joined [' '] ps).length := by
    rw [← Text.length_lowerAscii, hjoined, Text.length_lowerAscii]
  have hunderscore : ∀ qs : List Text, qs.getLast? = some ['_'] ↔
      (qs.map Text.lowerAscii).getLast? = some ['_'] := by
    intro qs
    rw [List.getLast?_map]
    cases qs.getLast? with
    | none => simp
    | some q => simp [Text.lowerAscii_eq_singleton (d := '_') rfl]
  have hlast : ps'.getLast? = some ['_'] ↔ ps.getLast? = some ['_'] := by
    rw [hunderscore, h, ← hunderscore]
  simp only [collapsed?, hlength, ne_eq, hlast]
  split
  · exact congrArg some hjoined
  · rfl

/-- The case of letters does not tell where lines are broken. -/
theorem emit_of_lower_eq {options : LayoutOptions} {newline newline' : Text} {depth : Nat}
    {ps ps' : List Text} (hnewline : Text.lowerAscii newline' = Text.lowerAscii newline)
    (h : ps'.map Text.lowerAscii = ps.map Text.lowerAscii) :
    Text.lowerAscii (emit options newline' depth ps') =
      Text.lowerAscii (emit options newline depth ps) := by
  match ps with
  | [] => rw [List.map_eq_nil_iff.mp h]; rfl
  | [p] =>
    obtain ⟨p', rest', rfl, hp, hrest⟩ := List.map_eq_cons_iff.mp h
    rw [List.map_eq_nil_iff.mp hrest]
    exact indented_of_lower_eq hp
  | p :: q :: rest =>
    obtain ⟨p', qs', rfl, hp, hqs⟩ := List.map_eq_cons_iff.mp h
    obtain ⟨q', rest', rfl, -, -⟩ := List.map_eq_cons_iff.mp hqs
    have hcollapsed := collapsed_of_lower_eq options (Text.repeated options.indentUnit depth) h
    simp only [emit]
    cases hjoined : collapsed? options (Text.repeated options.indentUnit depth) (p :: q :: rest) with
    | none =>
      rw [hjoined] at hcollapsed
      rw [Option.map_eq_none_iff.mp hcollapsed, Option.getD_none, Option.getD_none,
        Text.lowerAscii_append, Text.lowerAscii_append, indented_of_lower_eq hp,
        continued_of_lower_eq hnewline hqs]
    | some t =>
      rw [hjoined] at hcollapsed
      obtain ⟨t', ht', ht⟩ := Option.map_eq_some_iff.mp hcollapsed
      rw [ht', Option.getD_some, Option.getD_some, ht]

end Texts

theorem isSome_of_lower_eq {line line' : Line}
    (hline : line'.map Token.lower = line.map Token.lower) :
    line'.newline.isSome = line.newline.isSome := by
  have hend := congrArg (fun l : Line => l.newline.isSome) hline
  simpa [Line.map] using hend

theorem ended_of_lower_eq {newline newline' text text' : Text} {line line' : Line}
    (hnewline : Text.lowerAscii newline' = Text.lowerAscii newline)
    (hline : line'.map Token.lower = line.map Token.lower)
    (htext : Text.lowerAscii text' = Text.lowerAscii text) :
    Text.lowerAscii (ended newline' line' text') = Text.lowerAscii (ended newline line text) := by
  unfold ended
  rw [isSome_of_lower_eq hline]
  split
  · rw [Text.lowerAscii_append, Text.lowerAscii_append, htext, hnewline]
  · exact htext

theorem lineDepth_of_lower_eq {tracker out out' : Tracker} {line line' : Line} {depth depth' : Nat}
    (hline : line'.map Token.lower = line.map Token.lower)
    (h : lineDepth tracker line = .ok (out, depth))
    (h' : lineDepth tracker line' = .ok (out', depth')) : out' = out ∧ depth' = depth := by
  have hsite := Imbalance.site_same Token.lower_keeps
  have hdepth := lineDepth_map Token.lower_keeps hsite tracker line
  rw [← hline, lineDepth_map Token.lower_keeps hsite tracker line', h, h'] at hdepth
  simpa [Except.map, Except.mapError] using hdepth

/-- Lines that are the same but for the case of letters are laid out the same but for it. -/
theorem formatLines_of_lower_eq {options : LayoutOptions} {newline newline' : Text}
    (hnewline : Text.lowerAscii newline' = Text.lowerAscii newline) {tracker : Tracker}
    {blanks : Nat} {lines lines' : List Line} {out out' : Text}
    (hlines : lines'.map (Line.map Token.lower) = lines.map (Line.map Token.lower))
    (h : formatLines options ⟨[]⟩ newline tracker blanks lines = .ok out)
    (h' : formatLines options ⟨[]⟩ newline' tracker blanks lines' = .ok out') :
    Text.lowerAscii out' = Text.lowerAscii out := by
  induction lines generalizing tracker blanks lines' out out' with
  | nil =>
    rw [List.map_eq_nil_iff.mp hlines] at h'
    obtain ⟨_, -, rfl⟩ := ok_of_map h
    obtain ⟨_, -, rfl⟩ := ok_of_map h'
    rfl
  | cons line lines ih =>
    obtain ⟨line', lines', rfl, hline, hrest⟩ := List.map_eq_cons_iff.mp hlines
    have hblank : line'.isBlank = line.isBlank := by
      rw [← Line.isBlank_map Token.kind_lower line', hline, Line.isBlank_map Token.kind_lower]
    rw [formatLines] at h h'
    rw [hblank] at h'
    split at h
    · rename_i hb
      rw [if_pos hb, isSome_of_lower_eq hline] at h'
      obtain ⟨more, hmore, rfl⟩ := ok_of_map h
      obtain ⟨more', hmore', rfl⟩ := ok_of_map h'
      rw [Text.lowerAscii_append, Text.lowerAscii_append, ih hrest hmore hmore']
      congr 1
      rw [apply_ite Text.lowerAscii, apply_ite Text.lowerAscii,
        ended_of_lower_eq hnewline hline rfl]
    · rename_i hb
      rw [if_neg hb] at h'
      cases hdepth : lineDepth tracker line with
      | error e => rw [hdepth] at h; cases h
      | ok r =>
        cases hdepth' : lineDepth tracker line' with
        | error e => rw [hdepth'] at h'; cases h'
        | ok r' =>
          obtain ⟨hout, hd⟩ := lineDepth_of_lower_eq hline hdepth hdepth'
          rw [hdepth] at h
          rw [hdepth'] at h'
          obtain ⟨more, hmore, rfl⟩ := ok_of_map h
          obtain ⟨more', hmore', rfl⟩ := ok_of_map h'
          rw [hout] at hmore'
          rw [Text.lowerAscii_append, Text.lowerAscii_append, ih hrest hmore hmore', hd,
            ended_of_lower_eq hnewline hline
              (emit_of_lower_eq hnewline (pieces_of_lower_eq options hline))]

theorem newlineOf_lower (tokens : List Token) :
    newlineOf (tokens.map Token.lower) = Text.lowerAscii (newlineOf tokens) := by
  have hkind : (fun t : Token => t.kind == .newline) ∘ Token.lower = fun t => t.kind == .newline :=
    rfl
  rw [newlineOf, List.find?_map, hkind, newlineOf]
  cases tokens.find? (·.kind == .newline) <;> rfl

theorem checkLines_of_lower_eq (tracker : Tracker) {lines lines' : List Line}
    (h : lines'.map (Line.map Token.lower) = lines.map (Line.map Token.lower)) :
    (checkLines tracker lines').mapError (Imbalance.site id) =
      (checkLines tracker lines).mapError (Imbalance.site id) := by
  rw [← checkLines_map Token.lower_keeps, h, checkLines_map Token.lower_keeps]

theorem format_check (options : LayoutOptions) (source : Text) :
    (format options source).map (fun _ => ()) =
      checkLines .empty (Line.ofTokens (tokenize source)) :=
  checkLines_eq ..

end Layout

theorem spans_of_lower_eq {tokens tokens' : List Token}
    (h : tokens'.map Token.lower = tokens.map Token.lower) :
    (tokens'.map fun t => (t.kind, t.start, t.stop)) =
      tokens.map fun t => (t.kind, t.start, t.stop) := by
  have hsame : (fun t : Token => (t.kind, t.start, t.stop)) ∘ Token.lower =
      fun t => (t.kind, t.start, t.stop) := by
    funext t
    rw [Function.comp_apply, Token.kind_lower, Token.stop_lower]
    rfl
  rw [← hsame, ← List.map_map, h, List.map_map]

/-- Sources that are the same but for the case of letters have the same tokens at the same places.
Whatever the options, their blocks balance alike or fail at the same place in the same way; and with
the same options that keep names, they are laid out the same but for the case of letters. -/
theorem format_sameAscii {source source' : Text} (h : Text.sameAscii source source' = true) :
    ((tokenize source').map fun t => (t.kind, t.start, t.stop)) =
        ((tokenize source).map fun t => (t.kind, t.start, t.stop)) ∧
      unterminatedStrings (tokenize source') = unterminatedStrings (tokenize source) ∧
      (∀ options options' : LayoutOptions,
        (∃ out out', format options source = .ok out ∧ format options' source' = .ok out') ∨
        ∃ e e', format options source = .error e ∧ format options' source' = .error e' ∧
          e'.offset = e.offset ∧ e'.fault = e.fault) ∧
      ∀ (options : LayoutOptions) (out out' : Text), options.nameStyle = .preserve →
        format options source = .ok out → format options source' = .ok out' →
        Text.sameAscii out out' = true := by
  have htokens := tokenize_of_lower_eq (beq_iff_eq.mp h).symm
  have hlines : (Line.ofTokens (tokenize source')).map (Line.map Token.lower) =
      (Line.ofTokens (tokenize source)).map (Line.map Token.lower) := by
    rw [← Line.ofTokens_map Token.kind_lower, htokens, Line.ofTokens_map Token.kind_lower]
  refine ⟨spans_of_lower_eq htokens, ?_, fun options options' => ?_,
    fun options out out' hstyle hout hout' => ?_⟩
  · rw [← unterminatedStrings_lower, htokens, unterminatedStrings_lower]
  · have hcheck := Layout.checkLines_of_lower_eq .empty hlines
    rw [← Layout.format_check options', ← Layout.format_check options] at hcheck
    cases hout : format options source with
    | ok out =>
      cases hout' : format options' source' with
      | ok out' => exact .inl ⟨out, out', rfl, rfl⟩
      | error e' =>
        rw [hout, hout'] at hcheck
        cases hcheck
    | error e =>
      cases hout' : format options' source' with
      | ok out' =>
        rw [hout, hout'] at hcheck
        cases hcheck
      | error e' =>
        rw [hout, hout'] at hcheck
        obtain ⟨hoffset, hfault⟩ := Prod.mk.inj (Except.error.inj hcheck)
        exact .inr ⟨e, e', rfl, rfl, hoffset, hfault⟩
  · have hnewline : Text.lowerAscii (Layout.newlineOf (tokenize source')) =
        Text.lowerAscii (Layout.newlineOf (tokenize source)) := by
      rw [← Layout.newlineOf_lower, htokens, Layout.newlineOf_lower]
    rw [format, hstyle] at hout hout'
    exact beq_iff_eq.mpr (Layout.formatLines_of_lower_eq hnewline hlines hout hout').symm

/-- A number in base sixteen and a remark in either case. -/
theorem format_sameAscii_remark :
    let source := "sub a\nx = &hff: rem b\nend sub".toList
    let source' := "SUB A\nX = &HFF: Rem B\nEnd Sub".toList
    let out := "sub a\n  x = &hff: rem b\nend sub".toList
    let out' := "SUB A\n  X = &HFF: Rem B\nEnd Sub".toList
    Text.sameAscii source source' = true ∧
    format .default source = .ok out ∧ format .default source' = .ok out' ∧
    Text.sameAscii out out' = true := by
  intro source source' out out'
  have h : Text.sameAscii source source' = true := by decide
  have hout : format .default source = .ok out := by decide +kernel
  have hout' : format .default source' = .ok out' := by decide +kernel
  exact ⟨h, hout, hout', (format_sameAscii h).2.2.2 _ _ _ rfl hout hout'⟩

end VbaWorkbench
