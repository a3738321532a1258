import VbaWorkbench.Proofs.Layout.LetterCase
import VbaWorkbench.Proofs.Name.Offsets

namespace VbaWorkbench

namespace Token

/-- The token as if it stood at the start of the source. -/
def unplaced (t : Token) : Token :=
  ⟨t.toLexeme, 0⟩

theorem unplaced_keeps : Keeps (fun _ => 0) unplaced :=
  ⟨fun _ => rfl, fun _ _ => rfl, fun _ _ _ => rfl, fun _ => rfl, rfl⟩

end Token

namespace Layout

theorem mapError_map {ε ε' α α' : Type} (k : ε → ε') (h : α → α') (x : Except ε α) :
    (x.map h).mapError k = (x.mapError k).map h := by
  cases x <;> rfl

/-- The layout of the source that the tokens were read from. -/
def formatTokens (options : LayoutOptions) (tokens : List Token) : Except Imbalance Text :=
  formatLines options (RenamePlan.ofLines options.nameStyle (Line.ofTokens tokens))
    (newlineOf tokens) .empty 0 (Line.ofTokens tokens)

section Maps

variable {β : Type} {g : Nat → Nat} {f : Token → Token} (hf : Token.Keeps g f)
  (htext : ∀ t, (f t).text = t.text)
include hf htext

theorem eq_moved (t : Token) : f t = ⟨t.toLexeme, g t.start⟩ := by
  have hkind := hf.kind t
  have hstart := hf.start t
  have htext := htext t
  generalize f t = t' at hkind hstart htext
  obtain ⟨⟨kind, text⟩, start⟩ := t'
  obtain ⟨⟨kind', text'⟩, start'⟩ := t
  obtain rfl : kind = kind' := hkind
  obtain rfl : text = text' := htext
  obtain rfl : start = g start' := hstart
  rfl

theorem respellAll_map (options : LayoutOptions) (plan : RenamePlan) (member : Bool)
    (tokens : List Token) :
    respellAll options plan member (tokens.map f) =
      (respellAll options plan member tokens).map f := by
  induction tokens generalizing member with
  | nil => rfl
  | cons t tokens ih =>
    have hhead : respell options plan member (f t) = f (respell options plan member t) := by
      rw [eq_moved hf htext, eq_moved hf htext]
      obtain ⟨⟨kind, text⟩, start⟩ := t
      cases kind <;> cases member <;> rfl
    rw [List.map_cons, respellAll, respellAll, List.map_cons, hhead, ih, hf.kind,
      hf.isPunctuation '.' rfl, hf.isPunctuation '!' rfl]

theorem pieces_map (options : LayoutOptions) (plan : RenamePlan) (line : Line) :
    pieces options plan (line.map f) = pieces options plan line := by
  have hkind : (fun t : Token => (f t).kind == TokenKind.lineContinuation) =
      fun t => t.kind == TokenKind.lineContinuation := by
    funext t
    rw [hf.kind]
  have hpiece : piece ∘ List.map f = piece := by
    funext segment
    have hlexeme : (fun t : Token => t.toLexeme) ∘ f = fun t => t.toLexeme := by
      funext t
      rw [Function.comp_apply, eq_moved hf htext]
    rw [Function.comp_apply, piece_eq, List.map_map, hlexeme, ← piece_eq]
  simp only [pieces, Line.segments, Line.map, respellAll_map hf htext, splitOnP_map, hkind,
    List.map_map, hpiece]

theorem newlineOf_map (tokens : List Token) : newlineOf (tokens.map f) = newlineOf tokens := by
  have hkind : (fun t : Token => t.kind == .newline) ∘ f = fun t => t.kind == .newline :=
    funext fun t => by rw [Function.comp_apply, hf.kind]
  rw [newlineOf, List.find?_map, hkind, newlineOf]
  cases tokens.find? (·.kind == .newline) with
  | none => rfl
  | some t => simp [htext]

theorem ofLines_map (style : NameStyle) (lines : List Line) :
    RenamePlan.ofLines style (lines.map (Line.map f)) = RenamePlan.ofLines style lines := by
  have hmentions : Mention.ofLines (lines.map (Line.map f)) = Mention.ofLines lines := by
    have hstatements : (lines.map (Line.map f)).flatMap Line.statements =
        (lines.flatMap Line.statements).map (List.map f) := by
      rw [List.flatMap_map, List.map_flatMap]
      exact List.flatMap_congr fun line _ => statements_map hf line
    rw [Mention.ofLines, hstatements, Mention.ofStatements_map hf htext, Mention.ofLines]
  unfold RenamePlan.ofLines
  rw [hmentions]

variable {seen seen' : Imbalance → β} (hsame : Imbalance.Same g f seen' seen)
include hsame

theorem formatLines_map (options : LayoutOptions) (plan : RenamePlan) (newline : Text)
    (tracker : Tracker) (blanks : Nat) (lines : List Line) :
    (formatLines options plan newline (tracker.move g) blanks
        (lines.map (Line.map f))).mapError seen' =
      (formatLines options plan newline tracker blanks lines).mapError seen := by
  induction lines generalizing tracker blanks with
  | nil =>
    rw [List.map_nil, formatLines, formatLines, mapError_map, mapError_map,
      Tracker.finish_move hsame]
  | cons line lines ih =>
    have hsome : (line.map f).newline.isSome = line.newline.isSome := Option.isSome_map
    have hended : ∀ text, ended newline (line.map f) text = ended newline line text := by
      intro text
      rw [ended, hsome, ended]
    rw [List.map_cons, formatLines, formatLines, Line.isBlank_map hf.kind]
    split
    · simp only [hended, hsome]
      rw [mapError_map, mapError_map]
      exact congrArg (Except.map _) (ih tracker _)
    · have hdepth := lineDepth_map hf hsame tracker line
      generalize lineDepth (tracker.move g) (line.map f) = moved at hdepth ⊢
      cases hline : lineDepth tracker line with
      | error e =>
        rw [hline] at hdepth
        cases moved with
        | ok r => cases hdepth
        | error e' => exact congrArg Except.error (Except.error.inj hdepth)
      | ok r =>
        rw [hline] at hdepth
        cases moved with
        | error e' => cases hdepth
        | ok r' =>
          obtain rfl := Except.ok.inj hdepth
          simp only [hended, pieces_map hf htext]
          rw [mapError_map, mapError_map]
          exact congrArg (Except.map _) (ih r.1 0)

/-- Tokens elsewhere are laid out the same, or fail in the same way. -/
theorem formatTokens_map (options : LayoutOptions) (tokens : List Token) :
    (formatTokens options (tokens.map f)).mapError seen' =
      (formatTokens options tokens).mapError seen := by
  rw [formatTokens, Line.ofTokens_map hf.kind, ofLines_map hf htext, newlineOf_map hf htext]
  exact formatLines_map hf htext hsame options _ _ .empty 0 _

end Maps

end Layout
end VbaWorkbench
