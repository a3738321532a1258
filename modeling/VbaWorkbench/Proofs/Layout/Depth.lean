import VbaWorkbench.Proofs.Block.Alike
import VbaWorkbench.Proofs.Layout.Code

namespace VbaWorkbench

/-- A line after a change of its tokens. -/
def Line.map (f : Token → Token) (line : Line) : Line :=
  ⟨line.tokens.map f, line.newline.map f⟩

namespace Layout

section Maps

variable {β : Type} {g : Nat → Nat} {f : Token → Token} (hf : Token.Keeps g f)
  {seen seen' : Imbalance → β} (hsame : Imbalance.Same g f seen' seen)

theorem any_map (f : Token → Token) (statements : List (List Token)) :
    (statements.map (List.map f)).any (!·.isEmpty) = statements.any (!·.isEmpty) := by
  rw [List.any_map]
  congr 1
  funext words
  simp

include hf

include hsame in
/-- Changed statements leave the same blocks open, or the same one fails. -/
theorem follow_map (tracker : Tracker) (depth : Option Nat) (statements : List (List Token)) :
    (follow (tracker.move g) depth (statements.map (List.map f))).mapError seen' =
      ((follow tracker depth statements).map fun (out, d) => (out.move g, d)).mapError seen := by
  induction statements generalizing tracker depth with
  | nil => rfl
  | cons words rest ih =>
    rw [List.map_cons, follow, follow, List.isEmpty_map]
    cases words.isEmpty with
    | true => exact ih tracker depth
    | false =>
      simp only [any_map, Bool.false_eq_true, if_false]
      have hrole := Statement.role_map hf words (rest.any (!·.isEmpty))
      obtain ⟨hout, hresult⟩ := Tracker.apply_move
        (hsame.statement words (rest.any (!·.isEmpty))) hrole
        (Statement.offset_map hf words (rest.any (!·.isEmpty))) tracker
      rw [hrole]
      generalize (tracker.move g).apply (Statement.ofTokens (words.map f) _) = moved at *
      generalize tracker.apply (Statement.ofTokens words _) = applied at *
      obtain ⟨out', result'⟩ := moved
      obtain ⟨out, result⟩ := applied
      obtain rfl : out' = out.move g := hout
      cases result with
      | error e =>
        cases result' with
        | ok d => cases hresult
        | error e' => exact congrArg Except.error (Except.error.inj hresult)
      | ok d =>
        cases result' with
        | error e' => cases hresult
        | ok d' =>
          obtain rfl : d' = d := Except.ok.inj hresult
          by_cases hsingle : (Statement.ofTokens words (rest.any (!·.isEmpty))).role = .singleLineIf
          · simp [hsingle, Except.map, Except.mapError]
          · simpa [hsingle] using ih out (depth.or (some d'))

theorem atMargin_map (statements : List (List Token)) :
    atMargin (statements.map (List.map f)) = atMargin statements := by
  match statements with
  | [] => rfl
  | [] :: rest => rfl
  | (lead :: words) :: rest => simp [atMargin, hf.isPunctuation '#' rfl, hf.kind]

theorem statements_map (line : Line) :
    (line.map f).statements = line.statements.map (List.map f) := by
  have hkind : (fun t : Token => (f t).kind == TokenKind.statementSeparator) =
      fun t => t.kind == TokenKind.statementSeparator := by
    funext t
    rw [hf.kind]
  rw [Line.statements, Line.map, splitOnP_map, hkind, Line.statements]

include hsame in
/-- A changed line has the depth that it had. -/
theorem lineDepth_map (tracker : Tracker) (line : Line) :
    (lineDepth (tracker.move g) (line.map f)).mapError seen' =
      ((lineDepth tracker line).map fun (out, depth) => (out.move g, depth)).mapError seen := by
  have hwords : (line.map f).statements.map significant =
      (line.statements.map significant).map (List.map f) := by
    rw [statements_map hf, List.map_map, List.map_map]
    exact List.map_congr_left fun words _ => hf.significant_map words
  have hfollow := follow_map hf hsame tracker none (line.statements.map significant)
  simp only [lineDepth, hwords, atMargin_map hf]
  generalize follow (tracker.move g) none _ = moved at *
  generalize follow tracker none _ = followed at *
  cases followed with
  | error e =>
    cases moved with
    | ok r => cases hfollow
    | error e' => exact congrArg Except.error (Except.error.inj hfollow)
  | ok r =>
    cases moved with
    | error e' => cases hfollow
    | ok r' =>
      obtain rfl := Except.ok.inj hfollow
      simp [Except.map, Except.mapError]

end Maps

theorem splitOnP_filter {α : Type} {p q : α → Bool} (h : ∀ x, p x = true → q x = true)
    (xs : List α) : (xs.filter q).splitOnP p = (xs.splitOnP p).map (List.filter q) := by
  induction xs with
  | nil => rfl
  | cons x xs ih =>
    rw [List.splitOnP_cons_eq_if_modifyHead]
    cases hq : q x with
    | true =>
      rw [List.filter_cons_of_pos hq, List.splitOnP_cons_eq_if_modifyHead, ih]
      split
      · rfl
      · cases xs.splitOnP p with
        | nil => rfl
        | cons seg segs => simp [hq]
    | false =>
      have hp : ¬p x = true := fun hp => by rw [h x hp] at hq; cases hq
      rw [List.filter_cons_of_neg (by simp [hq]), ih, if_neg hp]
      cases xs.splitOnP p with
      | nil => rfl
      | cons seg segs => simp [hq]

theorem significant_significant (tokens : List Token) :
    significant (significant tokens) = significant tokens := by
  simp [significant]

/-- The statements of a line are cut out of what is significant in it. -/
theorem statements_significant (line : Line) :
    (Line.mk (significant line.tokens) none).statements = line.statements.map significant := by
  refine splitOnP_filter (fun t ht => ?_) line.tokens
  rw [Token.isSignificant, eq_of_beq ht]

theorem lineDepth_significant (tracker : Tracker) (line : Line) :
    lineDepth tracker ⟨significant line.tokens, none⟩ = lineDepth tracker line := by
  have hwords : (Line.mk (significant line.tokens) none).statements.map significant =
      line.statements.map significant := by
    rw [statements_significant, List.map_map]
    exact List.map_congr_left fun words _ => significant_significant words
  rw [lineDepth, lineDepth, hwords]

/-- Lines whose words have the same keys have the same depth. -/
theorem lineDepth_of_key_eq {tracker tracker' out : Tracker} {depth : Nat} {line line' : Line}
    (hkey : tracker'.key = tracker.key)
    (hline : (significant line'.tokens).map Token.key = (significant line.tokens).map Token.key)
    (h : lineDepth tracker line = .ok (out, depth)) :
    ∃ out', lineDepth tracker' line' = .ok (out', depth) ∧ out'.key = out.key := by
  have hwords : (Line.mk (significant line'.tokens) none).map Token.key =
      (Line.mk (significant line.tokens) none).map Token.key :=
    congrArg (Line.mk · none) hline
  have hsite := Imbalance.site_same Token.key_keeps
  have hdepth := lineDepth_map Token.key_keeps hsite tracker ⟨significant line.tokens, none⟩
  have hdepth' := lineDepth_map Token.key_keeps hsite tracker' ⟨significant line'.tokens, none⟩
  rw [hwords, Tracker.move_of_key_eq hkey, hdepth, lineDepth_significant, lineDepth_significant,
    h] at hdepth'
  cases hd : lineDepth tracker' line' with
  | error e =>
    rw [hd] at hdepth'
    cases hdepth'
  | ok r =>
    rw [hd] at hdepth'
    obtain ⟨hout, rfl⟩ := Prod.mk.inj (Except.ok.inj hdepth')
    exact ⟨r.1, rfl, congrArg Tracker.stack hout.symm⟩

end Layout
end VbaWorkbench
