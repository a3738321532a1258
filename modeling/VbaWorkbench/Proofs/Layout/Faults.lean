import VbaWorkbench.Proofs.Block.Balance
import VbaWorkbench.Proofs.Block.Leading
import VbaWorkbench.Proofs.Block.Levels
import VbaWorkbench.Proofs.Layout.LetterCase
import VbaWorkbench.Proofs.Line.Tokens

namespace VbaWorkbench

namespace Tracker

/-- A statement that cannot be applied is a closer or a clause, and is itself to blame. -/
theorem apply_error {t : Tracker} {s : Statement} {e : Imbalance} (h : (t.apply s).2 = .error e) :
    e.construct = s.construct ∧ e.offset = s.offset ∧ (∀ kind, e.fault ≠ .unclosedOpener kind) ∧
      s.role ≠ .plain ∧ s.role ≠ .singleLineIf ∧ ∀ kind, s.role ≠ .opener kind := by
  have hclose : ∀ kind count depth stack, (close kind s count depth stack).2 = .error e →
      e.construct = s.construct ∧ e.offset = s.offset ∧
        ∀ kind, e.fault ≠ .unclosedOpener kind := by
    intro kind count depth stack herror
    induction count generalizing depth stack with
    | zero => cases herror
    | succ count ih =>
      cases stack with
      | nil =>
        obtain rfl := Except.error.inj herror
        simp
      | cons frame stack =>
        rw [close] at herror
        split at herror
        · exact ih _ _ herror
        · obtain rfl := Except.error.inj herror
          simp
  unfold apply at h
  split at h
  · cases h
  · cases h
  · cases h
  · rename_i kind count hrole
    obtain ⟨hconstruct, hoffset, hfault⟩ := hclose kind count _ _ h
    simp [hrole, hconstruct, hoffset, hfault]
  · rename_i kind hrole
    cases hstack : t.stack with
    | nil =>
      rw [hstack] at h
      obtain rfl := Except.error.inj h
      simp [hrole]
    | cons frame stack =>
      simp only [hstack, enterClause] at h
      split at h
      · obtain rfl := Except.error.inj h
        simp [hrole]
      · split at h <;> cases h

end Tracker

namespace Layout

/-- The statements of a line that the blocks hear of, each with its words: those with code, up to a
single-line `If`. -/
def followed : List (List Token) → List (List Token × Statement)
  | [] => []
  | words :: rest =>
    if words.isEmpty then followed rest
    else
      let statement := Statement.ofTokens words (rest.any (!·.isEmpty))
      (words, statement) :: if statement.role = .singleLineIf then [] else followed rest

/-- Those of all lines, in the order of the source. -/
def followedAll (lines : List Line) : List (List Token × Statement) :=
  (lines.filter (!·.isBlank)).flatMap fun line => followed (line.statements.map significant)

theorem follow_followed (tracker : Tracker) (depth : Option Nat) (statements : List (List Token)) :
    (follow tracker depth statements).map (·.1) =
      tracker.applyAll ((followed statements).map (·.2)) := by
  induction statements generalizing tracker depth with
  | nil => rfl
  | cons words rest ih =>
    rw [follow, followed]
    split
    · exact ih tracker depth
    · dsimp only
      rw [List.map_cons, Tracker.applyAll]
      cases happly : tracker.apply (Statement.ofTokens words (rest.any (!·.isEmpty))) with
      | mk next result =>
        cases result with
        | error e => rfl
        | ok d =>
          dsimp only
          split
          · rfl
          · exact ih next _

/-- The lines balance exactly if the statements that the blocks hear of do. -/
theorem checkLines_followedAll (tracker : Tracker) (lines : List Line) :
    checkLines tracker lines =
      (tracker.applyAll ((followedAll lines).map (·.2))).bind Tracker.finish := by
  induction lines generalizing tracker with
  | nil => rfl
  | cons line lines ih =>
    rw [checkLines, followedAll]
    split
    · rename_i hblank
      rw [List.filter_cons_of_neg (by simp [hblank])]
      exact ih tracker
    · rename_i hblank
      rw [List.filter_cons_of_pos (by simpa using hblank), List.flatMap_cons, List.map_append,
        Tracker.applyAll_append, ← follow_followed tracker none, lineDepth]
      cases hfollow : follow tracker none (line.statements.map significant) with
      | error e => rfl
      | ok out => exact ih out.1

theorem mem_followed {statements : List (List Token)} {words : List Token} {s : Statement}
    (h : (words, s) ∈ followed statements) :
    words ∈ statements ∧ ∃ codeFollows, s = Statement.ofTokens words codeFollows := by
  induction statements with
  | nil => cases h
  | cons first rest ih =>
    have hrest : (words, s) ∈ followed rest → words ∈ first :: rest ∧
        ∃ codeFollows, s = Statement.ofTokens words codeFollows := by
      intro hmem
      obtain ⟨hwords, hs⟩ := ih hmem
      exact ⟨List.mem_cons_of_mem first hwords, hs⟩
    rw [followed] at h
    split at h
    · exact hrest h
    · rcases List.mem_cons.mp h with heq | hmem
      · obtain ⟨rfl, rfl⟩ := Prod.mk.inj heq
        exact ⟨List.mem_cons_self, _, rfl⟩
      · split at hmem
        · cases hmem
        · exact hrest hmem

/-- A statement that the blocks hear of is read from significant tokens of the source. -/
theorem mem_followedAll {tokens words : List Token} {s : Statement}
    (h : (words, s) ∈ followedAll (Line.ofTokens tokens)) :
    significant words = words ∧ (∀ t ∈ words, t ∈ tokens) ∧
      ∃ codeFollows, s = Statement.ofTokens words codeFollows := by
  obtain ⟨line, hline, hfollowed⟩ := List.mem_flatMap.mp h
  obtain ⟨hwords, hs⟩ := mem_followed hfollowed
  obtain ⟨statement, hstatement, rfl⟩ := List.mem_map.mp hwords
  refine ⟨significant_significant statement, ?_, hs⟩
  intro t ht
  have htoken := Line.mem_of_mem_statements hstatement (List.mem_filter.mp ht).1
  exact Line.mem_of_mem_tokens (List.mem_filter.mp hline).1 htoken

/-- The token that an error points at. Either the first statement that cannot be applied begins with
it, after a line number, or the statement that opened the innermost block still open at the end has
it as its first word behind the line number and the modifiers. -/
inductive PointsAt (statements : List (List Token × Statement)) (token : Token) (e : Imbalance) :
    Prop
  | failing {before after : List (List Token × Statement)} {words : List Token} {s : Statement}
      {tracker : Tracker} (split : statements = before ++ (words, s) :: after)
      (run : Tracker.empty.applyAll (before.map (·.2)) = .ok tracker)
      (fails : (tracker.apply s).2 = .error e) (fault : ∀ kind, e.fault ≠ .unclosedOpener kind)
      (first : (withoutLineNumber words).head? = some token)
      (word : token.text = Text.firstWord e.construct)
  | unclosed {before after : List (List Token × Statement)} {words : List Token} {s : Statement}
      {frame : Frame} {outer : List Frame}
      (run : Tracker.empty.applyAll (statements.map (·.2)) = .ok ⟨frame :: outer⟩)
      (split : statements = before ++ (words, s) :: after) (role : s.role = .opener frame.kind)
      (inside : Nested (some frame.kind) (after.flatMap (·.2.role.brackets)))
      (place : frame.offset = token.start) (fault : e.fault = .unclosedOpener frame.kind)
      (closer : (⟨frame :: outer⟩ : Tracker).apply
        (.ofTokens (tokenize frame.kind.closing.toList) false) = (⟨outer⟩, .ok (frame.level - 1)))
      (opener : ((withoutLineNumber words).dropWhile Token.isModifier).head? = some token)
      (word : Text.sameAscii token.text (Text.firstWord e.construct) = true)

section Source

variable {tokens : List Token} {e : Imbalance}

/-- A statement is reported at one of the tokens that it is read from. -/
theorem mem_of_leading {words : List Token} {token : Token} (hsame : significant words = words)
    (h : (Statement.leading words).head? = some token) : token ∈ words := by
  have hlead := List.dropWhile_sublist _ |>.mem (List.mem_of_head? h)
  rw [hsame] at hlead
  cases words with
  | nil => cases hlead
  | cons first rest =>
    rw [withoutLineNumber] at hlead
    split at hlead
    · exact List.mem_cons_of_mem first hlead
    · exact hlead

theorem exists_failing_token
    (h : Tracker.empty.applyAll ((followedAll (Line.ofTokens tokens)).map (·.2)) = .error e) :
    ∃ token ∈ tokens, token.kind = .keyword ∧ token.start = e.offset ∧
      PointsAt (followedAll (Line.ofTokens tokens)) token e := by
  obtain ⟨before, s, after, tracker, hsplit, hrun, hfails⟩ := exists_failing h
  obtain ⟨before, rest, hlist, rfl, hrest⟩ := List.map_eq_append_iff.mp hsplit
  obtain ⟨⟨words, _⟩, after, rfl, rfl, rfl⟩ := List.map_eq_cons_iff.mp hrest
  obtain ⟨hconstruct, hoffset, hfault, hplain, hsingle, hopener⟩ := Tracker.apply_error hfails
  have hmem : (words, _) ∈ followedAll (Line.ofTokens tokens) :=
    hlist ▸ List.mem_append_right before List.mem_cons_self
  obtain ⟨hsame, hwords, codeFollows, rfl⟩ := mem_followedAll hmem
  obtain ⟨token, hlead, hled, hfirst⟩ := Statement.exists_led words codeFollows hplain
  have hreported : Statement.ReportedAt (Statement.ofTokens words codeFollows) token := by
    cases hled with
    | opener kind role => exact absurd role (hopener kind)
    | closer _ _ _ reported => exact reported
    | clause _ _ reported => exact reported
    | none role => exact absurd role (not_or.mpr ⟨hplain, hsingle⟩)
  refine ⟨token, hwords token (mem_of_leading hsame hlead), hreported.keyword,
    hreported.start.trans hoffset.symm, .failing hlist hrun hfails hfault ?_ ?_⟩
  · rw [← hsame]
    exact hfirst hopener
  · rw [hconstruct]
    exact hreported.word.symm

theorem exists_unclosed_token {tracker : Tracker}
    (h : Tracker.empty.applyAll ((followedAll (Line.ofTokens tokens)).map (·.2)) = .ok tracker)
    (hfinish : tracker.finish = .error e) :
    ∃ token ∈ tokens, token.kind = .keyword ∧ token.start = e.offset ∧
      PointsAt (followedAll (Line.ofTokens tokens)) token e := by
  obtain ⟨stack⟩ := tracker
  cases stack with
  | nil => cases hfinish
  | cons frame outer =>
    obtain rfl := Except.error.inj hfinish
    generalize hss : (followedAll (Line.ofTokens tokens)).map (·.2) = ss at h
    obtain - | @⟨before, after, s, _, _, _, -, hrole, hoffset, hinside⟩ := leaves_of_run h
    obtain ⟨before, rest, hlist, rfl, hrest⟩ := List.map_eq_append_iff.mp hss
    obtain ⟨⟨words, _⟩, after, rfl, rfl, rfl⟩ := List.map_eq_cons_iff.mp hrest
    have hmem : (words, _) ∈ followedAll (Line.ofTokens tokens) :=
      hlist ▸ List.mem_append_right before List.mem_cons_self
    obtain ⟨hsame, hwords, codeFollows, rfl⟩ := mem_followedAll hmem
    dsimp only at hrole hoffset
    obtain ⟨token, hlead, hled, -⟩ :=
      Statement.exists_led words codeFollows (by rw [hrole]; simp)
    rw [List.append_nil, List.flatMap_map] at hinside
    cases hled with
    | opener kind role opens reported =>
      obtain rfl := Role.opener.inj (hrole.symm.trans role)
      refine ⟨token, hwords token (mem_of_leading hsame hlead), reported.keyword,
        reported.start.trans hoffset, .unclosed (hss ▸ h) hlist hrole hinside
          (reported.start.trans hoffset).symm rfl (Tracker.apply_closing frame outer) ?_ opens⟩
      rw [← hsame]
      exact hlead
    | closer kind count role => rw [hrole] at role; cases role
    | clause kind role => rw [hrole] at role; cases role
    | none role => rw [hrole] at role; simp at role

end Source
end Layout

/-- The error of a layout stands at a keyword of the source, which is the first word of what the
error names. It is the one that begins the first statement that the blocks cannot take, or, if they
take all, the one that opened the innermost block that is never closed; the error then names the
words that would close it. -/
theorem format_error_located {options : LayoutOptions} {source : Text} {e : Imbalance}
    (h : format options source = .error e) :
    ∃ token ∈ tokenize source, token.kind = .keyword ∧ token.start = e.offset ∧
      Layout.PointsAt (Layout.followedAll (Line.ofTokens (tokenize source))) token e := by
  have hcheck := Layout.format_check options source
  rw [h, Layout.checkLines_followedAll] at hcheck
  cases hrun : Tracker.empty.applyAll
      ((Layout.followedAll (Line.ofTokens (tokenize source))).map (·.2)) with
  | error e' =>
    rw [hrun] at hcheck
    obtain rfl := Except.error.inj hcheck
    exact Layout.exists_failing_token hrun
  | ok tracker =>
    rw [hrun] at hcheck
    exact Layout.exists_unclosed_token hrun hcheck.symm

/-- `Next j, i` closes the loop and then meets the procedure. Without it the loop is never
closed. -/
theorem format_error_located_loop :
    let source := "10 Private Sub a()\nFor i = 1 To 2: If x Then y: End If\n20 Next j, i".toList
    let source' := "10 Private Sub a()\nfor i = 1 To 2: If x Then y: End If".toList
    let e : Imbalance := ⟨"Next".toList, 58, .mismatchedCloser .sub⟩
    let e' : Imbalance := ⟨"For".toList, 19, .unclosedOpener .forLoop⟩
    (format .default source = .error e ∧
      ∃ token ∈ tokenize source, token.kind = .keyword ∧ token.start = 58 ∧
        Layout.PointsAt (Layout.followedAll (Line.ofTokens (tokenize source))) token e) ∧
    format .default source' = .error e' ∧
      ∃ token ∈ tokenize source', token.kind = .keyword ∧ token.start = 19 ∧
        Layout.PointsAt (Layout.followedAll (Line.ofTokens (tokenize source'))) token e' := by
  intro source source' e e'
  have h : format .default source = .error e := by decide +kernel
  have h' : format .default source' = .error e' := by decide +kernel
  exact ⟨⟨h, format_error_located h⟩, h', format_error_located h'⟩

end VbaWorkbench
