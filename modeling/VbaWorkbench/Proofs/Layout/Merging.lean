import VbaWorkbench.Proofs.Layout.SameCode

namespace VbaWorkbench

/-- How many lines have code. `begun` says that the first line has some already. -/
def codeLineCount (begun : Bool) : List Lexeme → Nat
  | [] => begun.toNat
  | l :: ls =>
    if l.kind = .newline then begun.toNat + codeLineCount false ls
    else codeLineCount (begun || l.isCode) ls

section Count

theorem count_append {b : Bool} {ls ms ms' : List Lexeme}
    (h : ∀ b, codeLineCount b ms ≤ codeLineCount b ms') :
    codeLineCount b (ls ++ ms) ≤ codeLineCount b (ls ++ ms') := by
  induction ls generalizing b with
  | nil => exact h b
  | cons l ls ih =>
    rw [List.cons_append, List.cons_append, codeLineCount, codeLineCount]
    split
    · exact Nat.add_le_add_left ih _
    · exact ih

/-- Code that has begun a line counts for no more than one line. -/
theorem count_begun (ls : List Lexeme) :
    codeLineCount false ls ≤ codeLineCount true ls ∧
      codeLineCount true ls ≤ codeLineCount false ls + 1 := by
  induction ls with
  | nil => decide
  | cons l ls ih =>
    rw [codeLineCount, codeLineCount]
    split
    · simp only [Bool.toNat_false, Bool.toNat_true]
      omega
    · cases l.isCode with
      | true => simp
      | false => exact ih

theorem count_le_true (b : Bool) (ls : List Lexeme) :
    codeLineCount b ls ≤ codeLineCount true ls := by
  cases b with
  | false => exact (count_begun ls).1
  | true => exact Nat.le_refl _

theorem count_newline {b : Bool} {nl : Lexeme} (h : nl.kind = .newline) (ls : List Lexeme) :
    codeLineCount b (nl :: ls) = b.toNat + codeLineCount false ls := by
  rw [codeLineCount, if_pos h]

end Count

/-- States that agree, or differ only in that a statement has begun in the first. -/
def Later (state state' : ScanState) : Prop :=
  state = state' ∨ state.afterBlank = state'.afterBlank ∧ state'.statementStart = true

theorem Later.after {state state' : ScanState} (h : Later state state') (shape : Shape) :
    Later (state.after shape) (state'.after shape) := by
  obtain ⟨start, blank⟩ := state
  obtain ⟨start', blank'⟩ := state'
  rcases h with h | ⟨hb, hs⟩
  · exact .inl (by rw [h])
  · obtain rfl : blank = blank' := hb
    obtain rfl : start' = true := hs
    cases shape with
    | whitespace | brokenUnderscore | comment => exact .inr ⟨rfl, rfl⟩
    | _ => exact .inl rfl

/-- The end of a line is read alike from every state. -/
theorem scanFrom_endsLine {z : Text} (hz : z.EndsLine) (state state' : ScanState) :
    scanFrom state z = scanFrom state' z := by
  cases z with
  | nil => rw [scanFrom_nil, scanFrom_nil]
  | cons d z =>
    rw [scanFrom_cons, scanFrom_cons, scanStep_lineBreak hz, scanStep_lineBreak hz]
    rfl

/-- The text has no more lines with code when it is read from the first state. -/
def FewerLines (state state' : ScanState) (t : Text) : Prop :=
  ∀ b, codeLineCount b (scanFrom state t) ≤ codeLineCount b (scanFrom state' t)

theorem many_split (p : Char → Bool) (t : Text) :
    t.take (Reach.many p t) = t.takeWhile p ∧ t.drop (Reach.many p t) = t.dropWhile p := by
  have htake : (t.takeWhile p ++ t.dropWhile p).take (t.takeWhile p).length = t.takeWhile p :=
    List.take_left
  have hdrop : (t.takeWhile p ++ t.dropWhile p).drop (t.takeWhile p).length = t.dropWhile p :=
    List.drop_left
  rw [List.takeWhile_append_dropWhile] at htake hdrop
  exact ⟨htake, hdrop⟩

/-- A comment is cut out of its line. -/
theorem comment_split (rest : Text) :
    let n := Reach.many (fun d => !Text.isLineBreak d) rest
    (∀ d ∈ rest.take n, Text.isLineBreak d = false) ∧ Text.EndsLine (rest.drop n) := by
  obtain ⟨htake, hdrop⟩ := many_split (fun d => !Text.isLineBreak d) rest
  simp only [htake, hdrop]
  constructor
  · intro d hd
    simpa using List.all_eq_true.mp List.all_takeWhile d hd
  · have hhead := List.head?_dropWhile_not (fun d => !Text.isLineBreak d) rest
    rw [Text.EndsLine]
    cases hd : (rest.dropWhile fun d => !Text.isLineBreak d).head? with
    | none => rfl
    | some d =>
      rw [hd] at hhead
      simpa using hhead

theorem ofShape_congr {state state' : ScanState} (h : state.afterBlank = state'.afterBlank)
    (shape : Shape) (text next : Text) :
    Lexeme.ofShape state shape text next = Lexeme.ofShape state' shape text next := by
  cases shape <;> simp only [Lexeme.ofShape, h]

section Late

theorem count_of_not_newline {b : Bool} {l : Lexeme} (h : l.kind ≠ .newline) (ls : List Lexeme) :
    codeLineCount b (l :: ls) = codeLineCount (b || l.isCode) ls := by
  rw [codeLineCount, if_neg h]

/-- The line break that is part of a continuation is the one that ends its line. -/
theorem break_of_continuation {state : ScanState} {l : Lexeme} {e : Char} {y z next : Text}
    (hread : l.ReadsIn state next) (hk : l.kind = .lineContinuation)
    (htext : e :: (y ++ z) = l.text ++ next) (hy : ∀ d ∈ y, Text.isLineBreak d = false) :
    ∃ br, br ≠ [] ∧ z = br ++ next ∧ Lexeme.ReadsIn .initial next ⟨.newline, br⟩ := by
  obtain ⟨-, br, hbr, hbreak⟩ := (readsIn_layout hread).2.2 hk
  rw [hbr, List.cons_append, List.cons.injEq] at htext
  have hisBreak : Text.IsBreak br := (readsIn_layout hbreak).2.1 rfl
  refine ⟨br, hisBreak.ne_nil, ?_, hbreak⟩
  cases y with
  | nil => exact htext.2
  | cons f y =>
    have hends := hisBreak.endsLine next
    rw [← htext.2] at hends
    exact absurd (hy f (by simp)) (by simpa [Text.EndsLine] using hends)

/-- The rest of a line makes no more lines than a comment in its place. -/
theorem count_in_place_of_comment {z : Text} (hz : z.EndsLine)
    (hlater : ∀ t state, t.length < z.length → state.afterBlank = false →
      FewerLines state .initial t)
    (y : Text) (state : ScanState) (hy : ∀ d ∈ y, Text.isLineBreak d = false) :
    codeLineCount true (scanFrom state (y ++ z)) ≤ codeLineCount true (scanFrom .initial z) := by
  match y with
  | [] =>
    exact Nat.le_of_eq (congrArg (codeLineCount true) (scanFrom_endsLine hz state .initial))
  | e :: y =>
    obtain ⟨l, next, htext, -, hread⟩ := exists_readsIn state e (y ++ z)
    have hscan := scanFrom_of_readsIn hread
    rw [← htext] at hscan
    have hnewline : l.kind ≠ .newline := by
      intro hk
      have hends := ((readsIn_layout hread).2.1 hk).endsLine next
      rw [← htext] at hends
      exact absurd (hy e (by simp)) (by simpa [Text.EndsLine] using hends)
    rw [List.cons_append, hscan, count_of_not_newline hnewline, Bool.true_or]
    by_cases hk : l.kind = .lineContinuation
    · obtain ⟨br, hne, hz', hbreak⟩ := break_of_continuation hread hk htext fun d hd =>
        hy d (List.mem_cons_of_mem _ hd)
      have hcomment : scanFrom .initial z = ⟨.newline, br⟩ :: scanFrom .initial next := by
        rw [hz']
        exact scanFrom_of_readsIn hbreak
      have hshort : next.length < z.length := by
        have hpos := List.length_pos_iff.mpr hne
        rw [hz', List.length_append]
        omega
      rw [hcomment, hk, count_newline rfl]
      have hfewer := hlater next (state.next .lineContinuation) hshort rfl true
      have hbegun := (count_begun (scanFrom .initial next)).2
      simp only [Bool.toNat_true]
      omega
    · have hinside := no_lineBreak_inside hread hnewline hk
      obtain ⟨c, cs, hl, -⟩ := id hread
      rw [← List.cons_append] at htext
      rcases List.append_eq_append_iff.mp htext with ⟨a, ha, hz'⟩ | ⟨a, ha, hnext⟩
      · -- A lexeme that went on behind the comment would hold its line break.
        have hnil : a = [] := by
          cases a with
          | nil => rfl
          | cons d a =>
            rw [hz', List.cons_append, Text.EndsLine] at hz
            have hd := hinside d (by rw [ha]; simp)
            exact absurd hd (by simpa using hz)
        subst hnil
        rw [show next = [] ++ z by simpa using hz'.symm]
        exact count_in_place_of_comment hz hlater [] _ (by simp)
      · have hshort : a.length < (e :: y).length := by
          rw [ha, hl, List.length_append, List.length_cons]
          omega
        rw [hnext]
        refine count_in_place_of_comment hz hlater a _ fun d hd => hy d ?_
        rw [ha]
        exact List.mem_append_right _ hd
termination_by y.length
decreasing_by
  · exact Nat.zero_lt_succ _
  · exact hshort

/-- A line that begins with `Rem` counts for one, whatever stands behind it. -/
theorem count_remark {state : ScanState} {c : Char} {rest : Text} {shape : Shape} {n : Nat}
    (hstart : state.statementStart = true) (hread : Shape.read c rest = (shape, n))
    (hr : beginsRemark state shape (c :: rest.take n) = true) (b : Bool) :
    Text.isLineBreak c = false ∧
      codeLineCount b (scanFrom state (c :: rest)) = codeLineCount true (scanFrom .initial
        (rest.drop (Reach.many (fun d => !Text.isLineBreak d) rest))) := by
  constructor
  · cases hc : Text.isLineBreak c with
    | false => rfl
    | true =>
      rw [Shape.read_lineBreak hc] at hread
      obtain rfl := congrArg Prod.fst hread
      cases hr
  · have hnext : state.next .comment = .initial := by
      rw [ScanState.next, hstart]
      rfl
    rw [scanFrom_cons, scanStep_remark hread hr, hnext, List.singleton_append,
      count_of_not_newline (by simp)]
    cases b <;> rfl

/-- Where a statement has begun already, `Rem` begins no comment, and no new lines come of that. -/
theorem fewerLines_of_later {state state' : ScanState} (h : Later state state') (t : Text) :
    FewerLines state state' t := by
  intro b
  rcases h with rfl | ⟨hblank, hstart'⟩
  · exact Nat.le_refl _
  cases hstart : state.statementStart with
  | true =>
    have hsame : state = state' := by
      obtain ⟨start, blank⟩ := state
      obtain ⟨start', blank'⟩ := state'
      rw [ScanState.mk.injEq]
      exact ⟨hstart.trans hstart'.symm, hblank⟩
    exact Nat.le_of_eq (congrArg (fun state => codeLineCount b (scanFrom state t)) hsame)
  | false =>
  match t with
  | [] =>
    have hnil : scanFrom state [] = scanFrom state' [] := by rw [scanFrom_nil, scanFrom_nil]
    exact Nat.le_of_eq (congrArg (codeLineCount b) hnil)
  | c :: rest =>
    cases hread : Shape.read c rest with
    | mk shape n =>
    have hcode : beginsRemark state shape (c :: rest.take n) = false := by
      rw [beginsRemark, hstart]
      simp
    cases hr : beginsRemark state' shape (c :: rest.take n) with
    | false =>
      rw [scanFrom_cons, scanFrom_cons, scanStep_code hread hcode, scanStep_code hread hr,
        ofShape_congr hblank]
      have hlater : Later state state' := .inr ⟨hblank, hstart'⟩
      exact count_append (fewerLines_of_later (hlater.after shape) (rest.drop n))
    | true =>
      obtain ⟨htake, hdrop⟩ := comment_split rest
      obtain ⟨hc, hcomment⟩ := count_remark hstart' hread hr b
      rw [hcomment]
      have hplace := count_in_place_of_comment hdrop (fun t state hshort hb =>
          fewerLines_of_later (.inr ⟨hb, rfl⟩) t)
        (c :: rest.take (Reach.many (fun d => !Text.isLineBreak d) rest)) state (by
          intro d hd
          rcases List.mem_cons.mp hd with rfl | hd
          · exact hc
          · exact htake d hd)
      rw [List.cons_append, List.take_append_drop] at hplace
      exact Nat.le_trans (count_le_true b _) hplace
termination_by t.length
decreasing_by
  · simp only [List.length_cons, List.length_drop]
    omega
  · simp only [List.length_cons, List.length_drop] at hshort ⊢
    omega

end Late

namespace Layout

theorem length_codeRuns (begun ls : List Lexeme) :
    (codeRuns begun ls).length = codeLineCount (!begun.isEmpty) ls := by
  have hbegun : ∀ begun : List Lexeme,
      ([begun].filter (!·.isEmpty)).length = (!begun.isEmpty).toNat := by
    intro begun
    cases begun <;> rfl
  induction ls generalizing begun with
  | nil => exact hbegun begun
  | cons l ls ih =>
    rw [codeRuns, codeLineCount]
    split
    · rw [List.length_append, hbegun, ih]
      rfl
    · rw [ih]
      cases hl : l.isCode with
      | true => rw [code_cons_of_isCode hl]; cases begun <;> simp
      | false => rw [code_cons_of_not hl]; simp

theorem count_line {ls : List Lexeme} (hnl : ∀ l ∈ ls, l.kind ≠ .newline) (b : Bool)
    (ms : List Lexeme) :
    codeLineCount b (ls ++ ms) = codeLineCount (b || !(code ls).isEmpty) ms := by
  induction ls generalizing b with
  | nil => simp
  | cons l ls ih =>
    rw [List.cons_append, count_of_not_newline (hnl l (by simp)),
      ih fun m hm => hnl m (List.mem_cons_of_mem _ hm)]
    cases hl : l.isCode with
    | true => rw [code_cons_of_isCode hl]; simp
    | false => rw [code_cons_of_not hl, Bool.or_false]

section Dangling

variable {options : LayoutOptions} {newline : Text}
variable (hunit : ∀ c ∈ options.indentUnit, Text.isBlank c = true) (hnewline : newline.IsBreak)
include hunit hnewline

/-- What comes of a line with a dangling underscore: the underscore continues the line. -/
theorem scan_dangling {line : Line} {t : Text} (h : line.bare.WellRead) (hd : line.bare.Dangling)
    (ht : Reach.lineBreak (newline ++ t) = newline.length) (depth : Nat) :
    ∃ ls state, laidLexemes options newline depth line = ls ++ [⟨.punctuation, ['_']⟩] ∧
      code ls ≠ [] ∧ state.afterBlank = false ∧
      scanFrom .initial
          (Lexeme.sourceText (laidLexemes options newline depth line) ++ newline ++ t) =
        ls ++ ⟨.lineContinuation, '_' :: newline⟩ :: scanFrom state t := by
  obtain ⟨p, hp, hloose⟩ := exists_loose_of_dangling hd options.keywordStyle
  have hchain := chain_of_wellRead h options.keywordStyle
  have hne : cores (recaseAll options.keywordStyle false line.bare.lexemes) ≠ [] := by
    intro hnil
    rw [hnil] at hp
    cases hp
  obtain ⟨before, last, hlast, hlaid, hending⟩ := ending_laid hunit hnewline hchain hne depth
  obtain rfl : p = last := Option.some.inj (hp.symm.trans hlast)
  obtain ⟨ls, hls, hreads, hblank, l, hl, hw, hk⟩ := hending.reads_loose hloose
  have hsplit : laidLexemes options newline depth line = ls ++ [⟨.punctuation, ['_']⟩] :=
    hlaid.trans hls
  refine ⟨ls, (ScanState.initial.nextAll ls).next .lineContinuation, hsplit, ?_, rfl, ?_⟩
  · intro hnil
    have hmem : l ∈ code ls := List.mem_filter.mpr ⟨hl, by simp [Lexeme.isCode, hw, hk]⟩
    rw [hnil] at hmem
    cases hmem
  · have hcontinuation : Lexeme.ReadsIn (ScanState.initial.nextAll ls) t
        ⟨.lineContinuation, '_' :: newline⟩ :=
      readsIn_continuation hblank hnewline.ne_nil ht
    have hscan := scanFrom_of_reads (hreads (newline ++ t))
    have hrest := scanFrom_of_readsIn hcontinuation
    simp only [List.cons_append] at hrest
    rw [hsplit, Lexeme.sourceText_append]
    simpa [hrest] using hscan

/-- What comes of another line is that line. -/
theorem scan_laid {line : Line} {t : Text} (h : line.bare.WellRead) (hd : ¬line.bare.Dangling)
    (hsome : line.newline.isSome = true)
    (ht : Reach.lineBreak (newline ++ t) = newline.length) (depth : Nat) :
    scanFrom .initial
        (Lexeme.sourceText (laidLexemes options newline depth line) ++ newline ++ t) =
      laidLexemes options newline depth line ++ newlineLexeme newline :: scanFrom .initial t := by
  have hreads : Reads .initial (newline ++ t) (laidLexemes options newline depth line) := by
    refine reads_laidLexemes hunit hnewline h hd (hnewline.endsLine t) ?_ depth
    intro hnone
    rw [hnone] at hsome
    cases hsome
  rw [List.append_assoc, scanFrom_of_reads hreads, scan_newline hnewline ht]

end Dangling

end Layout
end VbaWorkbench
