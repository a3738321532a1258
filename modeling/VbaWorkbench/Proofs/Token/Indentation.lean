import VbaWorkbench.Proofs.Token.LineCuts

namespace VbaWorkbench

/-- A line break ends before `next` unless a line feed goes on with a carriage return. -/
def Text.EndsBefore (br next : Text) : Prop :=
  br = ['\r'] → next.head? ≠ some '\n'

/-- A line as it is written: its indentation, what comes after it, and the line break, which the
last line lacks. -/
structure PhysicalLine where
  indent : Text
  body : Text
  ending : Text
deriving DecidableEq, Repr

namespace PhysicalLine

def text (line : PhysicalLine) : Text :=
  line.indent ++ (line.body ++ line.ending)

/-- The source that the lines make up. -/
def sourceText (lines : List PhysicalLine) : Text :=
  lines.flatMap text

/-- The line with one more character before its text. -/
def push (c : Char) (line : PhysicalLine) : PhysicalLine :=
  if Text.isBlank c then { line with indent := c :: line.indent }
  else ⟨[], c :: (line.indent ++ line.body), line.ending⟩

/-- The physical lines of a source. -/
def ofSource : Text → List PhysicalLine
  | [] => [⟨[], [], []⟩]
  | '\r' :: '\n' :: rest => ⟨[], [], ['\r', '\n']⟩ :: ofSource rest
  | c :: rest =>
    if Text.isLineBreak c then ⟨[], [], [c]⟩ :: ofSource rest
    else (ofSource rest).modifyHead (push c)

/-- The second line is the first one with another indentation. Before an underscore, which it may
make a continuation, the indentation is kept. -/
structure Reindents (line line' : PhysicalLine) : Prop where
  blank : ∀ c ∈ line'.indent, Text.isBlank c = true
  body : line'.body = line.body
  ending : line'.ending = line.ending
  underscore : line.body.head? = some '_' → line'.indent = line.indent

instance (line line' : PhysicalLine) : Decidable (line.Reindents line') :=
  decidable_of_iff
    (line'.indent.all Text.isBlank = true ∧ line'.body = line.body ∧
      line'.ending = line.ending ∧ (line.body.head? = some '_' → line'.indent = line.indent))
    ⟨fun h => ⟨List.all_eq_true.mp h.1, h.2.1, h.2.2.1, h.2.2.2⟩,
      fun h => ⟨List.all_eq_true.mpr h.blank, h.body, h.ending, h.underscore⟩⟩

/-- The lines are still two where they stand next to each other. -/
def Apart (line next : PhysicalLine) : Prop :=
  line.ending.EndsBefore next.text

instance (line next : PhysicalLine) : Decidable (line.Apart next) :=
  inferInstanceAs (Decidable (_ → _))

/-- The indentation is the whole run of blanks, and no line break stands before the last. -/
structure Shaped (line : PhysicalLine) : Prop where
  blank : ∀ c ∈ line.indent, Text.isBlank c = true
  first : ∀ c ∈ line.body.head?, Text.isBlank c = false
  inside : ∀ c ∈ line.body, Text.isLineBreak c = false

/-- Each line but the last ends with its only line break. -/
inductive Ruled : List PhysicalLine → Prop
  | last (line : PhysicalLine) : line.Shaped → line.ending = [] → Ruled [line]
  | line (line : PhysicalLine) (lines : List PhysicalLine) :
      line.Shaped → line.ending.IsBreak → line.ending.EndsBefore (sourceText lines) →
      Ruled lines → Ruled (line :: lines)

@[simp] theorem sourceText_cons (line : PhysicalLine) (lines : List PhysicalLine) :
    sourceText (line :: lines) = line.text ++ sourceText lines :=
  List.flatMap_cons

theorem sourceText_last (line : PhysicalLine) : sourceText [line] = line.text := by
  rw [sourceText_cons]
  exact List.append_nil _

theorem shaped_empty (ending : Text) : Shaped ⟨[], [], ending⟩ where
  blank := by simp
  first := by simp
  inside := by simp

theorem text_push (c : Char) (line : PhysicalLine) : (push c line).text = c :: line.text := by
  unfold push
  split
  · rfl
  · simp [text]

theorem ending_push (c : Char) (line : PhysicalLine) : (push c line).ending = line.ending := by
  unfold push
  split <;> rfl

theorem Shaped.push {line : PhysicalLine} (h : line.Shaped) {c : Char}
    (hc : Text.isLineBreak c = false) : (push c line).Shaped := by
  unfold PhysicalLine.push
  split
  · rename_i hb
    exact ⟨List.forall_mem_cons.mpr ⟨hb, h.blank⟩, h.first, h.inside⟩
  · rename_i hb
    refine ⟨by simp, by simpa using hb, List.forall_mem_cons.mpr ⟨hc, fun d hd => ?_⟩⟩
    rcases List.mem_append.mp hd with hd | hd
    · exact Text.not_isLineBreak_of_isBlank (h.blank d hd)
    · exact h.inside d hd

theorem Ruled.push {lines : List PhysicalLine} (h : Ruled lines) {c : Char}
    (hc : Text.isLineBreak c = false) :
    Ruled (lines.modifyHead (PhysicalLine.push c)) ∧
      sourceText (lines.modifyHead (PhysicalLine.push c)) = c :: sourceText lines := by
  cases h with
  | last line hshaped hending =>
    refine ⟨.last _ (hshaped.push hc) ((ending_push c line).trans hending), ?_⟩
    rw [List.modifyHead_cons, sourceText_cons, text_push]
    rfl
  | line line lines hshaped hbreak hfeed hrest =>
    rw [← ending_push c line] at hbreak hfeed
    refine ⟨.line _ lines (hshaped.push hc) hbreak hfeed hrest, ?_⟩
    rw [List.modifyHead_cons, sourceText_cons, text_push]
    rfl

/-- The physical lines of a source make it up and are cut at its line breaks. -/
theorem ruled_ofSource (source : Text) :
    Ruled (ofSource source) ∧ sourceText (ofSource source) = source := by
  fun_induction ofSource source with
  | case1 => exact ⟨.last _ (shaped_empty []) rfl, rfl⟩
  | case2 rest ih =>
    refine ⟨.line _ _ (shaped_empty _) (.inr (.inl rfl)) (fun h => by cases h) ih.1, ?_⟩
    rw [sourceText_cons, ih.2]
    rfl
  | case3 c rest hfeed hc ih =>
    refine ⟨.line _ _ (shaped_empty _) (Text.isBreak_singleton hc) ?_ ih.1, ?_⟩
    · intro hreturn hhead
      rw [ih.2] at hhead
      obtain ⟨more, rfl⟩ := List.head?_eq_some_iff.mp hhead
      exact hfeed more (List.cons.inj hreturn).1 rfl
    · rw [sourceText_cons, ih.2]
      rfl
  | case4 c rest hfeed hc ih =>
    obtain ⟨hruled, htext⟩ := ih.1.push (Bool.eq_false_iff.mpr hc)
    exact ⟨hruled, htext.trans (congrArg (c :: ·) ih.2)⟩

/-- The first line is empty only if nothing comes after it. -/
theorem Ruled.head? {line : PhysicalLine} {lines : List PhysicalLine}
    (h : Ruled (line :: lines)) : (sourceText (line :: lines)).head? = line.text.head? := by
  cases h with
  | last _ _ _ => rw [sourceText_last]
  | line _ _ _ hbreak _ _ =>
    have hne : line.text ≠ [] := by simp [text, hbreak.ne_nil]
    rw [sourceText_cons, List.head?_append_of_ne_nil _ hne]

theorem Reindents.shaped {line line' : PhysicalLine} (h : line.Reindents line')
    (hshaped : line.Shaped) : line'.Shaped :=
  ⟨h.blank, by rw [h.body]; exact hshaped.first, by rw [h.body]; exact hshaped.inside⟩

theorem Shaped.reindents {line : PhysicalLine} (h : line.Shaped) : line.Reindents line :=
  ⟨h.blank, rfl, rfl, fun _ => rfl⟩

/-- Another indentation leaves the lines as they are, if no two of them become one. -/
theorem Ruled.reindented {lines lines' : List PhysicalLine} (hruled : Ruled lines)
    (h : List.Forall₂ Reindents lines lines') (hapart : lines'.IsChain Apart) :
    Ruled lines' := by
  induction hruled generalizing lines' with
  | last line hshaped hending =>
    obtain _ | ⟨hline, hnil⟩ := h
    cases hnil
    exact .last _ (hline.shaped hshaped) (hline.ending.trans hending)
  | line line lines hshaped hbreak _ hrest ih =>
    obtain _ | ⟨hline, hlines⟩ := h
    rename_i line' rest'
    cases rest' with
    | nil =>
      cases hlines
      cases hrest
    | cons next more =>
      obtain ⟨hnext, hmore⟩ := List.isChain_cons_cons.mp hapart
      have hruled' := ih hlines hmore
      refine .line _ _ (hline.shaped hshaped) (hline.ending.symm ▸ hbreak) ?_ hruled'
      intro hreturn
      rw [hruled'.head?]
      exact hnext hreturn

end PhysicalLine

/-- A lexeme that ends a physical line. -/
def TokenKind.breaksLine : TokenKind → Bool
  | .newline | .lineContinuation => true
  | _ => false

theorem TokenKind.breaksLine_eq_false {k : TokenKind} :
    k.breaksLine = false ↔ k ≠ .newline ∧ k ≠ .lineContinuation := by
  cases k <;> simp [breaksLine]

theorem ScanState.next_of_breaksLine {k : TokenKind} (h : k.breaksLine = true)
    (state : ScanState) : ∃ start, state.next k = ⟨start, false⟩ := by
  cases k with
  | newline => exact ⟨true, rfl⟩
  | lineContinuation => exact ⟨state.statementStart, rfl⟩
  | _ => cases h

/-- What was read but for the whitespace at the start of physical lines. `begins` says that nothing
else has been read on the first of them. -/
def unindented {α : Type} (kind : α → TokenKind) (begins : Bool) : List α → List α
  | [] => []
  | x :: xs =>
    if begins = true ∧ kind x = .whitespace then unindented kind begins xs
    else x :: unindented kind (kind x).breaksLine xs

section Unindented

variable {α β : Type} {kind : α → TokenKind}

theorem unindented_map (f : β → α) (begins : Bool) (xs : List β) :
    unindented kind begins (xs.map f) = (unindented (fun x => kind (f x)) begins xs).map f := by
  induction xs generalizing begins with
  | nil => rfl
  | cons x xs ih =>
    rw [List.map_cons, unindented, unindented]
    split
    · exact ih begins
    · rw [List.map_cons, ih]

/-- Nothing but whitespace is left out. -/
theorem filter_unindented {q : α → Bool} (hq : ∀ x, kind x = .whitespace → q x = false)
    (begins : Bool) (xs : List α) : (unindented kind begins xs).filter q = xs.filter q := by
  induction xs generalizing begins with
  | nil => rfl
  | cons x xs ih =>
    rw [unindented]
    split
    · rename_i h
      rw [ih, List.filter_cons_of_neg (by simp [hq x h.2])]
    · rw [List.filter_cons, List.filter_cons, ih]

theorem unindented_append_break {x : α} (hx : (kind x).breaksLine = true) (begins : Bool)
    (xs ys : List α) :
    unindented kind begins (xs ++ x :: ys) =
      unindented kind begins xs ++ x :: unindented kind true ys := by
  induction xs generalizing begins with
  | nil =>
    have hkind : ¬(begins = true ∧ kind x = .whitespace) := by
      rintro ⟨-, hk⟩
      rw [hk] at hx
      cases hx
    simp only [List.nil_append, unindented, if_neg hkind, hx]
  | cons y xs ih =>
    rw [List.cons_append, unindented, unindented]
    split
    · exact ih begins
    · rw [ih, List.cons_append]

end Unindented

section Scan

theorem Text.IsBreak.lineBreak_before {br u : Text} (h : br.IsBreak) (hu : br.EndsBefore u) :
    Reach.lineBreak (br ++ u) = br.length := by
  rcases h with rfl | rfl | rfl
  · rfl
  · rfl
  · exact Text.IsBreak.lineBreak (.inr (.inr rfl)) (hu rfl)

/-- What ends a line is read just so whatever line comes next. -/
theorem exists_break {state : ScanState} {l : Lexeme} {rest : Text} (h : l.ReadsIn state rest)
    (hl : l.kind.breaksLine = true) :
    ∃ before br : Text, l.text = before ++ br ∧ (∀ c ∈ before, Text.isLineBreak c = false) ∧
      br.IsBreak ∧ br.EndsBefore rest ∧ ∀ v, br.EndsBefore v → l.ReadsIn state v := by
  obtain ⟨k, text⟩ := l
  have hlayout := readsIn_layout h
  cases k with
  | newline =>
    have hbreak : text.IsBreak := hlayout.2.1 rfl
    have hends : text.EndsBefore rest := fun hreturn => not_feed_of_readsIn (u := [])
      (by rwa [List.append_nil]) hreturn
    refine ⟨[], text, rfl, by simp, hbreak, hends, fun v hv => ?_⟩
    cases text with
    | nil => exact absurd rfl hbreak.ne_nil
    | cons c cs => exact readsIn_newline (hbreak.endsLine []) (hbreak.lineBreak_before hv)
  | lineContinuation =>
    obtain ⟨hblank, br, hbr, hread⟩ := hlayout.2.2 rfl
    obtain rfl : text = '_' :: br := hbr
    have hbreak : Text.IsBreak br := (readsIn_layout hread).2.1 rfl
    have hends : Text.EndsBefore br rest := fun hreturn => not_feed_of_readsIn (u := [])
      (by rwa [List.append_nil] : Lexeme.ReadsIn .initial (rest ++ []) ⟨.newline, br⟩) hreturn
    refine ⟨['_'], br, rfl, by simp [Text.isLineBreak], hbreak, hends, fun v hv => ?_⟩
    exact readsIn_continuation hblank hbreak.ne_nil (hbreak.lineBreak_before hv)
  | _ => cases hl

/-- A text has one front without line breaks that the end of a line comes after. -/
theorem append_inj_of_endsLine {a b x y : Text} (ha : ∀ c ∈ a, Text.isLineBreak c = false)
    (hb : ∀ c ∈ b, Text.isLineBreak c = false) (hx : x.EndsLine) (hy : y.EndsLine)
    (h : a ++ x = b ++ y) : a = b ∧ x = y := by
  have hfront : ∀ {t z : Text}, (∀ c ∈ t, Text.isLineBreak c = false) → z.EndsLine →
      (t ++ z).takeWhile (fun c => !Text.isLineBreak c) = t := by
    intro t z ht hz
    rw [List.takeWhile_append_of_pos fun c hc => by simp [ht c hc]]
    cases z with
    | nil => simp
    | cons d z =>
      have hd : Text.isLineBreak d = true := hz
      simp [hd]
  have hab : a = b := by rw [← hfront ha hx, h, hfront hb hy]
  subst hab
  exact ⟨rfl, List.append_cancel_left h⟩

theorem reads_ended {state : ScanState} {ls : List Lexeme} {t u u' : Text}
    (h : Reads state (t ++ u) ls) (hu : u.EndsLine) (hu' : u'.EndsLine) (hnil : u = [] → u' = [])
    (hls : ∀ l ∈ ls, l.kind.breaksLine = false) : Reads state (t ++ u') ls := by
  induction ls generalizing state with
  | nil => trivial
  | cons l ls ih =>
    obtain ⟨hl, hrest⟩ := List.forall_mem_cons.mp hls
    obtain ⟨hn, hk⟩ := TokenKind.breaksLine_eq_false.mp hl
    refine ⟨?_, ih h.2 hrest⟩
    have hread := h.1
    rw [← List.append_assoc] at hread ⊢
    exact readsIn_ended hread hu hu' hnil hn hk

theorem Reads.no_lineBreak {state : ScanState} {next : Text} {ls : List Lexeme}
    (h : Reads state next ls) (hls : ∀ l ∈ ls, l.kind.breaksLine = false) :
    ∀ c ∈ Lexeme.sourceText ls, Text.isLineBreak c = false := by
  intro c hc
  obtain ⟨l, hl, hcl⟩ := List.mem_flatMap.mp hc
  obtain ⟨_, _, hread⟩ := h.forall l hl
  obtain ⟨hn, hk⟩ := TokenKind.breaksLine_eq_false.mp (hls l hl)
  exact no_lineBreak_inside hread hn hk c hcl

/-- Where there is a line break, there is a first lexeme that ends a line. -/
theorem Reads.exists_breaking {state : ScanState} {next : Text} {ls : List Lexeme}
    (h : Reads state next ls) {c : Char} (hc : c ∈ Lexeme.sourceText ls)
    (hbreak : Text.isLineBreak c = true) :
    ∃ init l after, ls = init ++ l :: after ∧ l.kind.breaksLine = true ∧
      ∀ m ∈ init, m.kind.breaksLine = false := by
  cases hfind : ls.find? (·.kind.breaksLine) with
  | none =>
    have hinside := h.no_lineBreak
      (fun l hl => by simpa using List.find?_eq_none.mp hfind l hl) c hc
    rw [hinside] at hbreak
    cases hbreak
  | some l =>
    obtain ⟨hl, init, after, hsplit, hinit⟩ := List.find?_eq_some_iff_append.mp hfind
    exact ⟨init, l, after, hsplit, hl, fun m hm => by simpa using hinit m hm⟩

/-- A line is read alike whatever line comes next, and has no blank right before that one. -/
theorem exists_lineEnd (state : ScanState) {body ending : Text}
    (hbody : ∀ c ∈ body, Text.isLineBreak c = false) (hending : ending.IsBreak) :
    ∃ ls l, l.kind.breaksLine = true ∧ ∀ v, ending.EndsBefore v →
      scanFrom state (body ++ (ending ++ v)) =
        ls ++ l :: scanFrom ((state.nextAll ls).next l.kind) v := by
  obtain ⟨hreads, htext, -⟩ := scanFrom_reads state (body ++ ending)
  generalize scanFrom state (body ++ ending) = read at hreads htext
  obtain ⟨d, hd, hdbreak⟩ : ∃ d ∈ ending, Text.isLineBreak d = true := by
    rcases hending with rfl | rfl | rfl <;> exact ⟨_, List.mem_cons_self, rfl⟩
  have hmem : d ∈ Lexeme.sourceText read := htext ▸ List.mem_append_right body hd
  obtain ⟨ls, l, after, rfl, hl, hls⟩ := hreads.exists_breaking hmem hdbreak
  obtain ⟨hfirst, hread, -⟩ := reads_append.mp hreads
  obtain ⟨before, br, hltext, hbefore, hbreak, hbr, hagain⟩ := exists_break hread hl
  -- The line break that is read is the one at the end of the line.
  have hsame : Lexeme.sourceText ls ++ before = body ∧ br ++ Lexeme.sourceText after = ending := by
    have hends : ending.EndsLine := by simpa using hending.endsLine []
    refine append_inj_of_endsLine ?_ hbody (hbreak.endsLine _) hends ?_
    · exact List.forall_mem_append.mpr ⟨hfirst.no_lineBreak hls, hbefore⟩
    · simpa [hltext] using htext
  obtain ⟨rfl, rfl⟩ := hsame
  have hafter : Lexeme.sourceText after = [] := by
    have hshort := hbreak.lineBreak_before hbr
    have hlong := hending.lineBreak_before (u := []) fun _ => by simp
    rw [List.append_nil] at hshort
    rw [List.append_nil, hshort, List.length_append] at hlong
    exact List.eq_nil_of_length_eq_zero (by omega)
  simp only [Lexeme.sourceText_cons, hltext, hafter, List.append_nil, List.append_assoc]
    at hfirst ⊢
  refine ⟨ls, l, hl, fun v hv => ?_⟩
  have hmoved : Reads state (before ++ (br ++ v)) ls :=
    reads_ended hfirst (by simpa using hbreak.endsLine []) (hbreak.endsLine v)
      (fun hnil => absurd hnil hbreak.ne_nil) hls
  have hall : Reads state v (ls ++ [l]) :=
    reads_append.mpr ⟨by simpa [hltext] using hmoved, hagain v hv, trivial⟩
  have hscan := scanFrom_of_reads hall
  simpa [hltext, ScanState.nextAll_append] using hscan

/-- Blanks before a text matter only to an underscore at its front. -/
theorem scanFrom_congr {u : Text} (hu : u.head? ≠ some '_') (start blank blank' : Bool) :
    scanFrom ⟨start, blank⟩ u = scanFrom ⟨start, blank'⟩ u := by
  cases u with
  | nil => rw [scanFrom_nil, scanFrom_nil]
  | cons c rest =>
    have hstep : scanStep ⟨start, blank⟩ c rest = scanStep ⟨start, blank'⟩ c rest := by
      cases hread : Shape.read c rest with
      | mk shape n =>
      cases shape with
      | brokenUnderscore =>
        obtain ⟨rfl, -⟩ := Shape.read_brokenUnderscore hread
        exact absurd rfl hu
      | _ => simp only [scanStep, hread]; rfl
    rw [scanFrom_cons, scanFrom_cons, hstep]

/-- Indentation is read as whitespace, if as anything. -/
theorem unindented_indent {indent u : Text} (hindent : ∀ c ∈ indent, Text.isBlank c = true)
    (hu : ∀ c ∈ u.head?, Text.isBlank c = false) (start : Bool) :
    unindented Lexeme.kind true (scanFrom ⟨start, false⟩ (indent ++ u)) =
      unindented Lexeme.kind true (scanFrom ⟨start, !indent.isEmpty⟩ u) := by
  cases indent with
  | nil => rfl
  | cons c cs =>
    obtain ⟨hc, hcs⟩ := List.forall_mem_cons.mp hindent
    have hends : u.head?.all (fun d => !Text.isBlank d) = true := by
      cases u with
      | nil => rfl
      | cons d u => simpa using hu
    have hread : Lexeme.ReadsIn ⟨start, false⟩ u ⟨.whitespace, c :: cs⟩ :=
      (readsIn_blank hc).mpr ⟨rfl, Reach.many_eq_length.mpr ⟨hcs, hends⟩⟩
    have hscan := scanFrom_of_readsIn hread
    rw [hscan, unindented, if_pos ⟨rfl, rfl⟩]
    rfl

/-- The first character of a line is that of its body or a line break. -/
theorem forall_head_append {body z : Text} {p : Char → Prop} (hbody : ∀ c ∈ body.head?, p c)
    (hz : z.EndsLine) (hbreak : ∀ c, Text.isLineBreak c = true → p c) :
    ∀ c ∈ (body ++ z).head?, p c := by
  cases body with
  | cons d body => exact hbody
  | nil =>
    intro c hc
    rw [Text.EndsLine, show z.head? = some c from hc] at hz
    exact hbreak c (by simpa using hz)

/-- Whatever its indentation, a line is read as behind the one that it has. -/
theorem unindented_line {line line' : PhysicalLine} (h : line.Reindents line')
    (hshaped : line.Shaped) {z : Text} (hz : z.EndsLine) (start : Bool) :
    unindented Lexeme.kind true (scanFrom ⟨start, false⟩ (line'.indent ++ (line.body ++ z))) =
      unindented Lexeme.kind true (scanFrom ⟨start, !line.indent.isEmpty⟩ (line.body ++ z)) := by
  have hfirst : ∀ c ∈ (line.body ++ z).head?, Text.isBlank c = false := by
    refine forall_head_append hshaped.first hz fun c hc => Bool.eq_false_iff.mpr fun hb => ?_
    rw [Text.not_isLineBreak_of_isBlank hb] at hc
    cases hc
  rw [unindented_indent h.blank hfirst]
  by_cases hunderscore : line.body.head? = some '_'
  · rw [h.underscore hunderscore]
  · have hcode : ∀ c ∈ (line.body ++ z).head?, c ≠ '_' := by
      refine forall_head_append (fun c hc hu => hunderscore (hu ▸ hc)) hz fun c hc hu => ?_
      rw [hu] at hc
      cases hc
    rw [scanFrom_congr fun he => hcode '_' he rfl]

/-- The indentation of a source is whitespace at the start of physical lines and nothing else. -/
theorem unindented_scan {lines lines' : List PhysicalLine}
    (h : List.Forall₂ PhysicalLine.Reindents lines lines') (hruled : PhysicalLine.Ruled lines)
    (hruled' : PhysicalLine.Ruled lines') (start : Bool) :
    unindented Lexeme.kind true (scanFrom ⟨start, false⟩ (PhysicalLine.sourceText lines)) =
      unindented Lexeme.kind true (scanFrom ⟨start, false⟩ (PhysicalLine.sourceText lines')) := by
  induction h generalizing start with
  | nil => rfl
  | @cons line line' lines lines' hline hlines ih =>
    have htext : ∀ u, line'.text ++ u = line'.indent ++ (line.body ++ (line.ending ++ u)) := by
      intro u
      simp [PhysicalLine.text, hline.body, hline.ending]
    rw [PhysicalLine.sourceText_cons, PhysicalLine.sourceText_cons, htext, PhysicalLine.text,
      List.append_assoc, List.append_assoc]
    cases hruled with
    | last line hshaped hending =>
      cases hlines
      rw [hending]
      have hnil : Text.EndsLine [] := rfl
      exact (unindented_line hshaped.reindents hshaped hnil start).trans
        (unindented_line hline hshaped hnil start).symm
    | line line lines hshaped hbreak hends hrest =>
      cases hruled' with
      | last _ _ hending' => exact absurd (hline.ending.symm.trans hending') hbreak.ne_nil
      | line _ _ _ _ hends' hrest' =>
        rw [hline.ending] at hends'
        rw [unindented_line hshaped.reindents hshaped (hbreak.endsLine _),
          unindented_line hline hshaped (hbreak.endsLine _)]
        obtain ⟨ls, l, hl, hscan⟩ :=
          exists_lineEnd ⟨start, !line.indent.isEmpty⟩ hshaped.inside hbreak
        rw [hscan _ hends, hscan _ hends', unindented_append_break hl, unindented_append_break hl]
        obtain ⟨start', hnext⟩ := ScanState.next_of_breaksLine hl
          ((ScanState.mk start !line.indent.isEmpty).nextAll ls)
        rw [hnext, ih hrest hrest']

end Scan

end VbaWorkbench
