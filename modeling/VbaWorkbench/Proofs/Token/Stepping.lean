import Mathlib.Tactic.SplitIfs
import VbaWorkbench.Proofs.Token.Reach
import VbaWorkbench.Token.Scan

namespace VbaWorkbench

namespace Shape

/-- The characters that begin no blank, no break, no literal and no comment. -/
def isPlain (c : Char) : Bool :=
  !Text.isEdge c && c != '_' && c != '\'' && c != '"'

/-- The shapes of the lexemes that begin with such a character. -/
def isCode (shape : Shape) : Bool :=
  shape ∈ [.word, .number, .separator, .operator, .other]

theorem read_blank {c : Char} (h : Text.isBlank c = true) (rest : Text) :
    read c rest = (.whitespace, Reach.many Text.isBlank rest) := by
  rw [read, if_pos h]

theorem read_lineBreak {c : Char} (h : Text.isLineBreak c = true) (rest : Text) :
    read c rest = (.newline, Reach.lineBreak (c :: rest) - 1) := by
  have hb : Text.isBlank c = false := by
    rcases Text.isEdge_cases (Text.isEdge_of_isLineBreak h) with rfl | rfl | rfl | rfl
    · cases h
    · cases h
    · rfl
    · rfl
  rw [read, if_neg (by simp [hb]), if_pos h]

theorem read_underscore (rest : Text) :
    read '_' rest =
      if Reach.lineBreak rest = 0 then (.other, 0)
      else (.brokenUnderscore, Reach.lineBreak rest) := by
  rw [read, if_neg (by decide), if_neg (by decide), if_pos rfl]
  split
  · rename_i h
    rw [if_pos h]
  · rename_i h
    rw [if_neg h]

/-- A line break is read from a text that begins with one. -/
theorem exists_lineBreak {rest : Text} (h : Reach.lineBreak rest ≠ 0) :
    ∃ d more, rest = d :: more ∧ Text.isLineBreak d = true := by
  unfold Reach.lineBreak at h
  split at h
  · exact ⟨_, _, rfl, rfl⟩
  · rename_i d more _
    split at h
    · rename_i hd
      exact ⟨d, more, rfl, hd⟩
    · simp at h
  · simp at h

theorem read_apostrophe (rest : Text) :
    read '\'' rest = (.comment, Reach.many (fun d => !Text.isLineBreak d) rest) := by
  rfl

theorem read_quote (rest : Text) : read '"' rest = (.quoted, Reach.quoted rest) := by
  rfl

/-- A lexeme of such a shape that ends before the next blank or break, whatever comes after it. -/
def Settled (readRest : Text → Shape × Nat) : Prop :=
  ∀ t, (readRest t).1.isCode = true ∧ (readRest t).2 ≤ t.length ∧
    ∀ u, u.head?.all Text.isEdge = true → readRest (t ++ u) = readRest t

theorem settled_of_stopsAt {r : Reach} (h : r.StopsAt Text.isEdge) {shape : Shape}
    (hs : shape.isCode = true) : Settled fun t => (shape, r t) := by
  intro t
  exact ⟨hs, h.bound t, fun u hu => by simp only [h.stops t u hu]⟩

theorem settled_single {shape : Shape} (hs : shape.isCode = true) : Settled fun _ => (shape, 0) :=
  fun _ => ⟨hs, Nat.zero_le _, fun _ _ => rfl⟩

/-- One shape if a reader finds nothing, and another if it finds something. -/
theorem settled_found {r : Reach} (h : r.StopsAt Text.isEdge) {f g : Text → Shape × Nat}
    (hf : Settled f) (hg : Settled g) : Settled fun t => if r t = 0 then f t else g t := by
  intro t
  obtain ⟨hfs, hfb, hfe⟩ := hf t
  obtain ⟨hgs, hgb, hge⟩ := hg t
  refine ⟨?_, ?_, fun u hu => by simp only [h.stops t u hu, hfe u hu, hge u hu]⟩
  · dsimp only
    split
    · exact hfs
    · exact hgs
  · dsimp only
    split
    · exact hfb
    · exact hgb

theorem settled_if {p : Prop} [Decidable p] {f g : Text → Shape × Nat} (hf : p → Settled f)
    (hg : Settled g) : Settled fun t => if p then f t else g t := by
  by_cases hp : p
  · simpa only [if_pos hp] using hf hp
  · simpa only [if_neg hp] using hg

/-- What is read where a plain character stands first. -/
theorem read_of_plain {c : Char} (h : isPlain c = true) (rest : Text) :
    read c rest =
      if c.isDigit then (.number, Reach.decimal rest)
      else if c = '.' then
        if Reach.digits rest = 0 then (.other, 0) else (.number, Reach.fraction rest)
      else if c = '&' then
        if Reach.based rest = 0 then (.operator, 0) else (.number, Reach.based rest)
      else if c = ':' then
        if Reach.optional (· == '=') rest = 0 then (.separator, 0)
        else (.operator, Reach.optional (· == '=') rest)
      else if c = '<' then (.operator, Reach.optional (fun d => d == '=' || d == '>') rest)
      else if c = '>' then (.operator, Reach.optional (· == '=') rest)
      else if c ∈ ['=', '+', '-', '*', '/', '\\', '^'] then (.operator, 0)
      else if Character.isLetter c then (.word, Reach.name rest)
      else (.other, 0) := by
  simp only [isPlain, Text.isEdge, Bool.and_eq_true, Bool.not_eq_true', Bool.or_eq_false_iff,
    bne_iff_ne, ne_eq] at h
  obtain ⟨⟨⟨⟨hb, hl⟩, hu⟩, ha⟩, hq⟩ := h
  simp only [read, hb, hl, if_neg hu, if_neg ha, if_neg hq, Bool.false_eq_true, if_false]
  generalize Reach.digits rest = digits, Reach.based rest = based,
    Reach.optional (· == '=') rest = equals
  cases digits <;> cases based <;> cases equals <;> rfl

theorem read_plain {c : Char} (h : isPlain c = true) : Settled (read c) := by
  rw [funext (read_of_plain h)]
  have hequals : (Reach.optional (· == '=')).StopsAt Text.isEdge :=
    Reach.optional_stopsAt (Reach.refuses_edges rfl rfl rfl rfl)
  have hless : (Reach.optional fun d => d == '=' || d == '>').StopsAt Text.isEdge :=
    Reach.optional_stopsAt (Reach.refuses_edges rfl rfl rfl rfl)
  refine settled_if (fun _ => settled_of_stopsAt Reach.decimal_stopsAt rfl) ?_
  refine settled_if (fun _ => settled_found Reach.digits_stopsAt (settled_single rfl)
    (settled_of_stopsAt Reach.fraction_stopsAt rfl)) ?_
  refine settled_if (fun _ => settled_found Reach.based_stopsAt (settled_single rfl)
    (settled_of_stopsAt Reach.based_stopsAt rfl)) ?_
  refine settled_if (fun _ => settled_found hequals (settled_single rfl)
    (settled_of_stopsAt hequals rfl)) ?_
  refine settled_if (fun _ => settled_of_stopsAt hless rfl) ?_
  refine settled_if (fun _ => settled_of_stopsAt hequals rfl) ?_
  refine settled_if (fun _ => settled_single rfl) ?_
  exact settled_if (fun _ => settled_of_stopsAt Reach.name_stopsAt rfl) (settled_single rfl)

theorem class_cases (c : Char) :
    Text.isBlank c = true ∨ Text.isLineBreak c = true ∨ c = '_' ∨ c = '\'' ∨ c = '"' ∨
      isPlain c = true := by
  by_cases hb : Text.isBlank c = true
  · exact .inl hb
  by_cases hl : Text.isLineBreak c = true
  · exact .inr (.inl hl)
  by_cases hu : c = '_'
  · exact .inr (.inr (.inl hu))
  by_cases ha : c = '\''
  · exact .inr (.inr (.inr (.inl ha)))
  by_cases hq : c = '"'
  · exact .inr (.inr (.inr (.inr (.inl hq))))
  · simp [isPlain, Text.isEdge, hb, hl, hu, ha, hq]

theorem read_brokenUnderscore {c : Char} {rest : Text} {n : Nat}
    (h : read c rest = (.brokenUnderscore, n)) :
    c = '_' ∧ n = Reach.lineBreak rest ∧ Reach.lineBreak rest ≠ 0 := by
  rcases class_cases c with hc | hc | rfl | rfl | rfl | hc
  · rw [read_blank hc] at h
    cases h
  · rw [read_lineBreak hc] at h
    cases h
  · rw [read_underscore] at h
    split at h
    · cases h
    · rename_i hn
      cases h
      exact ⟨rfl, rfl, hn⟩
  · cases h
  · cases h
  · have := (read_plain hc rest).1
    rw [h] at this
    cases this

/-- A word begins with a letter. -/
theorem read_word {c : Char} {rest : Text} {n : Nat} (h : read c rest = (.word, n)) :
    Character.isLetter c = true ∧ n = Reach.name rest := by
  rcases class_cases c with hc | hc | rfl | rfl | rfl | hc
  · rw [read_blank hc] at h
    cases h
  · rw [read_lineBreak hc] at h
    cases h
  · rw [read_underscore] at h
    split at h <;> cases h
  · cases h
  · cases h
  · rw [read_of_plain hc] at h
    split_ifs at h with _ _ _ _ _ _ _ _ _ _ hletter <;> cases h
    exact ⟨hletter, rfl⟩

end Shape

/-- What the lexeme after one of a kind has to know. -/
def ScanState.next (state : ScanState) : TokenKind → ScanState
  | .whitespace => ⟨state.statementStart, true⟩
  | .lineContinuation | .comment => ⟨state.statementStart, false⟩
  | .newline | .statementSeparator => ⟨true, false⟩
  | _ => ⟨false, false⟩

namespace Lexeme

/-- The text of lexemes that stand next to each other. -/
def sourceText (ls : List Lexeme) : Text :=
  ls.flatMap (·.text)

@[simp] theorem sourceText_nil : sourceText [] = [] :=
  rfl

@[simp] theorem sourceText_cons (l : Lexeme) (ls : List Lexeme) :
    sourceText (l :: ls) = l.text ++ sourceText ls :=
  List.flatMap_cons

@[simp] theorem sourceText_append (ls ms : List Lexeme) :
    sourceText (ls ++ ms) = sourceText ls ++ sourceText ms :=
  List.flatMap_append

/-- From this state the lexeme is what is read first where `next` follows it. -/
def ReadsIn (state : ScanState) (next : Text) (l : Lexeme) : Prop :=
  ∃ c cs, l.text = c :: cs ∧ (scanStep state c (cs ++ next)).1.head? = some l

end Lexeme

section Steps

variable {state : ScanState} {c : Char} {rest : Text}

theorem scanStep_blank (h : Text.isBlank c = true) :
    scanStep state c rest = ([⟨.whitespace, c :: rest.take (Reach.many Text.isBlank rest)⟩],
      Reach.many Text.isBlank rest, state.next .whitespace) := by
  simp only [scanStep, Shape.read_blank h]
  rfl

theorem scanStep_lineBreak (h : Text.isLineBreak c = true) :
    scanStep state c rest =
      ([⟨.newline, c :: rest.take (Reach.lineBreak (c :: rest) - 1)⟩],
        Reach.lineBreak (c :: rest) - 1, state.next .newline) := by
  simp only [scanStep, Shape.read_lineBreak h]
  rfl

/-- An underscore that is not the last character of its line. -/
theorem scanStep_underscore (h : Reach.lineBreak rest = 0) :
    scanStep state '_' rest = ([⟨.punctuation, ['_']⟩], 0, state.next .punctuation) := by
  simp only [scanStep, Shape.read_underscore, if_pos h]
  rfl

theorem scanStep_continuation (h : Reach.lineBreak rest ≠ 0) (hb : state.afterBlank = true) :
    scanStep state '_' rest = ([⟨.lineContinuation, '_' :: rest.take (Reach.lineBreak rest)⟩],
      Reach.lineBreak rest, state.next .lineContinuation) := by
  obtain ⟨start, blank⟩ := state
  obtain rfl : blank = true := hb
  simp only [scanStep, Shape.read_underscore, if_neg h]
  cases start <;> rfl

theorem scanStep_broken (h : Reach.lineBreak rest ≠ 0) (hb : state.afterBlank = false) :
    scanStep state '_' rest =
      ([⟨.punctuation, ['_']⟩, ⟨.newline, rest.take (Reach.lineBreak rest)⟩],
        Reach.lineBreak rest, state.next .newline) := by
  obtain ⟨start, blank⟩ := state
  obtain rfl : blank = false := hb
  simp only [scanStep, Shape.read_underscore, if_neg h]
  cases start <;> rfl

theorem scanStep_apostrophe :
    scanStep state '\'' rest =
      ([⟨.comment, '\'' :: rest.take (Reach.many (fun d => !Text.isLineBreak d) rest)⟩],
        Reach.many (fun d => !Text.isLineBreak d) rest, state.next .comment) := by
  simp only [scanStep, Shape.read_apostrophe]
  rfl

theorem scanStep_quote :
    scanStep state '"' rest = ([⟨.stringLiteral, '"' :: rest.take (Reach.quoted rest)⟩],
      Reach.quoted rest, state.next .stringLiteral) := by
  simp only [scanStep, Shape.read_quote]
  rfl

/-- The line break at the front of a text. -/
theorem reads_lineBreak (h : Reach.lineBreak rest ≠ 0) :
    Lexeme.ReadsIn state (rest.drop (Reach.lineBreak rest))
      ⟨.newline, rest.take (Reach.lineBreak rest)⟩ := by
  obtain ⟨d, more, rfl, hd⟩ := Shape.exists_lineBreak h
  obtain ⟨n, hn⟩ := Nat.exists_eq_succ_of_ne_zero h
  refine ⟨d, more.take n, by rw [hn]; rfl, ?_⟩
  rw [hn, List.drop_succ_cons, List.take_append_drop, scanStep_lineBreak hd, hn]
  rfl

theorem scanStep_remark {shape : Shape} {n : Nat} (hread : Shape.read c rest = (shape, n))
    (hr : beginsRemark state shape (c :: rest.take n) = true) :
    scanStep state c rest =
      ([⟨.comment, c :: rest.take (Reach.many (fun d => !Text.isLineBreak d) rest)⟩],
        Reach.many (fun d => !Text.isLineBreak d) rest, state.next .comment) := by
  have hstart : state.statementStart = true := by
    simp only [beginsRemark, Bool.and_eq_true] at hr
    exact hr.1.2
  simp only [scanStep, hread, hr, if_true, ScanState.next, hstart]

theorem scanStep_code {shape : Shape} {n : Nat} (hread : Shape.read c rest = (shape, n))
    (hr : beginsRemark state shape (c :: rest.take n) = false) :
    scanStep state c rest =
      (Lexeme.ofShape state shape (c :: rest.take n) (rest.drop n), n, state.after shape) := by
  simp only [scanStep, hread, hr, Bool.false_eq_true, if_false]

/-- A bang by itself. -/
theorem scanStep_bang :
    scanStep ⟨false, false⟩ '!' rest = ([⟨.punctuation, ['!']⟩], 0, ⟨false, false⟩) := by
  have hread : Shape.read '!' rest = (.other, 0) := rfl
  rw [scanStep_code hread (by rfl)]
  rfl

/-- A name is one lexeme, or the operand and the bang of a member access. -/
theorem ofWord_cases (word next : Text) :
    (∃ k, (k = .keyword ∨ k = .identifier) ∧ Lexeme.ofWord word next = [⟨k, word⟩]) ∨
    ∃ k base, (k = .keyword ∨ k = .identifier) ∧ word = base ++ ['!'] ∧
      Lexeme.ofWord word next = [⟨k, base⟩, ⟨.punctuation, ['!']⟩] := by
  have hname : ∀ b : Bool, (if b = true then TokenKind.keyword else .identifier) = .keyword ∨
      (if b = true then TokenKind.keyword else .identifier) = .identifier := by
    intro b
    cases b <;> simp
  unfold Lexeme.ofWord
  split
  · rename_i h
    obtain ⟨base, rfl⟩ := List.getLast?_eq_some_iff.mp h.1
    right
    simp only [List.dropLast_concat]
    exact ⟨_, base, hname _, rfl, rfl⟩
  · left
    exact ⟨_, hname _, rfl⟩

/-- Either one lexeme is read, or two of which the second would be read by itself just so. -/
theorem scanStep_cases (state : ScanState) (c : Char) (rest : Text) :
    (∃ k n, k ≠ .endOfInput ∧
      scanStep state c rest = ([⟨k, c :: rest.take n⟩], n, state.next k)) ∨
    ∃ a b cs n, a.kind ≠ .endOfInput ∧ b.kind ≠ .endOfInput ∧ a.text = c :: cs ∧
      cs ++ b.text = rest.take n ∧ b.ReadsIn (state.next a.kind) (rest.drop n) ∧
      scanStep state c rest = ([a, b], n, (state.next a.kind).next b.kind) := by
  cases hread : Shape.read c rest with
  | mk shape n =>
  cases hr : beginsRemark state shape (c :: rest.take n) with
  | true => exact .inl ⟨.comment, _, by decide, scanStep_remark hread hr⟩
  | false =>
    have hstep := scanStep_code hread hr
    cases shape with
    | whitespace => exact .inl ⟨.whitespace, n, by decide, hstep⟩
    | newline => exact .inl ⟨.newline, n, by decide, hstep⟩
    | comment => exact .inl ⟨.comment, n, by decide, hstep⟩
    | quoted => exact .inl ⟨.stringLiteral, n, by decide, hstep⟩
    | number => exact .inl ⟨.numericLiteral, n, by decide, hstep⟩
    | separator => exact .inl ⟨.statementSeparator, n, by decide, hstep⟩
    | operator => exact .inl ⟨.operator, n, by decide, hstep⟩
    | other => exact .inl ⟨.punctuation, n, by decide, hstep⟩
    | word =>
      rcases ofWord_cases (c :: rest.take n) (rest.drop n) with
        ⟨k, hk, hw⟩ | ⟨k, base, hk, hbase, hw⟩
      · rw [Lexeme.ofShape, hw] at hstep
        rcases hk with rfl | rfl
        · exact .inl ⟨.keyword, n, by decide, hstep⟩
        · exact .inl ⟨.identifier, n, by decide, hstep⟩
      · rw [Lexeme.ofShape, hw] at hstep
        have hbang : Lexeme.ReadsIn ⟨false, false⟩ (rest.drop n) ⟨.punctuation, ['!']⟩ :=
          ⟨'!', [], rfl, by rw [List.nil_append, scanStep_bang]; rfl⟩
        cases base with
        | nil =>
          obtain ⟨rfl, -⟩ := List.cons.inj hbase
          cases hread
        | cons d cs =>
          obtain ⟨rfl, hcs⟩ := List.cons.inj hbase
          right
          rcases hk with rfl | rfl
          · exact ⟨⟨.keyword, c :: cs⟩, ⟨.punctuation, ['!']⟩, cs, n, by simp, by simp, rfl,
              hcs.symm, hbang, hstep⟩
          · exact ⟨⟨.identifier, c :: cs⟩, ⟨.punctuation, ['!']⟩, cs, n, by simp, by simp, rfl,
              hcs.symm, hbang, hstep⟩
    | brokenUnderscore =>
      obtain ⟨rfl, rfl, hn⟩ := Shape.read_brokenUnderscore hread
      cases hb : state.afterBlank with
      | true => exact .inl ⟨.lineContinuation, _, by simp, scanStep_continuation hn hb⟩
      | false =>
        have hbreak := @reads_lineBreak (state.next .punctuation) rest hn
        exact .inr ⟨⟨.punctuation, ['_']⟩, ⟨.newline, rest.take (Reach.lineBreak rest)⟩, [],
          Reach.lineBreak rest, by simp, by simp, rfl, rfl, hbreak, scanStep_broken hn hb⟩

end Steps

theorem scanFrom_nil (state : ScanState) : scanFrom state [] = [] := by
  rw [scanFrom]

theorem scanFrom_cons (state : ScanState) (c : Char) (rest : Text) :
    scanFrom state (c :: rest) = (scanStep state c rest).1 ++
      scanFrom (scanStep state c rest).2.2 (rest.drop (scanStep state c rest).2.1) := by
  rw [scanFrom]

/-- Scanning goes on behind the lexeme that is read first. -/
theorem scanFrom_of_readsIn {state : ScanState} {l : Lexeme} {next : Text}
    (h : l.ReadsIn state next) :
    scanFrom state (l.text ++ next) = l :: scanFrom (state.next l.kind) next := by
  obtain ⟨c, cs, htext, hfirst⟩ := h
  rw [htext, List.cons_append, scanFrom_cons]
  rcases scanStep_cases state c (cs ++ next) with
    ⟨k, n, -, hstep⟩ | ⟨a, b, as, n, -, -, ha, hab, hb, hstep⟩
  · rw [hstep] at hfirst ⊢
    obtain rfl := Option.some.inj hfirst
    have hcs : (cs ++ next).take n = cs := (List.cons.inj htext).2
    have hnext : (cs ++ next).drop n = next := by
      have h := List.take_append_drop n (cs ++ next)
      rw [hcs] at h
      exact List.append_cancel_left h
    simp only [hnext, List.singleton_append]
  · rw [hstep] at hfirst ⊢
    obtain rfl := Option.some.inj hfirst
    obtain rfl : as = cs := (List.cons.inj (ha.symm.trans htext)).2
    have hnext : b.text ++ (as ++ next).drop n = next := by
      have h := List.take_append_drop n (as ++ next)
      rw [← hab, List.append_assoc] at h
      exact List.append_cancel_left h
    have hlt : ((as ++ next).drop n).length < next.length := by
      obtain ⟨d, ds, hd, -⟩ := hb
      have h := congrArg List.length hnext
      rw [hd, List.length_append, List.length_cons] at h
      omega
    have hrest := scanFrom_of_readsIn hb
    rw [hnext] at hrest
    rw [hrest]
    rfl
termination_by next.length
decreasing_by exact hlt

theorem exists_readsIn (state : ScanState) (c : Char) (rest : Text) :
    ∃ (l : Lexeme) (next : Text), c :: rest = l.text ++ next ∧ l.kind ≠ .endOfInput ∧
      l.ReadsIn state next := by
  rcases scanStep_cases state c rest with
    ⟨k, n, hk, hstep⟩ | ⟨a, b, as, n, hk, -, ha, hab, -, hstep⟩
  · refine ⟨⟨k, c :: rest.take n⟩, rest.drop n, ?_, hk, c, rest.take n, rfl, ?_⟩
    · rw [List.cons_append, List.take_append_drop]
    · rw [List.take_append_drop, hstep]
      rfl
  · have hrest : as ++ (b.text ++ rest.drop n) = rest := by
      rw [← List.append_assoc, hab, List.take_append_drop]
    refine ⟨a, b.text ++ rest.drop n, by rw [ha, List.cons_append, hrest], hk, c, as, ha, ?_⟩
    rw [hrest, hstep]
    rfl

/-- From this state the lexemes are what is read first where `next` follows them. -/
def Reads (state : ScanState) (next : Text) : List Lexeme → Prop
  | [] => True
  | l :: ls =>
    l.ReadsIn state (Lexeme.sourceText ls ++ next) ∧ Reads (state.next l.kind) next ls

/-- What the lexeme after some others has to know. -/
def ScanState.nextAll (state : ScanState) (ls : List Lexeme) : ScanState :=
  ls.foldl (fun state l => state.next l.kind) state

theorem reads_append {state : ScanState} {next : Text} {ls ms : List Lexeme} :
    Reads state next (ls ++ ms) ↔
      Reads state (Lexeme.sourceText ms ++ next) ls ∧ Reads (state.nextAll ls) next ms := by
  induction ls generalizing state with
  | nil => simp [Reads, ScanState.nextAll]
  | cons l ls ih =>
    simp only [List.cons_append, Reads, ih, Lexeme.sourceText_append, List.append_assoc, and_assoc]
    rfl

theorem scanFrom_of_reads {state : ScanState} {next : Text} {ls : List Lexeme}
    (h : Reads state next ls) :
    scanFrom state (Lexeme.sourceText ls ++ next) = ls ++ scanFrom (state.nextAll ls) next := by
  induction ls generalizing state with
  | nil => rfl
  | cons l ls ih =>
    rw [Lexeme.sourceText_cons, List.append_assoc, scanFrom_of_readsIn h.1, ih h.2]
    rfl

/-- Scanning reads lexemes one after the other until nothing is left. -/
theorem scanFrom_reads (state : ScanState) (t : Text) :
    Reads state [] (scanFrom state t) ∧ Lexeme.sourceText (scanFrom state t) = t ∧
      ∀ l ∈ scanFrom state t, l.text ≠ [] ∧ l.kind ≠ .endOfInput := by
  match t with
  | [] =>
    rw [scanFrom_nil]
    exact ⟨trivial, rfl, by simp⟩
  | c :: rest =>
    obtain ⟨l, next, hl, hk, hreads⟩ := exists_readsIn state c rest
    have hne : l.text ≠ [] := by
      obtain ⟨d, ds, hd, -⟩ := hreads
      simp [hd]
    have hlt : next.length < (c :: rest).length := by
      rw [hl, List.length_append]
      have := List.length_pos_iff.mpr hne
      omega
    obtain ⟨hrest, htext, hall⟩ := scanFrom_reads (state.next l.kind) next
    rw [hl, scanFrom_of_readsIn hreads]
    refine ⟨⟨?_, hrest⟩, by rw [Lexeme.sourceText_cons, htext], ?_⟩
    · rwa [htext, List.append_nil]
    · intro l' hl'
      rcases List.mem_cons.mp hl' with rfl | hl'
      · exact ⟨hne, hk⟩
      · exact hall l' hl'
termination_by t.length
decreasing_by exact hlt

end VbaWorkbench
