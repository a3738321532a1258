import VbaWorkbench.Proofs.Token.Stepping

namespace VbaWorkbench

namespace Token

/-- Each token begins where the one before it stops. -/
def Contiguous (start stop : Nat) : List Token → Prop
  | [] => start = stop
  | t :: ts => t.start = start ∧ Contiguous t.stop stop ts

/-- The text of the token is what the source has between its offsets. -/
def IsSliceOf (source : Text) (t : Token) : Prop :=
  ∃ before after, source = before ++ t.text ++ after ∧ Text.byteLength before = t.start ∧
    Text.byteLength (before ++ t.text) = t.stop

theorem place_append (start : Nat) (ls ms : List Lexeme) :
    place start (ls ++ ms) =
      place start ls ++ place (start + Text.byteLength (Lexeme.sourceText ls)) ms := by
  induction ls generalizing start with
  | nil => rfl
  | cons l ls ih =>
    rw [List.cons_append, place, ih, place, Lexeme.sourceText_cons, Text.byteLength_append,
      Nat.add_assoc]
    rfl

theorem place_contiguous (start : Nat) (ls : List Lexeme) :
    Contiguous start (start + Text.byteLength (Lexeme.sourceText ls)) (place start ls) := by
  induction ls generalizing start with
  | nil => rfl
  | cons l ls ih =>
    refine ⟨rfl, ?_⟩
    rw [Lexeme.sourceText_cons, Text.byteLength_append, ← Nat.add_assoc]
    exact ih _

theorem sourceText_place (start : Nat) (ls : List Lexeme) :
    sourceText (place start ls) = Lexeme.sourceText ls := by
  induction ls generalizing start with
  | nil => rfl
  | cons l ls ih => exact congrArg (l.text ++ ·) (ih _)

theorem toLexeme_place (start : Nat) (ls : List Lexeme) :
    (place start ls).map (·.toLexeme) = ls := by
  induction ls generalizing start with
  | nil => rfl
  | cons l ls ih => rw [place, List.map_cons, ih]

/-- A token is looked for by its kind as among the lexemes. The end marker does not count. -/
theorem find?_place (start : Nat) {p : TokenKind → Bool} (hp : p .endOfInput = false)
    (ls : List Lexeme) :
    ((place start (ls ++ [⟨.endOfInput, []⟩])).find? fun t => p t.kind).map (·.toLexeme) =
      ls.find? fun l => p l.kind := by
  have hmap : ((place start (ls ++ [⟨.endOfInput, []⟩])).map (·.toLexeme)).find? (p ·.kind) =
      ((place start (ls ++ [⟨.endOfInput, []⟩])).find? (p ·.kind)).map (·.toLexeme) :=
    List.find?_map
  rw [toLexeme_place, List.find?_append, List.find?_cons_of_neg (by simp [hp]), List.find?_nil,
    Option.or_none] at hmap
  exact hmap.symm

theorem lexeme_of_mem_place {start : Nat} {ls : List Lexeme} {t : Token} (h : t ∈ place start ls) :
    t.toLexeme ∈ ls := by
  induction ls generalizing start with
  | nil => cases h
  | cons l ls ih =>
    rcases List.mem_cons.mp h with rfl | h
    · exact List.mem_cons_self
    · exact List.mem_cons_of_mem _ (ih h)

theorem le_start_of_mem_place {start : Nat} {ls : List Lexeme} {t : Token}
    (h : t ∈ place start ls) : start ≤ t.start := by
  induction ls generalizing start with
  | nil => cases h
  | cons l ls ih =>
    rcases List.mem_cons.mp h with rfl | h
    · exact Nat.le_refl _
    · exact Nat.le_trans (Nat.le_add_right _ _) (ih h)

theorem slice_of_mem_place {before : Text} {ls : List Lexeme} {t : Token}
    (h : t ∈ place (Text.byteLength before) ls) :
    t.IsSliceOf (before ++ Lexeme.sourceText ls) := by
  induction ls generalizing before with
  | nil => cases h
  | cons l ls ih =>
    rcases List.mem_cons.mp h with rfl | h
    · exact ⟨before, Lexeme.sourceText ls, by simp, rfl, Text.byteLength_append _ _⟩
    · rw [← Text.byteLength_append] at h
      rw [Lexeme.sourceText_cons, ← List.append_assoc]
      exact ih h

end Token

/-- A scan that has read some lexemes and has the rest of the source before it. -/
structure Scan where
  lexemes : List Lexeme
  state : ScanState
  rest : Text

namespace Scan

def begin (source : Text) : Scan :=
  ⟨[], .initial, source⟩

/-- One round of the loop, which reads a lexeme or two. -/
def round : Scan → Scan
  | ⟨lexemes, state, []⟩ => ⟨lexemes, state, []⟩
  | ⟨lexemes, state, c :: rest⟩ =>
    let (more, n, state) := scanStep state c rest
    ⟨lexemes ++ more, state, rest.drop n⟩

def rounds : (n : Nat) → Scan → Scan
  | 0, s => s
  | n + 1, s => rounds n s.round

/-- A round does not change what is read in the end, and consumes something as long as there is
something. -/
theorem round_invariant (s : Scan) :
    s.round.lexemes ++ scanFrom s.round.state s.round.rest =
      s.lexemes ++ scanFrom s.state s.rest ∧
    s.round.rest.length ≤ s.rest.length - 1 := by
  obtain ⟨lexemes, state, rest⟩ := s
  cases rest with
  | nil => exact ⟨rfl, Nat.le_refl _⟩
  | cons c rest =>
    refine ⟨?_, ?_⟩
    · rw [scanFrom_cons, ← List.append_assoc]
      rfl
    · simp only [round, List.length_drop, List.length_cons]
      omega

theorem rounds_exhaust (n : Nat) (s : Scan) (h : s.rest.length ≤ n) :
    (rounds n s).rest = [] ∧ (rounds n s).lexemes = s.lexemes ++ scanFrom s.state s.rest := by
  induction n generalizing s with
  | zero =>
    have hnil : s.rest = [] := List.eq_nil_of_length_eq_zero (Nat.le_zero.mp h)
    exact ⟨hnil, by simp [rounds, hnil, scanFrom]⟩
  | succ n ih =>
    obtain ⟨hkeep, hless⟩ := round_invariant s
    rw [← hkeep]
    exact ih s.round (by omega)

end Scan

/-- The tokens of a source lie side by side from its first byte to its last, each with the text
that the source has there. Only the end marker is empty, and scanning is over after as many rounds
as the source has characters. -/
theorem tokenize_covers (source : Text) :
    Token.Contiguous 0 (Text.byteLength source) (tokenize source) ∧
    (∀ t ∈ tokenize source, t.IsSliceOf source) ∧
    (∃ tokens, tokenize source = tokens ++ [⟨⟨.endOfInput, []⟩, Text.byteLength source⟩] ∧
      ∀ t ∈ tokens, t.text ≠ [] ∧ t.kind ≠ .endOfInput) ∧
    Token.sourceText (tokenize source) = source ∧
    ((Scan.begin source).rounds source.length).rest = [] ∧
    tokenize source = Token.place 0
      (((Scan.begin source).rounds source.length).lexemes ++ [⟨.endOfInput, []⟩]) := by
  obtain ⟨-, htext, hall⟩ := scanFrom_reads .initial source
  have hsource : Lexeme.sourceText (scanFrom .initial source ++ [⟨.endOfInput, []⟩]) = source := by
    rw [Lexeme.sourceText_append, htext]
    exact List.append_nil source
  have hexhaust := Scan.rounds_exhaust source.length (Scan.begin source) (Nat.le_refl _)
  refine ⟨?_, ?_, ?_, ?_, hexhaust.1, ?_⟩
  · have h := Token.place_contiguous 0 (scanFrom .initial source ++ [⟨.endOfInput, []⟩])
    rwa [hsource, Nat.zero_add] at h
  · intro t ht
    have h := @Token.slice_of_mem_place [] _ _ ht
    rwa [hsource] at h
  · refine ⟨Token.place 0 (scanFrom .initial source), ?_, ?_⟩
    · rw [tokenize, Token.place_append, htext, Nat.zero_add]
      rfl
    · intro t ht
      exact hall t.toLexeme (Token.lexeme_of_mem_place ht)
  · rw [tokenize, Token.sourceText_place, hsource]
  · rw [hexhaust.2]
    rfl

end VbaWorkbench
