import VbaWorkbench.Proofs.Token.LetterCase

namespace VbaWorkbench

namespace Text

@[simp] theorem byteLength_lowerAscii (t : Text) : byteLength (lowerAscii t) = byteLength t := by
  have hsize : CaseBlind Char.utf8Size := caseBlind_of_capitals (by decide)
  induction t with
  | nil => rfl
  | cons c t ih => rw [lowerAscii_cons, byteLength, byteLength, hsize c, ih]

theorem count_lowerAscii {d : Char}
    (h : (capitals.all fun c => (c.toLower == d) == (c == d)) = true) (t : Text) :
    (lowerAscii t).count d = t.count d := by
  have hsame : (· == d) ∘ Char.toLower = (· == d) :=
    funext (caseBlind_of_capitals (p := (· == d)) h)
  rw [List.count_eq_countP, List.count_eq_countP, lowerAscii, List.countP_map, hsame]

end Text

theorem scanFrom_lowerAscii (state : ScanState) (t : Text) :
    scanFrom state (Text.lowerAscii t) = (scanFrom state t).map Lexeme.lower := by
  fun_induction scanFrom state t with
  | case1 => simp [scanFrom]
  | case2 state c rest lexemes n state' hstep ih =>
    have hdrop : (Text.lowerAscii rest).drop n = Text.lowerAscii (rest.drop n) :=
      List.map_drop.symm
    rw [Text.lowerAscii_cons, scanFrom, scanStep_lowerAscii, hstep]
    simp only [hdrop, ih, List.map_append]

namespace Token

/-- The token in small letters, where it stands. -/
def lower (t : Token) : Token :=
  ⟨t.toLexeme.lower, t.start⟩

@[simp] theorem kind_lower (t : Token) : t.lower.kind = t.kind :=
  rfl

@[simp] theorem stop_lower (t : Token) : t.lower.stop = t.stop :=
  congrArg (t.start + ·) (Text.byteLength_lowerAscii t.text)

theorem isUnterminated_lower (t : Token) : t.lower.isUnterminated = t.isUnterminated := by
  have hcount : t.lower.text.count '"' = t.text.count '"' :=
    Text.count_lowerAscii (by decide) t.text
  rw [isUnterminated, kind_lower, hcount, isUnterminated]

theorem place_lower (start : Nat) (ls : List Lexeme) :
    place start (ls.map Lexeme.lower) = (place start ls).map lower := by
  induction ls generalizing start with
  | nil => rfl
  | cons l ls ih =>
    rw [List.map_cons, place, place, List.map_cons, Lexeme.lower, Text.byteLength_lowerAscii,
      ← Lexeme.lower, ih]
    rfl

end Token

/-- A source in small letters has the tokens of the source in small letters. -/
theorem tokenize_lowerAscii (source : Text) :
    tokenize (Text.lowerAscii source) = (tokenize source).map Token.lower := by
  rw [tokenize, tokenize, ← Token.place_lower, scanFrom_lowerAscii, List.map_append]
  rfl

theorem unterminatedStrings_lower (tokens : List Token) :
    unterminatedStrings (tokens.map Token.lower) = unterminatedStrings tokens := by
  have hsame : Token.isUnterminated ∘ Token.lower = Token.isUnterminated :=
    funext Token.isUnterminated_lower
  rw [unterminatedStrings, List.filter_map, hsame, List.map_map]
  rfl

theorem tokenize_of_lower_eq {source source' : Text}
    (h : Text.lowerAscii source' = Text.lowerAscii source) :
    (tokenize source').map Token.lower = (tokenize source).map Token.lower := by
  rw [← tokenize_lowerAscii, h, tokenize_lowerAscii]

end VbaWorkbench
