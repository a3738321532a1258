import VbaWorkbench.Proofs.Token.Stepping

namespace VbaWorkbench

namespace Text

def capitals : List Char :=
  (List.range 26).map fun i => Char.ofNat (65 + i)

theorem toLower_cases (c : Char) : c.toLower = c ∨ c ∈ capitals := by
  unfold Char.toLower
  split
  · rename_i h
    right
    have hlow : 65 ≤ c.toNat := h.1
    have hhigh : c.toNat ≤ 90 := h.2
    refine List.mem_map.mpr ⟨c.toNat - 65, by rw [List.mem_range]; omega, ?_⟩
    rw [Nat.add_sub_cancel' hlow, Char.ofNat_toNat]
  · exact .inl rfl

/-- The test does not tell capitals from small letters. -/
def CaseBlind {α : Type} (p : Char → α) : Prop :=
  ∀ c, p c.toLower = p c

theorem caseBlind_of_capitals {α : Type} [DecidableEq α] {p : Char → α}
    (h : (capitals.all fun c => p c.toLower == p c) = true) : CaseBlind p := by
  intro c
  rcases toLower_cases c with hc | hc
  · rw [hc]
  · simpa using List.all_eq_true.mp h c hc

theorem toLower_eq_iff {d : Char} (h : (capitals.all fun c => (c.toLower == d) == (c == d)) = true)
    (c : Char) : c.toLower = d ↔ c = d := by
  have hc : (c.toLower == d) = (c == d) := caseBlind_of_capitals (p := (· == d)) h c
  rw [← beq_iff_eq, hc, beq_iff_eq]

theorem toLower_toLower : CaseBlind Char.toLower :=
  caseBlind_of_capitals (by decide)

theorem isBlank_caseBlind : CaseBlind isBlank :=
  caseBlind_of_capitals (by decide)

theorem isLineBreak_caseBlind : CaseBlind isLineBreak :=
  caseBlind_of_capitals (by decide)

theorem isLetter_caseBlind : CaseBlind Character.isLetter :=
  caseBlind_of_capitals (by decide)

theorem isAlphabetic_caseBlind : CaseBlind Character.isAlphabetic :=
  caseBlind_of_capitals (by decide)

@[simp] theorem lowerAscii_nil : lowerAscii [] = [] :=
  rfl

@[simp] theorem lowerAscii_cons (c : Char) (t : Text) :
    lowerAscii (c :: t) = c.toLower :: lowerAscii t :=
  rfl

@[simp] theorem lowerAscii_append (s t : Text) :
    lowerAscii (s ++ t) = lowerAscii s ++ lowerAscii t :=
  List.map_append

@[simp] theorem lowerAscii_lowerAscii (t : Text) : lowerAscii (lowerAscii t) = lowerAscii t := by
  unfold lowerAscii
  rw [List.map_map]
  exact List.map_congr_left fun c _ => toLower_toLower c

@[simp] theorem length_lowerAscii (t : Text) : (lowerAscii t).length = t.length :=
  List.length_map _

theorem sameAscii_lowerAscii (s t : Text) : sameAscii (lowerAscii s) t = sameAscii s t := by
  rw [sameAscii, lowerAscii_lowerAscii, sameAscii]

end Text

namespace Reach

open Text

def CaseBlind (r : Reach) : Prop :=
  ∀ t, r (lowerAscii t) = r t

theorem many_caseBlind {q : Char → Bool} (h : Text.CaseBlind q) : (many q).CaseBlind := by
  intro t
  unfold many
  induction t with
  | nil => rfl
  | cons c t ih =>
    simp only [lowerAscii_cons, List.takeWhile_cons, h c]
    cases q c with
    | true => simpa using ih
    | false => rfl

theorem optional_caseBlind {q : Char → Bool} (h : Text.CaseBlind q) : (optional q).CaseBlind := by
  intro t
  cases t with
  | nil => rfl
  | cons c t => simp only [lowerAscii_cons, optional, h c]

theorem inTurn_nil_caseBlind : (inTurn []).CaseBlind :=
  fun _ => rfl

theorem inTurn_cons_caseBlind {r : Reach} {rs : List Reach} (h : r.CaseBlind)
    (hs : (inTurn rs).CaseBlind) : (inTurn (r :: rs)).CaseBlind := by
  intro t
  have hdrop : (lowerAscii t).drop (r t) = lowerAscii (t.drop (r t)) := List.map_drop.symm
  rw [inTurn, h t, hdrop, hs]
  rfl

theorem led_caseBlind {q : Char → Bool} {r : Reach} (h : Text.CaseBlind q) (hr : r.CaseBlind) :
    (led q r).CaseBlind := by
  intro t
  cases t with
  | nil => rfl
  | cons c t => simp only [lowerAscii_cons, led, h c, hr t]

theorem digits_caseBlind : digits.CaseBlind :=
  many_caseBlind (caseBlind_of_capitals (by decide))

theorem exponent_caseBlind : exponent.CaseBlind :=
  led_caseBlind (caseBlind_of_capitals (by decide))
    (inTurn_cons_caseBlind (optional_caseBlind (caseBlind_of_capitals (by decide)))
      (inTurn_cons_caseBlind digits_caseBlind inTurn_nil_caseBlind))

theorem numberSuffix_caseBlind : numberSuffix.CaseBlind :=
  optional_caseBlind (caseBlind_of_capitals (by decide))

theorem fraction_caseBlind : fraction.CaseBlind :=
  inTurn_cons_caseBlind digits_caseBlind
    (inTurn_cons_caseBlind exponent_caseBlind
      (inTurn_cons_caseBlind numberSuffix_caseBlind inTurn_nil_caseBlind))

theorem decimal_caseBlind : decimal.CaseBlind :=
  inTurn_cons_caseBlind digits_caseBlind
    (inTurn_cons_caseBlind (led_caseBlind (caseBlind_of_capitals (by decide)) digits_caseBlind)
      (inTurn_cons_caseBlind exponent_caseBlind
        (inTurn_cons_caseBlind numberSuffix_caseBlind inTurn_nil_caseBlind)))

theorem name_caseBlind : name.CaseBlind :=
  inTurn_cons_caseBlind (many_caseBlind (caseBlind_of_capitals (by decide)))
    (inTurn_cons_caseBlind (optional_caseBlind (caseBlind_of_capitals (by decide)))
      inTurn_nil_caseBlind)

theorem based_caseBlind : based.CaseBlind := by
  have hsize : (optional fun d => d ∈ ['%', '&', '^']).CaseBlind :=
    optional_caseBlind (caseBlind_of_capitals (by decide))
  have hhex := inTurn_cons_caseBlind
    (many_caseBlind (caseBlind_of_capitals (p := isHexDigit) (by decide)))
    (inTurn_cons_caseBlind hsize inTurn_nil_caseBlind)
  have hoct := inTurn_cons_caseBlind
    (many_caseBlind (caseBlind_of_capitals (p := isOctalDigit) (by decide)))
    (inTurn_cons_caseBlind hsize inTurn_nil_caseBlind)
  intro t
  cases t with
  | nil => rfl
  | cons c t => simp only [lowerAscii_cons, based, toLower_toLower c, hhex t, hoct t]

theorem lineBreak_caseBlind : lineBreak.CaseBlind := by
  intro t
  cases t with
  | nil => rfl
  | cons c t =>
    have hr := toLower_eq_iff (d := '\r') (by decide) c
    have hn : (lowerAscii t).head? = some '\n' ↔ t.head? = some '\n' := by
      cases t with
      | nil => rfl
      | cons d t => simpa using toLower_eq_iff (d := '\n') (by decide) d
    simp only [lowerAscii_cons, lineBreak_cons, hr, hn, isLineBreak_caseBlind c]

theorem quoted_caseBlind : quoted.CaseBlind := by
  intro t
  have hquote := fun c => toLower_eq_iff (d := '"') (by decide) c
  fun_induction quoted t with
  | case1 => rfl
  | case2 t ih =>
    rw [lowerAscii_cons, lowerAscii_cons, ← ih]
    rfl
  | case3 t hd =>
    rw [lowerAscii_cons, (hquote '"').mpr rfl, quoted_cons_of_not_doubled, if_pos rfl]
    rintro ⟨-, he⟩
    cases t with
    | nil => cases he
    | cons d t => exact hd t rfl (by rw [(hquote d).mp (by simpa using he)])
  | case4 c t _ hc hb =>
    rw [lowerAscii_cons, quoted_cons_of_not_doubled (by simp [hquote, hc]),
      if_neg (by simp [hquote, hc]), isLineBreak_caseBlind, if_pos hb]
  | case5 c t _ hc hb ih =>
    rw [lowerAscii_cons, quoted_cons_of_not_doubled (by simp [hquote, hc]),
      if_neg (by simp [hquote, hc]), isLineBreak_caseBlind, if_neg hb, ih]

end Reach

open Text

/-- What is read does not depend on the case of letters. -/
theorem read_lowerAscii (c : Char) (rest : Text) :
    Shape.read c.toLower (lowerAscii rest) = Shape.read c rest := by
  have hdigit : c.toLower.isDigit = c.isDigit := caseBlind_of_capitals (by decide) c
  have hoperator : c.toLower ∈ ['=', '+', '-', '*', '/', '\\', '^'] ↔
      c ∈ ['=', '+', '-', '*', '/', '\\', '^'] := by
    have h : CaseBlind fun c => decide (c ∈ ['=', '+', '-', '*', '/', '\\', '^']) :=
      caseBlind_of_capitals (by decide)
    exact decide_eq_decide.mp (h c)
  have hbreak : Reach.lineBreak (c.toLower :: lowerAscii rest) = Reach.lineBreak (c :: rest) :=
    Reach.lineBreak_caseBlind (c :: rest)
  have hblanks := Reach.many_caseBlind isBlank_caseBlind rest
  have hline : Reach.many (fun d => !isLineBreak d) (lowerAscii rest) =
      Reach.many (fun d => !isLineBreak d) rest :=
    Reach.many_caseBlind (fun d => by rw [isLineBreak_caseBlind d]) rest
  have hequals : Reach.optional (· == '=') (lowerAscii rest) = Reach.optional (· == '=') rest :=
    Reach.optional_caseBlind (caseBlind_of_capitals (by decide)) rest
  have hless : Reach.optional (fun d => d == '=' || d == '>') (lowerAscii rest) =
      Reach.optional (fun d => d == '=' || d == '>') rest :=
    Reach.optional_caseBlind (caseBlind_of_capitals (by decide)) rest
  simp only [Shape.read, isBlank_caseBlind c, isLineBreak_caseBlind c,
    toLower_eq_iff (d := '_') (by decide) c, toLower_eq_iff (d := '\'') (by decide) c,
    toLower_eq_iff (d := '"') (by decide) c, toLower_eq_iff (d := '.') (by decide) c,
    toLower_eq_iff (d := '&') (by decide) c, toLower_eq_iff (d := ':') (by decide) c,
    toLower_eq_iff (d := '<') (by decide) c, toLower_eq_iff (d := '>') (by decide) c,
    hdigit, hoperator, hbreak, hblanks, hline, hequals, hless, isLetter_caseBlind c,
    Reach.lineBreak_caseBlind rest, Reach.quoted_caseBlind rest, Reach.decimal_caseBlind rest,
    Reach.digits_caseBlind rest, Reach.fraction_caseBlind rest, Reach.based_caseBlind rest,
    Reach.name_caseBlind rest]

/-- The lexeme in small letters. -/
def Lexeme.lower (l : Lexeme) : Lexeme :=
  ⟨l.kind, lowerAscii l.text⟩

theorem Lexeme.kind_of_lower_eq {l l' : Lexeme} (h : l'.lower = l.lower) : l'.kind = l.kind := by
  have hkind : l'.lower.kind = l.lower.kind := by rw [h]
  exact hkind

theorem Lexeme.eq_of_fields {l l' : Lexeme} (hk : l.kind = l'.kind) (ht : l.text = l'.text) :
    l = l' := by
  cases l
  cases l'
  cases hk
  cases ht
  rfl

theorem isKeyword_lowerAscii (word : Text) :
    Keyword.isKeyword (lowerAscii word) = Keyword.isKeyword word := by
  have h : sameAscii (lowerAscii word) = sameAscii word := by
    funext spelling
    exact sameAscii_lowerAscii word spelling
  rw [Keyword.isKeyword, Keyword.canonical?, h]
  rfl

theorem getLast?_lowerAscii (word : Text) :
    (lowerAscii word).getLast? = word.getLast?.map Char.toLower :=
  List.getLast?_map

theorem ofWord_lowerAscii (word next : Text) :
    Lexeme.ofWord (lowerAscii word) (lowerAscii next) =
      (Lexeme.ofWord word next).map Lexeme.lower := by
  have hbang : (lowerAscii word).getLast? = some '!' ↔ word.getLast? = some '!' := by
    rw [getLast?_lowerAscii]
    cases word.getLast? with
    | none => rfl
    | some d => simpa using toLower_eq_iff (d := '!') (by decide) d
  have hletter : (lowerAscii next).head?.any Character.isAlphabetic =
      next.head?.any Character.isAlphabetic := by
    cases next with
    | nil => rfl
    | cons d next => exact isAlphabetic_caseBlind d
  have hbase : (lowerAscii word).dropLast = lowerAscii word.dropLast := List.map_dropLast.symm
  have hsuffix : (TypeSuffix.of? (lowerAscii word)).isNone = (TypeSuffix.of? word).isNone := by
    have h : CaseBlind TypeSuffix.isSuffix := caseBlind_of_capitals (by decide)
    rw [TypeSuffix.of?, TypeSuffix.of?, getLast?_lowerAscii]
    cases word.getLast? with
    | none => rfl
    | some d =>
      simp only [Option.map_some, Option.filter, h d]
      cases TypeSuffix.isSuffix d <;> rfl
  simp only [Lexeme.ofWord, hbang, hletter, hbase, hsuffix, isKeyword_lowerAscii]
  split
  · rfl
  · rfl

theorem ofShape_lowerAscii (state : ScanState) (shape : Shape) (text next : Text) :
    Lexeme.ofShape state shape (lowerAscii text) (lowerAscii next) =
      (Lexeme.ofShape state shape text next).map Lexeme.lower := by
  cases shape with
  | word => exact ofWord_lowerAscii text next
  | brokenUnderscore =>
    have htake : (lowerAscii text).take 1 = lowerAscii (text.take 1) := List.map_take.symm
    have hdrop : (lowerAscii text).drop 1 = lowerAscii (text.drop 1) := List.map_drop.symm
    simp only [Lexeme.ofShape, htake, hdrop]
    split
    · rfl
    · rfl
  | whitespace | newline | comment | quoted | number | separator | operator | other => rfl

theorem scanStep_lowerAscii (state : ScanState) (c : Char) (rest : Text) :
    scanStep state c.toLower (lowerAscii rest) =
      ((scanStep state c rest).1.map Lexeme.lower, (scanStep state c rest).2) := by
  have htake : ∀ n, c.toLower :: (lowerAscii rest).take n = lowerAscii (c :: rest.take n) := by
    intro n
    rw [lowerAscii_cons, lowerAscii, lowerAscii, List.map_take]
  have hdrop : ∀ n, (lowerAscii rest).drop n = lowerAscii (rest.drop n) :=
    fun n => List.map_drop.symm
  have hline : Reach.many (fun d => !isLineBreak d) (lowerAscii rest) =
      Reach.many (fun d => !isLineBreak d) rest :=
    Reach.many_caseBlind (fun d => by rw [isLineBreak_caseBlind d]) rest
  cases hread : Shape.read c rest with
  | mk shape n =>
  have hread' := read_lowerAscii c rest
  rw [hread] at hread'
  have hremark : beginsRemark state shape (lowerAscii (c :: rest.take n)) =
      beginsRemark state shape (c :: rest.take n) := by
    rw [beginsRemark, sameAscii_lowerAscii]
    rfl
  simp only [scanStep, hread, hread', htake, hdrop, hline, hremark]
  split
  · rfl
  · simp only [ofShape_lowerAscii]

theorem text_of_first {state : ScanState} {c : Char} {rest : Text} {l : Lexeme}
    (h : (scanStep state c rest).1.head? = some l) : l.text <+: c :: rest := by
  rcases scanStep_cases state c rest with
    ⟨k, n, -, hstep⟩ | ⟨a, b, as, n, -, -, ha, hab, -, hstep⟩
  · rw [hstep] at h
    obtain rfl := Option.some.inj h
    exact ⟨rest.drop n, by rw [List.cons_append, List.take_append_drop]⟩
  · rw [hstep] at h
    obtain rfl := Option.some.inj h
    refine ⟨b.text ++ rest.drop n, ?_⟩
    rw [ha, List.cons_append, ← List.append_assoc, hab, List.take_append_drop]

/-- Which lexemes are read does not depend on the case of letters. -/
theorem readsIn_of_lower_eq {state : ScanState} {next next' : Text} {l l' : Lexeme}
    (h : l.ReadsIn state next) (hl : l'.lower = l.lower) (hn : lowerAscii next' = lowerAscii next) :
    l'.ReadsIn state next' := by
  obtain ⟨c, cs, htext, hfirst⟩ := h
  have hlow : lowerAscii l'.text = lowerAscii l.text := congrArg Lexeme.text hl
  rw [htext] at hlow
  cases htext' : l'.text with
  | nil =>
    rw [htext'] at hlow
    cases hlow
  | cons c' cs' =>
    rw [htext', lowerAscii_cons, lowerAscii_cons, List.cons.injEq] at hlow
    obtain ⟨hc, hcs⟩ := hlow
    refine ⟨c', cs', htext', ?_⟩
    have hrest : lowerAscii (cs' ++ next') = lowerAscii (cs ++ next) := by
      rw [lowerAscii_append, lowerAscii_append, hcs, hn]
    have hsame : (scanStep state c' (cs' ++ next')).1.map Lexeme.lower =
        (scanStep state c (cs ++ next)).1.map Lexeme.lower := by
      have h' := congrArg Prod.fst (scanStep_lowerAscii state c' (cs' ++ next'))
      rw [hc, hrest, scanStep_lowerAscii] at h'
      exact h'.symm
    have hhead := congrArg List.head? hsame
    rw [List.head?_map, List.head?_map, hfirst] at hhead
    obtain ⟨m, hm, hlower⟩ := Option.map_eq_some_iff.mp hhead
    -- The two have the same length and begin the same text.
    have hlength : m.text.length = (c' :: cs').length := by
      have h' := congrArg (fun l : Lexeme => l.text.length) (hlower.trans hl.symm)
      simpa [Lexeme.lower, htext'] using h'
    have hprefix : c' :: cs' <+: c' :: (cs' ++ next') := ⟨next', rfl⟩
    have htexts : m.text = l'.text := by
      rw [htext']
      exact List.IsPrefix.eq_of_length (List.prefix_of_prefix_length_le (text_of_first hm) hprefix
        (Nat.le_of_eq hlength)) hlength
    have hkind : m.kind = l'.kind := Lexeme.kind_of_lower_eq (hlower.trans hl.symm)
    rw [hm, show m = l' from Lexeme.eq_of_fields hkind htexts]

theorem lowerAscii_sourceText (ls : List Lexeme) :
    lowerAscii (Lexeme.sourceText ls) = Lexeme.sourceText (ls.map Lexeme.lower) := by
  induction ls with
  | nil => rfl
  | cons l ls ih => simp [ih, Lexeme.lower]

theorem reads_of_lower_eq {state : ScanState} {next next' : Text} {ls ls' : List Lexeme}
    (h : Reads state next ls) (hl : ls'.map Lexeme.lower = ls.map Lexeme.lower)
    (hn : lowerAscii next' = lowerAscii next) : Reads state next' ls' := by
  induction ls generalizing state ls' with
  | nil =>
    rw [List.map_nil, List.map_eq_nil_iff] at hl
    rw [hl]
    trivial
  | cons l ls ih =>
    cases ls' with
    | nil => cases hl
    | cons l' ls' =>
      rw [List.map_cons, List.map_cons, List.cons.injEq] at hl
      obtain ⟨hhead, htail⟩ := hl
      have hkind : l'.kind = l.kind := Lexeme.kind_of_lower_eq hhead
      refine ⟨readsIn_of_lower_eq h.1 hhead ?_, ?_⟩
      · rw [lowerAscii_append, lowerAscii_append, hn, lowerAscii_sourceText, lowerAscii_sourceText,
          htail]
      · rw [hkind]
        exact ih h.2 htail

end VbaWorkbench
