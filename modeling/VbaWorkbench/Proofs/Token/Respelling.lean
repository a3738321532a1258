import VbaWorkbench.Proofs.Token.Names

namespace VbaWorkbench

section Reading

variable {c : Char} {rest u : Text}

theorem read_letter (h : Character.isLetter c = true) (rest : Text) :
    Shape.read c rest = (.word, Reach.name rest) := by
  have hne : ∀ d : Char, Character.isLetter d = false → c ≠ d := by
    rintro d hd rfl
    rw [h] at hd
    cases hd
  have hplain : Shape.isPlain c = true := by
    rcases Shape.class_cases c with hc | hc | rfl | rfl | rfl | hc
    · rcases (Bool.or_eq_true _ _).mp hc with hc | hc
      · exact absurd (beq_iff_eq.mp hc) (hne ' ' (by decide))
      · exact absurd (beq_iff_eq.mp hc) (hne '\t' (by decide))
    · rcases (Bool.or_eq_true _ _).mp hc with hc | hc
      · exact absurd (beq_iff_eq.mp hc) (hne '\n' (by decide))
      · exact absurd (beq_iff_eq.mp hc) (hne '\r' (by decide))
    · exact absurd rfl (hne '_' (by decide))
    · exact absurd rfl (hne '\'' (by decide))
    · exact absurd rfl (hne '"' (by decide))
    · exact hc
  have hdigit : c.isDigit = false := by
    refine Bool.eq_false_iff.mpr fun hd => ?_
    have hall : ∀ n < 58, 48 ≤ n → Character.isLetter (Char.ofNat n) = false := by decide
    simp only [Char.isDigit, Bool.and_eq_true, decide_eq_true_eq] at hd
    have hletter := hall c.toNat (Nat.lt_succ_of_le hd.2) hd.1
    rw [Char.ofNat_toNat, h] at hletter
    cases hletter
  rw [Shape.read_of_plain hplain]
  simp [hdigit, h, hne '.' (by decide), hne '&' (by decide), hne ':' (by decide),
    hne '<' (by decide), hne '>' (by decide), hne '=' (by decide), hne '+' (by decide),
    hne '-' (by decide), hne '*' (by decide), hne '/' (by decide), hne '\\' (by decide),
    hne '^' (by decide)]

/-- A name goes on as long as letters, numbers and underscores do, and with a type suffix. -/
theorem name_append (hrest : ∀ d ∈ rest, isNamePart d = true)
    (hu : u.head?.any isNamePart = false) :
    Reach.name (rest ++ u) = rest.length + Reach.optional TypeSuffix.isSuffix u := by
  have hpart : (rest ++ u).takeWhile isNamePart = rest := by
    rw [List.takeWhile_append_of_pos hrest]
    cases u with
    | nil => exact List.append_nil rest
    | cons d u =>
      rw [List.takeWhile_cons_of_neg (by simpa using hu), List.append_nil]
  have hname : Reach.name (rest ++ u) = ((rest ++ u).takeWhile isNamePart).length +
      Reach.optional TypeSuffix.isSuffix ((rest ++ u).drop
        ((rest ++ u).takeWhile isNamePart).length) := rfl
  rw [hname, hpart, List.drop_left]

end Reading

/-- One word is a name with or without a type suffix. -/
theorem isIdentifier_iff (t : Text) : isIdentifier t = true ↔ (TypeSuffix.strip t).IsName := by
  constructor
  · intro h
    cases t with
    | nil => cases h
    | cons c rest =>
      obtain ⟨hc, hlength⟩ := Shape.read_word (beq_iff_eq.mp h)
      obtain ⟨parts, s, hparts, hs, hrest⟩ := take_name rest
      have hname : Text.IsName (c :: parts) := ⟨c, parts, rfl, hc, hparts⟩
      rw [← hlength, List.take_length] at hrest
      rwa [hrest, ← List.cons_append, TypeSuffix.strip_append hname.absent hs]
  · rintro ⟨c, rest, hstrip, hc, hrest⟩
    obtain ⟨s, ht, hs⟩ := TypeSuffix.exists_suffix t
    rw [hstrip] at ht
    rw [ht, List.cons_append, isIdentifier, read_letter hc, beq_iff_eq]
    rcases hs with rfl | ⟨x, hx, rfl⟩
    · rw [name_append hrest rfl, List.append_nil]
      rfl
    · rw [name_append hrest (by simpa using isNamePart_of_isSuffix hx), Reach.optional, if_pos hx,
        List.length_append]
      rfl

section Places

variable {state : ScanState} {c : Char} {parts u next : Text}

theorem read_name (hc : Character.isLetter c = true) (hparts : ∀ d ∈ parts, isNamePart d = true)
    (hu : u.head?.any isNamePart = false) :
    Shape.read c (parts ++ u) = (.word, (parts ++ suffixOf u).length) ∧
      (parts ++ u).take (parts ++ suffixOf u).length = parts ++ suffixOf u ∧
      (parts ++ u).drop (parts ++ suffixOf u).length = u.drop (suffixOf u).length := by
  have hlength : (suffixOf u).length = Reach.optional TypeSuffix.isSuffix u := by
    cases u with
    | nil => rfl
    | cons x u =>
      rw [suffixOf, Reach.optional]
      split <;> rfl
  refine ⟨?_, ?_, ?_⟩
  · rw [read_letter hc, name_append hparts hu, List.length_append, hlength]
  · rw [List.length_append, hlength, List.take_length_add_append]
    rfl
  · rw [List.length_append, List.drop_length_add_append]

/-- An identifier is a name with or without a type suffix, and the name does not go on behind it. -/
theorem identifier_cases {l : Lexeme} (h : l.ReadsIn state next) (hk : l.kind = .identifier) :
    ∃ name s, name.IsName ∧ l.text = name ++ s ∧
      TypeSuffix.AtMostOne s ∧
      (s ++ next).head?.any isNamePart = false ∧
      (Lexeme.ofWord (name ++ suffixOf (s ++ next))
        ((s ++ next).drop (suffixOf (s ++ next)).length)).head? = some l := by
  obtain ⟨c, cs, htext, hfirst⟩ := h
  obtain ⟨n, hread, -, hword⟩ := word_of_named (.inl hk) hfirst
  have hc := (Shape.read_word hread).1
  obtain ⟨parts, u, hsplit, hparts, hu⟩ : ∃ parts u, cs ++ next = parts ++ u ∧
      (∀ d ∈ parts, isNamePart d = true) ∧ u.head?.any isNamePart = false := by
    refine ⟨(cs ++ next).takeWhile isNamePart, (cs ++ next).dropWhile isNamePart,
      List.takeWhile_append_dropWhile.symm, List.all_eq_true.mp List.all_takeWhile, ?_⟩
    have hhead := List.head?_dropWhile_not isNamePart (cs ++ next)
    cases hd : ((cs ++ next).dropWhile isNamePart).head? with
    | none => rfl
    | some d => rwa [hd] at hhead
  obtain ⟨hletter, htake, hdrop⟩ := read_name hc hparts hu
  rw [hsplit, hletter] at hread
  obtain ⟨-, rfl⟩ := Prod.mk.inj hread
  rw [hsplit, htake, hdrop, ← List.cons_append] at hword
  have hname : Text.IsName (c :: parts) := ⟨c, parts, rfl, hc, hparts⟩
  have hbang : '!' ∉ c :: parts := fun hm => absurd (hname.absent '!' hm) (by decide)
  obtain ⟨s, hs, hu'⟩ : ∃ s, cs = parts ++ s ∧ (s = [] ∨ s = suffixOf u) := by
    rcases text_of_ofWord hbang (suffixOf_atMostOne u) hword with hl | hl
    · rw [htext, List.cons_append] at hl
      exact ⟨suffixOf u, (List.cons.inj hl).2, .inr rfl⟩
    · rw [htext] at hl
      exact ⟨[], by rw [List.append_nil, (List.cons.inj hl).2], .inl rfl⟩
  have hbehind : s ++ next = u := by
    rw [hs, List.append_assoc] at hsplit
    exact List.append_cancel_left hsplit
  refine ⟨c :: parts, s, hname, ?_, ?_, ?_, ?_⟩
  · rw [htext, hs, List.cons_append]
  · rcases hu' with rfl | rfl
    · exact .inl rfl
    · exact suffixOf_atMostOne u
  · rw [hbehind, hu]
  · rw [hbehind, hword]

/-- The suffix that a name keeps when it is read. A bang before a letter is left to the member. -/
def keptSuffix (u next : Text) : Text :=
  if suffixOf u = ['!'] ∧ next.head?.any Character.isAlphabetic then [] else suffixOf u

theorem ofWord_name {name : Text} (h : TypeSuffix.Absent name) (u next : Text) :
    (Lexeme.ofWord (name ++ suffixOf u) next).head? = some
      ⟨if keptSuffix u next = [] ∧ Keyword.isKeyword name then .keyword else .identifier,
        name ++ keptSuffix u next⟩ := by
  have hbang : name.getLast? ≠ some '!' := fun hlast => by
    cases h '!' (List.mem_of_getLast? hlast)
  have hnone : TypeSuffix.of? name = none := by
    rw [TypeSuffix.of?, Option.filter_eq_none_iff]
    intro c hc
    rw [h c (List.mem_of_getLast? hc)]
    exact Bool.false_ne_true
  rcases suffixOf_atMostOne u with hu | ⟨x, hx, hu⟩
  · simp [Lexeme.ofWord, keptSuffix, hu, hbang, hnone]
  · have hsome : TypeSuffix.of? (name ++ [x]) = some x := by
      rw [TypeSuffix.of?, List.getLast?_concat, Option.filter_some, if_pos hx]
    by_cases hmember : x = '!' ∧ next.head?.any Character.isAlphabetic = true
    · simp [Lexeme.ofWord, keptSuffix, hu, hmember]
    · simp [Lexeme.ofWord, keptSuffix, hu, hmember, hsome]

theorem not_remark {new : Text} (hkey : Keyword.isKeyword new = false) (u : Text) :
    beginsRemark state .word (new ++ suffixOf u) = false := by
  refine Bool.eq_false_iff.mpr fun hr => ?_
  simp only [beginsRemark, Bool.and_eq_true] at hr
  have hrem : Text.lowerAscii (new ++ suffixOf u) = "rem".toList := beq_iff_eq.mp hr.2
  rcases suffixOf_atMostOne u with hu | ⟨x, hx, hu⟩
  · rw [hu, List.append_nil] at hrem
    have hkeyword : Keyword.isKeyword new = true := by
      rw [Keyword.isKeyword, Keyword.canonical?, List.find?_isSome]
      exact ⟨"Rem".toList, by decide, by rw [Text.sameAscii, hrem]; rfl⟩
    rw [hkey] at hkeyword
    cases hkeyword
  · rw [hu, Text.lowerAscii, List.map_append] at hrem
    have hlast := congrArg List.getLast? hrem
    rw [List.map_singleton, List.getLast?_concat] at hlast
    have hx' : x = '%' ∨ x = '&' ∨ x = '!' ∨ x = '#' ∨ x = '@' ∨ x = '$' := by
      simpa [TypeSuffix.isSuffix] using hx
    rcases hx' with rfl | rfl | rfl | rfl | rfl | rfl <;> cases hlast

/-- An identifier whose name is exchanged for another name, which is no keyword, is read as an
identifier in the same place. -/
theorem readsIn_respelled {l : Lexeme} (h : l.ReadsIn state next) (hk : l.kind = .identifier)
    {new : Text} (hnew : new.IsName) (hkey : Keyword.isKeyword new = false) :
    Lexeme.ReadsIn state next
      ⟨.identifier, new ++ l.text.drop (TypeSuffix.strip l.text).length⟩ := by
  obtain ⟨name, s, hname, htext, hs, hnext, hword⟩ := identifier_cases h hk
  have hstrip : TypeSuffix.strip l.text = name := by
    rw [htext, TypeSuffix.strip_append hname.absent hs]
  have hkept : s = keptSuffix (s ++ next) ((s ++ next).drop (suffixOf (s ++ next)).length) := by
    rw [ofWord_name hname.absent] at hword
    have hsame := congrArg Lexeme.text (Option.some.inj hword)
    rw [htext] at hsame
    exact (List.append_cancel_left hsame).symm
  have hfirst := ofWord_name hnew.absent (s ++ next) ((s ++ next).drop (suffixOf (s ++ next)).length)
  rw [← hkept, hkey, if_neg (by simp)] at hfirst
  obtain ⟨c, rest, rfl, hc, hrest⟩ := hnew
  obtain ⟨hread, htake, hdrop⟩ := read_name hc hrest hnext
  rw [hstrip, htext, List.drop_left]
  refine ⟨c, rest ++ s, rfl, ?_⟩
  have hr : beginsRemark state .word (c :: rest ++ suffixOf (s ++ next)) = false :=
    not_remark hkey (s ++ next)
  rw [List.append_assoc, scanStep_code hread (by rw [htake]; exact hr), htake, hdrop]
  exact hfirst

end Places

end VbaWorkbench
