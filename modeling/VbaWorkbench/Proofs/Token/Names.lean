import VbaWorkbench.Proofs.Name.Spelling
import VbaWorkbench.Proofs.Token.Coverage
import VbaWorkbench.Proofs.Token.Kinds

namespace VbaWorkbench

/-- The characters that a name may have after its first letter. -/
def isNamePart (c : Char) : Bool :=
  Character.isLetter c || Character.isNumber c || c == '_'

/-- A letter, with letters, numbers and underscores after it. -/
def Text.IsName (t : Text) : Prop :=
  ∃ c rest, t = c :: rest ∧ Character.isLetter c = true ∧ ∀ d ∈ rest, isNamePart d = true

theorem isNamePart_of_isSuffix {c : Char} (h : TypeSuffix.isSuffix c = true) :
    isNamePart c = false := by
  have hc : c = '%' ∨ c = '&' ∨ c = '!' ∨ c = '#' ∨ c = '@' ∨ c = '$' := by
    simpa [TypeSuffix.isSuffix] using h
  rcases hc with rfl | rfl | rfl | rfl | rfl | rfl <;> decide

theorem Text.IsName.parts {t : Text} (h : t.IsName) : ∀ d ∈ t, isNamePart d = true := by
  obtain ⟨c, rest, rfl, hc, hrest⟩ := h
  exact List.forall_mem_cons.mpr ⟨by simp [isNamePart, hc], hrest⟩

/-- A character that is no part of names does not occur in one. -/
theorem Text.IsName.forall {t : Text} (h : t.IsName) {p : Char → Bool}
    (hp : ∀ {c}, p c = true → isNamePart c = false) : ∀ d ∈ t, p d = false := by
  intro d hd
  refine Bool.eq_false_iff.mpr fun hpd => ?_
  have hpart := h.parts d hd
  rw [hp hpd] at hpart
  cases hpart

theorem Text.IsName.absent {t : Text} (h : t.IsName) : TypeSuffix.Absent t :=
  h.forall isNamePart_of_isSuffix

/-- The type suffix that a name takes with it. -/
def suffixOf (u : Text) : Text :=
  u.take (Reach.optional TypeSuffix.isSuffix u)

theorem suffixOf_atMostOne (u : Text) : TypeSuffix.AtMostOne (suffixOf u) := by
  cases u with
  | nil => exact .inl rfl
  | cons x u =>
    rw [suffixOf, Reach.optional]
    split
    · rename_i hx
      exact .inr ⟨x, hx, rfl⟩
    · exact .inl rfl

theorem take_name (t : Text) :
    ∃ rest s, (∀ d ∈ rest, isNamePart d = true) ∧ TypeSuffix.AtMostOne s ∧
      t.take (Reach.name t) = rest ++ s := by
  have hpart : t.take (t.takeWhile isNamePart).length = t.takeWhile isNamePart :=
    (List.prefix_iff_eq_take.mp (List.takeWhile_prefix _)).symm
  have hname : Reach.name t = (t.takeWhile isNamePart).length +
      Reach.optional TypeSuffix.isSuffix (t.drop (t.takeWhile isNamePart).length) := rfl
  refine ⟨t.takeWhile isNamePart, suffixOf (t.drop (t.takeWhile isNamePart).length),
    List.all_eq_true.mp List.all_takeWhile, suffixOf_atMostOne _, ?_⟩
  rw [hname, List.take_add, hpart, suffixOf]

/-- Only a word that begins no remark is read as an identifier or keyword. -/
theorem word_of_named {state : ScanState} {c : Char} {l : Lexeme} {rest : Text}
    (hk : l.kind = .identifier ∨ l.kind = .keyword)
    (hfirst : (scanStep state c rest).1.head? = some l) :
    ∃ n, Shape.read c rest = (.word, n) ∧ beginsRemark state .word (c :: rest.take n) = false ∧
      (Lexeme.ofWord (c :: rest.take n) (rest.drop n)).head? = some l := by
  have hother : ∀ {k : TokenKind} {text : Text}, some ⟨k, text⟩ = some l →
      k ≠ .identifier → k ≠ .keyword → False := by
    rintro k text hl hi hw
    obtain rfl := Option.some.inj hl
    exact hk.elim hi hw
  cases hread : Shape.read c rest with
  | mk shape n =>
  cases hr : beginsRemark state shape (c :: rest.take n) with
  | true =>
    rw [scanStep_remark hread hr] at hfirst
    exact (hother hfirst (by simp) (by simp)).elim
  | false =>
    rw [scanStep_code hread hr] at hfirst
    cases shape with
    | word => exact ⟨n, rfl, hr, hfirst⟩
    | brokenUnderscore =>
      simp only [Lexeme.ofShape] at hfirst
      split at hfirst <;> exact (hother hfirst (by simp) (by simp)).elim
    | whitespace | newline | comment | quoted | number | separator | operator | other =>
      exact (hother hfirst (by simp) (by simp)).elim

/-- What is read first of a word is the word, or all of it before a bang. -/
theorem text_of_ofWord {l : Lexeme} {name s next : Text} (hname : '!' ∉ name)
    (hs : TypeSuffix.AtMostOne s)
    (h : (Lexeme.ofWord (name ++ s) next).head? = some l) : l.text = name ++ s ∨ l.text = name := by
  rcases ofWord_cases (name ++ s) next with ⟨k, -, hw⟩ | ⟨k, base, -, hbase, hw⟩
  · rw [hw] at h
    obtain rfl := Option.some.inj h
    exact .inl rfl
  · rw [hw] at h
    obtain rfl := Option.some.inj h
    rcases hs with rfl | ⟨x, -, rfl⟩
    · rw [List.append_nil] at hbase
      exact absurd (by rw [hbase]; simp) hname
    · exact .inr (List.append_inj' hbase rfl).1.symm

/-- Without its suffix, an identifier is a name. -/
theorem isName_strip {state : ScanState} {l : Lexeme} {next : Text} (h : l.ReadsIn state next)
    (hk : l.kind = .identifier) : (TypeSuffix.strip l.text).IsName := by
  obtain ⟨c, cs, -, hfirst⟩ := h
  obtain ⟨n, hread, -, hword⟩ := word_of_named (.inl hk) hfirst
  obtain ⟨hc, rfl⟩ := Shape.read_word hread
  obtain ⟨rest, s, hrest, hs, htake⟩ := take_name (cs ++ next)
  have hname : Text.IsName (c :: rest) := ⟨c, rest, rfl, hc, hrest⟩
  have hbang : '!' ∉ c :: rest := fun hm => absurd (hname.absent '!' hm) (by decide)
  rw [htake, ← List.cons_append] at hword
  rcases text_of_ofWord hbang hs hword with hl | hl
  · rwa [hl, TypeSuffix.strip_append hname.absent hs]
  · rwa [hl, TypeSuffix.strip_of_absent hname.absent]

theorem isName_of_mem_tokenize {source : Text} {t : Token} (h : t ∈ tokenize source)
    (hk : t.kind = .identifier) : (TypeSuffix.strip t.text).IsName := by
  rcases List.mem_append.mp (Token.lexeme_of_mem_place h) with hl | hl
  · obtain ⟨state, next, hread⟩ := (scanFrom_reads .initial source).1.forall _ hl
    exact isName_strip hread hk
  · rw [List.mem_singleton.mp hl] at hk
    cases hk

end VbaWorkbench
