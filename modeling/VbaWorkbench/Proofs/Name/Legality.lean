import VbaWorkbench.Proofs.Character.Letters
import VbaWorkbench.Proofs.Name.Renames
import VbaWorkbench.Proofs.Name.Words
import VbaWorkbench.Proofs.Token.Respelling

namespace VbaWorkbench

section Parts

variable {c d : Char} {t : Text}

/-- Every character may stand in a name. -/
def Text.Fits (t : Text) : Prop :=
  ∀ c ∈ t, isNamePart c = true

theorem Text.fits_append {s t : Text} : (s ++ t).Fits ↔ s.Fits ∧ t.Fits :=
  List.forall_mem_append

theorem Text.isName_iff : t.IsName ↔ t.head?.any Character.isLetter = true ∧ t.Fits := by
  cases t with
  | nil =>
    refine ⟨?_, fun h => absurd h.1 Bool.false_ne_true⟩
    rintro ⟨c, rest, h, -⟩
    cases h
  | cons c rest =>
    constructor
    · rintro ⟨c, rest, ⟨⟩, hc, hrest⟩
      exact ⟨hc, List.forall_mem_cons.mpr ⟨by simp [isNamePart, hc], hrest⟩⟩
    · rintro ⟨hc, hfits⟩
      exact ⟨c, rest, rfl, hc, (List.forall_mem_cons.mp hfits).2⟩

theorem isNamePart_iff : isNamePart c = true ↔
    Character.isLetter c = true ∨ Character.isNumber c = true ∨ c = '_' := by
  simp [isNamePart, or_assoc]

/-- A table that keeps letters and numbers, and the underscore, keeps the characters of names. -/
theorem isNamePart_of_mapped {except : List Nat} {shifts : List Character.Shift}
    {expansions : List (Nat × List Nat)} (h : Character.Keeps except shifts expansions)
    (hunderscore : Character.mapped shifts expansions '_' = ['_']) (hc : isNamePart c = true)
    (hexcept : c.toNat ∉ except) (hd : d ∈ Character.mapped shifts expansions c) :
    isNamePart d = true := by
  obtain ⟨hletter, hnumber⟩ := h.mapped hexcept hd
  rw [isNamePart_iff] at hc ⊢
  rcases hc with hc | hc | rfl
  · exact .inl (hletter hc)
  · exact (hnumber hc).imp_right .inl
  · rw [hunderscore] at hd
    exact .inr (.inr (List.mem_singleton.mp hd))

theorem toNat_eq_iff : c.toNat = d.toNat ↔ c = d := by
  refine ⟨fun h => ?_, congrArg Char.toNat⟩
  rw [← Char.ofNat_toNat c, h, Char.ofNat_toNat]

theorem not_isNamePart_of_mark (h : Character.isLetter d = false ∧ Character.isNumber d = false ∧ d ≠ '_') :
    isNamePart d = false := by
  refine Bool.eq_false_iff.mpr fun hd => ?_
  rcases isNamePart_iff.mp hd with hd | hd | hd
  · exact absurd hd (Bool.eq_false_iff.mp h.1)
  · exact absurd hd (Bool.eq_false_iff.mp h.2.1)
  · exact h.2.2 hd

theorem fits_lower (hc : isNamePart c = true) : Text.Fits (Character.lower c) ↔ c ≠ 'İ' := by
  constructor
  · rintro h rfl
    have hdot := h '\u0307' (by decide)
    cases hdot
  · intro h d hd
    have hexcept : c.toNat ∉ [0x130] := fun hm => h (toNat_eq_iff.mp (List.mem_singleton.mp hm))
    exact isNamePart_of_mapped Character.keeps_lower (by decide) hc hexcept hd

theorem fits_upper (hc : isNamePart c = true) :
    Text.Fits (Character.upper c) ↔ c.toNat ∉ Character.uncapitalized := by
  constructor
  · intro h hm
    obtain ⟨d, hd, hmark⟩ := Character.exists_mark_of_uncapitalized hm
    have hpart := h d hd
    rw [not_isNamePart_of_mark hmark] at hpart
    cases hpart
  · exact fun h d hd => isNamePart_of_mapped Character.keeps_upper (by decide) hc h hd

theorem fits_lowercaseAfter {before : Text} (ht : t.Fits) :
    Text.Fits (Text.lowercaseAfter before t) ↔ 'İ' ∉ t := by
  induction t generalizing before with
  | nil => exact iff_of_true (List.forall_mem_nil _) List.not_mem_nil
  | cons c rest ih =>
    obtain ⟨hc, hrest⟩ := List.forall_mem_cons.mp ht
    obtain ⟨s, heq, hs⟩ := Text.lowercaseAfter_cons before c rest
    have hfirst : Text.Fits s ↔ 'İ' ≠ c := by
      rcases hs with rfl | ⟨rfl, rfl⟩
      · exact (fits_lower hc).trans ne_comm
      · exact iff_of_true (List.forall_mem_singleton.mpr (by decide)) (by decide)
    rw [heq, Text.fits_append, hfirst, ih hrest, List.mem_cons, not_or]

theorem fits_lowercase (ht : t.Fits) : Text.Fits (Text.lowercase t) ↔ 'İ' ∉ t :=
  fits_lowercaseAfter ht

theorem head_append {s : Text} (hne : s ≠ []) (hs : ∀ d ∈ s, Character.isLetter d = true) (t : Text) :
    (s ++ t).head?.any Character.isLetter = true := by
  cases s with
  | nil => exact absurd rfl hne
  | cons d s => exact hs d List.mem_cons_self

/-- A letter's capital begins with a letter. -/
theorem head_upper (hc : Character.isLetter c = true) (h : c.toNat ∉ Character.uncapitalized)
    (t : Text) : (Character.upper c ++ t).head?.any Character.isLetter = true :=
  head_append (Character.upper_ne_nil c) (fun _ hd => (Character.keeps_upper.mapped h hd).1 hc) t

theorem head_lowercase (hc : Character.isLetter c = true) (hdotted : c ≠ 'İ') (t u : Text) :
    (Text.lowercase (c :: t) ++ u).head?.any Character.isLetter = true := by
  obtain ⟨s, heq, hs⟩ := Text.lowercaseAfter_cons [] c t
  rw [Text.lowercase, heq, List.append_assoc]
  rcases hs with rfl | ⟨-, rfl⟩
  · have hexcept : c.toNat ∉ [0x130] :=
      fun hm => hdotted (toNat_eq_iff.mp (List.mem_singleton.mp hm))
    exact head_append (Character.lower_ne_nil c)
      (fun _ hd => (Character.keeps_lower.mapped hexcept hd).1 hc) _
  · exact head_append (List.cons_ne_nil _ _) (List.forall_mem_singleton.mpr (by decide)) _

end Parts

namespace Name

/-- The first letter has a capital that may stand in a name, and the others have small forms that
may. -/
def Capitalizes (w : Text) : Prop :=
  (∀ c ∈ w.head?, c.toNat ∉ Character.uncapitalized) ∧ 'İ' ∉ w.tail

instance (w : Text) : Decidable (Capitalizes w) :=
  inferInstanceAs (Decidable (_ ∧ _))

variable {c : Char} {w tag : Text} {ws : List Text}

theorem fits_capitalize (h : w.Fits) : (capitalize w).Fits ↔ Capitalizes w := by
  cases w with
  | nil => simp [capitalize, Capitalizes, Text.Fits]
  | cons c w =>
    obtain ⟨hc, hw⟩ := List.forall_mem_cons.mp h
    rw [capitalize, Text.fits_append, fits_upper hc, fits_lowercase hw]
    simp [Capitalizes]

theorem fits_pascal (h : ∀ w ∈ ws, w.Fits) : (pascal ws).Fits ↔ ∀ w ∈ ws, Capitalizes w := by
  induction ws with
  | nil => simp [pascal, Text.Fits]
  | cons w ws ih =>
    obtain ⟨hw, hws⟩ := List.forall_mem_cons.mp h
    rw [pascal_cons, Text.fits_append, fits_capitalize hw, ih hws, List.forall_mem_cons]

theorem isName_pascal (hc : Character.isLetter c = true) (h : ∀ v ∈ (c :: w) :: ws, Text.Fits v) :
    (pascal ((c :: w) :: ws)).IsName ↔ ∀ v ∈ (c :: w) :: ws, Capitalizes v := by
  rw [Text.isName_iff, fits_pascal h]
  refine ⟨And.right, fun hall => ⟨?_, hall⟩⟩
  have hcapital := (List.forall_mem_cons.mp hall).1.1 c rfl
  rw [pascal_cons, capitalize, List.append_assoc]
  exact head_upper hc hcapital _

theorem isName_camel (hc : Character.isLetter c = true) (h : ∀ v ∈ (c :: w) :: ws, Text.Fits v) :
    (camel ((c :: w) :: ws)).IsName ↔ 'İ' ∉ c :: w ∧ ∀ v ∈ ws, Capitalizes v := by
  obtain ⟨hfirst, hws⟩ := List.forall_mem_cons.mp h
  rw [Text.isName_iff, camel, Text.fits_append, fits_lowercase hfirst, fits_pascal hws]
  refine ⟨And.right, fun hall => ⟨?_, hall⟩⟩
  have hdotted : c ≠ 'İ' := fun heq => hall.1 (heq ▸ List.mem_cons_self)
  exact head_lowercase hc hdotted w _

theorem isName_of_given (h : TypeTag.Given tag) : Text.IsName tag := by
  have hall : ("abcdefghijklmnopqrstuvwxyz".toList.all Character.isLetter) = true := by decide
  have hletters : ∀ c ∈ "abcdefghijklmnopqrstuvwxyz".toList, Character.isLetter c = true :=
    List.all_eq_true.mp hall
  obtain ⟨hlength, hsmall⟩ := h.small
  cases tag with
  | nil => cases hlength
  | cons c rest =>
    refine ⟨c, rest, rfl, hletters c (hsmall c List.mem_cons_self), fun d hd => ?_⟩
    exact isNamePart_iff.mpr (.inl (hletters d (hsmall d (List.mem_cons_of_mem _ hd))))

theorem isName_hungarian (htag : TypeTag.Given tag) (h : ∀ v ∈ ws, Text.Fits v) :
    (hungarian tag ws).IsName ↔ ∀ v ∈ untagged tag ws, Capitalizes v := by
  obtain ⟨hhead, hfits⟩ := Text.isName_iff.mp (isName_of_given htag)
  rw [hungarian_eq, Text.isName_iff, Text.fits_append,
    fits_pascal fun v hv => h v (untagged_subset tag ws hv)]
  refine ⟨fun hall => hall.2.2, fun hall => ⟨?_, hfits, hall⟩⟩
  cases tag with
  | nil => cases hhead
  | cons c rest => exact hhead

end Name

namespace Declaration

/-- Whether the letters of a declared name have the forms that its spelling in a style needs. -/
def Spellable (style : NameStyle) (d : Declaration) : Prop :=
  match style, d.role with
  | .preserve, _ => True
  | .camel, _ =>
    'İ' ∉ (Name.words d.name).headD [] ∧ ∀ w ∈ (Name.words d.name).tail, Name.Capitalizes w
  | .hungarian, .variable =>
    ∀ w ∈ Name.untagged (d.tag.getD "var".toList) (Name.words d.name), Name.Capitalizes w
  | _, _ => ∀ w ∈ Name.words d.name, Name.Capitalizes w

instance (style : NameStyle) (d : Declaration) : Decidable (d.Spellable style) := by
  unfold Spellable
  split <;> infer_instance

/-- The spelling of a declared name is a name exactly if its letters have the forms for it. -/
theorem isName_styled {style : NameStyle} {d : Declaration} {target : Text} (hname : d.name.IsName)
    (htag : ∀ tag ∈ d.tag, TypeTag.Given tag) (h : d.styled? style = some target) :
    target.IsName ↔ d.Spellable style := by
  obtain ⟨c, rest, heq, hc, hrest⟩ := hname
  have hunderscore : c ≠ '_' := by
    rintro rfl
    cases hc
  obtain ⟨w, ws, hwords⟩ := Name.words_cons hunderscore rest
  have hfits : ∀ v ∈ (c :: w) :: ws, Text.Fits v := by
    rw [← hwords]
    exact Name.forall_mem_words (List.forall_mem_cons.mpr ⟨isNamePart_iff.mpr (.inl hc), hrest⟩)
  rw [← heq] at hwords
  unfold styled? at h
  unfold Spellable
  simp only [hwords, List.isEmpty_cons, Bool.false_eq_true, if_false] at h ⊢
  cases style with
  | preserve => cases h
  | camel =>
    obtain rfl := Option.some.inj h
    exact Name.isName_camel hc hfits
  | pascal =>
    obtain rfl := Option.some.inj h
    exact Name.isName_pascal hc hfits
  | hungarian =>
    -- Only variables have tags.
    cases hrole : d.role
    all_goals
      rw [hrole] at h
      obtain rfl := Option.some.inj h
    · exact Name.isName_hungarian (given_tag htag) hfits
    · exact Name.isName_pascal hc hfits
    · exact Name.isName_pascal hc hfits
    · exact Name.isName_pascal hc hfits

end Declaration

namespace RenamePlan

/-- What a source's declared names are to be called is no keyword and has no type suffix. It is an
identifier, and is read as one wherever the old name is, exactly if the letters of the declared name
have small forms and capitals that may stand in names. -/
theorem target_legal_iff {style : NameStyle} {source : Text} {r : Rename}
    (h : r ∈ (ofLines style (Line.ofTokens (tokenize source))).renames) :
    ∃ d ∈ Declaration.ofMentions (Mention.ofLines (Line.ofTokens (tokenize source))),
      r.key = d.key ∧ d.styled? style = some r.target ∧
      Keyword.isKeyword r.target = false ∧ TypeSuffix.of? r.target = none ∧
      (isIdentifier r.target = true ↔ d.Spellable style) ∧
      ∀ (state : ScanState) (next : Text) (l : Lexeme), l.ReadsIn state next →
        l.kind = .identifier → Name.key l.text = r.key →
        ∃ text, (ofLines style (Line.ofTokens (tokenize source))).renamed? l.text = some text ∧
          (Lexeme.ReadsIn state next ⟨.identifier, text⟩ ↔ d.Spellable style) := by
  have habsent := absent_target h
  have hdeclared := Declaration.keyed_ofMentions (Mention.ofLines (Line.ofTokens (tokenize source)))
  rw [ofLines_eq] at h
  obtain ⟨d, hd, hr⟩ := proposes_of_mem h
  obtain ⟨hname, htag⟩ := declared_of_mem hd
  have hstyled := Declaration.isName_styled hname htag hr.target
  refine ⟨d, hd, hr.key, hr.target, hr.legal, ?_, ?_, ?_⟩
  · rw [TypeSuffix.of?, Option.filter_eq_none_iff]
    intro c hc
    rw [habsent c (List.mem_of_getLast? hc)]
    exact Bool.false_ne_true
  · rw [isIdentifier_iff, TypeSuffix.strip_of_absent habsent, hstyled]
  · intro state next l hl hk hkey
    refine ⟨r.target ++ l.text.drop (TypeSuffix.strip l.text).length, ?_, ?_⟩
    · rw [ofLines_eq, renamed?_eq, (keyed_renames hdeclared).find?_eq_some.mpr ⟨h, hkey.symm⟩, Option.map_some]
    · rw [← hstyled]
      refine ⟨fun hread => ?_, fun htarget => readsIn_respelled hl hk htarget hr.legal⟩
      have hstrip := isName_strip hread rfl
      rwa [TypeSuffix.strip_rebased habsent] at hstrip

/-- A capital I with a dot in the first word of a name, whose small form is written with a mark. -/
theorem target_legal_iff_dotted :
    let source := "Dim row_count$, İx".toList
    let plan := ofLines .camel (Line.ofTokens (tokenize source))
    let r : Rename := ⟨"i\u0307x".toList, "i\u0307x".toList⟩
    r ∈ plan.renames ∧
    ∃ d ∈ Declaration.ofMentions (Mention.ofLines (Line.ofTokens (tokenize source))),
      r.key = d.key ∧ d.styled? .camel = some r.target ∧
      Keyword.isKeyword r.target = false ∧ TypeSuffix.of? r.target = none ∧
      (isIdentifier r.target = true ↔ d.Spellable .camel) ∧
      ∀ (state : ScanState) (next : Text) (l : Lexeme), l.ReadsIn state next →
        l.kind = .identifier → Name.key l.text = r.key →
        ∃ text, plan.renamed? l.text = some text ∧
          (Lexeme.ReadsIn state next ⟨.identifier, text⟩ ↔ d.Spellable .camel) := by
  intro source plan r
  have hmem : r ∈ plan.renames := by decide +kernel
  exact ⟨hmem, target_legal_iff hmem⟩

end RenamePlan
end VbaWorkbench
