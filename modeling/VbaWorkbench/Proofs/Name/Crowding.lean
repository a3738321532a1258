import Mathlib.Data.List.Chain
import VbaWorkbench.Proofs.Name.Idempotence

namespace VbaWorkbench

namespace Character

variable {c : Char}

theorem upper_plain (h : c.isAlphanum = true) :
    upper c = [c.toUpper] ∧ isUppercase c.toUpper = c.isAlpha ∧
      isLowercase c.toUpper = false ∧ isNumeric c.toUpper = !c.isAlpha :=
  forall_plain (P := fun c => upper c = [c.toUpper] ∧ isUppercase c.toUpper = c.isAlpha ∧
    isLowercase c.toUpper = false ∧ isNumeric c.toUpper = !c.isAlpha) (by decide +kernel) h

theorem lower_plain (h : c.isAlphanum = true) :
    lower c = [c.toLower] ∧ lower c.toLower = [c.toLower] ∧ isLowercase c.toLower = c.isAlpha ∧
      isNumeric c.toLower = !c.isAlpha :=
  forall_plain (P := fun c => lower c = [c.toLower] ∧ lower c.toLower = [c.toLower] ∧
    isLowercase c.toLower = c.isAlpha ∧ isNumeric c.toLower = !c.isAlpha) (by decide +kernel) h

/-- Of the capitals and digits, the digits are their own lower case. -/
theorem lower_upper_plain (h : c.isAlphanum = true) :
    lower c.toUpper = [c.toUpper] ↔ c.isAlpha = false :=
  forall_plain (P := fun c => lower c.toUpper = [c.toUpper] ↔ c.isAlpha = false)
    (by decide +kernel) h

end Character

/-- All characters are ASCII letters and digits. -/
def Text.Plain (t : Text) : Prop :=
  ∀ c ∈ t, c.isAlphanum = true

namespace Text

variable {before t : Text}

theorem Plain.lowercaseAfter (h : t.Plain) : lowercaseAfter before t = t.map Char.toLower := by
  induction t generalizing before with
  | nil => rfl
  | cons c t ih =>
    obtain ⟨hc, ht⟩ := List.forall_mem_cons.mp h
    have hsigma : c ≠ 'Σ' := by
      rintro rfl
      cases hc
    rw [Text.lowercaseAfter, if_neg hsigma, (Character.lower_plain hc).1, ih ht]
    rfl

theorem Plain.lowercase (h : t.Plain) : lowercase t = t.map Char.toLower :=
  h.lowercaseAfter

theorem Plain.small (h : t.Plain) : Small (t.map Char.toLower) := by
  intro d hd
  obtain ⟨c, hc, rfl⟩ := List.mem_map.mp hd
  exact (Character.lower_plain (h c hc)).2.1

end Text

namespace Name

open Text (Plain Small)

variable {a c : Char} {s t u v : Text} {ws : List Text}

theorem capitalize_plain (h : Plain (c :: t)) :
    capitalize (c :: t) = c.toUpper :: t.map Char.toLower := by
  obtain ⟨hc, ht⟩ := List.forall_mem_cons.mp h
  rw [capitalize, (Character.upper_plain hc).1, Plain.lowercase ht]
  rfl

theorem pascal_plain (h : Plain (c :: t)) (ws : List Text) :
    pascal ((c :: t) :: ws) = c.toUpper :: (t.map Char.toLower ++ pascal ws) := by
  rw [pascal_cons, capitalize_plain h, List.cons_append]

/-- The words of a name of ASCII characters. -/
def PlainWords (ws : List Text) : Prop :=
  ∀ w ∈ ws, ∃ c t, w = c :: t ∧ Plain (c :: t)

theorem PlainWords.isUppercase_pascal (h : PlainWords ws) :
    (pascal ws).head?.any Character.isUppercase = ws.head?.any (·.head?.any Char.isAlpha) := by
  cases ws with
  | nil => rfl
  | cons w ws =>
    obtain ⟨⟨c, w, rfl, hw⟩, -⟩ := List.forall_mem_cons.mp h
    rw [pascal_plain hw]
    exact (Character.upper_plain (hw c List.mem_cons_self)).2.1

theorem PlainWords.isLowercase_pascal (h : PlainWords ws) :
    (pascal ws).head?.any Character.isLowercase = false := by
  cases ws with
  | nil => rfl
  | cons w ws =>
    obtain ⟨⟨c, w, rfl, hw⟩, -⟩ := List.forall_mem_cons.mp h
    rw [pascal_plain hw]
    exact (Character.upper_plain (hw c List.mem_cons_self)).2.2.1

theorem separated_of_small (hs : Small s) : Separated (a :: s) := by
  induction s generalizing a with
  | nil => trivial
  | cons d s ih =>
    obtain ⟨hd, hs⟩ := Text.small_cons.mp hs
    exact ⟨.inl hd, ih hs⟩

/-- Where small letters end, only the next character has to begin a word. -/
theorem separated_append (hs : Small s) :
    Separated (a :: (s ++ c :: t)) ↔
      (Character.lower c = [c] ∨ beginsWord ((a :: s).getLast (List.cons_ne_nil a s)) c t = true) ∧
        Separated (c :: t) := by
  induction s generalizing a with
  | nil => rfl
  | cons d s ih =>
    obtain ⟨hd, hs⟩ := Text.small_cons.mp hs
    rw [List.cons_append, Separated, ih hs, and_iff_right (Or.inl hd)]
    rfl

/-- A word of one letter, and one that begins with a letter and does not go on with one. Their capitals
are put together, and nothing tells where the second word began. -/
def crowded : Text → Text → Bool
  | [a], b :: v => a.isAlpha && b.isAlpha && !v.head?.any Char.isAlpha
  | _, _ => false

/-- A capital begins a word after a small letter or a digit. -/
theorem bounded_small {p : Char} (hp : p.isAlphanum = true) (hc : c.isAlphanum = true) (t : Text) :
    Character.lower c.toUpper = [c.toUpper] ∨ beginsWord p.toLower c.toUpper t = true := by
  obtain ⟨-, -, hlower, hnumber⟩ := Character.lower_plain hp
  rw [Character.lower_upper_plain hc, beginsWord, (Character.upper_plain hc).2.1, hlower, hnumber]
  cases c.isAlpha <;> cases p.isAlpha <;> simp

/-- After a capital it does not, unless a small letter follows. -/
theorem bounded_capital (ha : a.isAlphanum = true) (hc : c.isAlphanum = true) (t : Text) :
    (Character.lower c.toUpper = [c.toUpper] ∨ beginsWord a.toUpper c.toUpper t = true) ↔
      (a.isAlpha && c.isAlpha && !t.head?.any Character.isLowercase) = false := by
  obtain ⟨-, hupper, hlower, hnumber⟩ := Character.upper_plain ha
  rw [Character.lower_upper_plain hc, beginsWord, (Character.upper_plain hc).2.1, hupper, hlower,
    hnumber]
  cases c.isAlpha <;> cases a.isAlpha <;> simp

theorem exists_getLast_lower (h : Plain (a :: u)) : ∃ d : Char, d.isAlphanum = true ∧
    (a.toLower :: u.map Char.toLower).getLast (List.cons_ne_nil _ _) = d.toLower := by
  have hlast : (a.toLower :: u.map Char.toLower).getLast (List.cons_ne_nil _ _) ∈
      (a :: u).map Char.toLower := List.getLast_mem _
  obtain ⟨d, hd, heq⟩ := List.mem_map.mp hlast
  exact ⟨d, h d hd, heq.symm⟩

/-- A word of letters and digits begins again after the word before it unless the two are crowded. -/
theorem bounded_iff (hu : Plain (a :: u)) (hv : Plain (c :: v)) (hws : PlainWords ws) :
    (Character.lower c.toUpper = [c.toUpper] ∨
      beginsWord ((a.toUpper :: u.map Char.toLower).getLast (List.cons_ne_nil _ _)) c.toUpper
        (v.map Char.toLower ++ pascal ws) = true) ↔ crowded (a :: u) (c :: v) = false := by
  obtain ⟨ha, hu⟩ := List.forall_mem_cons.mp hu
  obtain ⟨hc, hv⟩ := List.forall_mem_cons.mp hv
  cases u with
  | nil =>
    have hnext : (v.map Char.toLower ++ pascal ws).head?.any Character.isLowercase =
        v.head?.any Char.isAlpha := by
      cases v with
      | nil => exact hws.isLowercase_pascal
      | cons d v => exact (Character.lower_plain (hv d List.mem_cons_self)).2.2.1
    refine (bounded_capital ha hc _).trans ?_
    rw [hnext, crowded]
  | cons b u =>
    obtain ⟨d, hd, heq⟩ := exists_getLast_lower hu
    simp only [List.map_cons, List.getLast_cons_cons, heq]
    exact iff_of_true (bounded_small hd hc _) rfl

theorem separated_last (hu : Plain u) (p : Char) :
    Separated (p :: (u.map Char.toLower ++ pascal [])) :=
  separated_of_small (Text.small_append.mpr ⟨hu.small, Text.small_nil⟩)

/-- The words of letters and digits are found again in what is made of them unless two of them are
crowded. -/
theorem PlainWords.separated_pascal (h : PlainWords ws) :
    Separated (pascal ws) ↔ ws.IsChain fun u v => crowded u v = false := by
  induction ws with
  | nil => exact iff_of_true trivial .nil
  | cons u ws ih =>
    obtain ⟨⟨a, u, rfl, hu⟩, hws⟩ := List.forall_mem_cons.mp h
    have hu' := (List.forall_mem_cons.mp hu).2
    cases ws with
    | nil =>
      rw [pascal_plain hu]
      exact iff_of_true (separated_last hu' _) (.singleton _)
    | cons v ws =>
      obtain ⟨⟨c, v, rfl, hv⟩, hrest⟩ := List.forall_mem_cons.mp hws
      have hind := ih hws
      rw [pascal_plain hv] at hind
      rw [pascal_plain hu, pascal_plain hv, separated_append (Plain.small hu'),
        bounded_iff hu hv hrest, hind, List.isChain_cons_cons]

theorem PlainWords.separated_camel (h : PlainWords ws) :
    Separated (camel ws) ↔ ws.tail.IsChain fun u v => crowded u v = false := by
  cases ws with
  | nil => exact iff_of_true trivial .nil
  | cons u ws =>
    obtain ⟨⟨a, u, rfl, hu⟩, hws⟩ := List.forall_mem_cons.mp h
    have hu' := (List.forall_mem_cons.mp hu).2
    rw [camel, Plain.lowercase hu, List.map_cons, List.tail_cons,
      ← PlainWords.separated_pascal hws, List.cons_append]
    cases ws with
    | nil => exact iff_of_true (separated_last hu' _) trivial
    | cons v ws =>
      obtain ⟨⟨c, v, rfl, hv⟩, -⟩ := List.forall_mem_cons.mp hws
      obtain ⟨d, hd, hlast⟩ := exists_getLast_lower hu
      rw [pascal_plain hv, separated_append (Plain.small hu'), hlast]
      exact and_iff_right (bounded_small hd (hv c List.mem_cons_self) _)

/-- For a name of ASCII characters the words decide. A conversion in camel case can be repeated exactly if
no two words after the first are crowded, and one in Pascal case if no two words are. A tagged name
has to begin with a letter after its tag, too. -/
theorem stable_iff_not_crowded {tag name : Text} (htag : TypeTag.Given tag)
    (h : ∀ c ∈ name, c.isAlphanum = true ∨ c = '_') :
    (camel (words (camel (words name))) = camel (words name) ↔
      (words name).tail.IsChain fun u v => crowded u v = false) ∧
    (pascal (words (pascal (words name))) = pascal (words name) ↔
      (words name).IsChain fun u v => crowded u v = false) ∧
    (hungarian tag (words (hungarian tag (words name))) = hungarian tag (words name) ↔
      (untagged tag (words name)).head?.any (·.head?.any Char.isAlpha) = true ∧
        (untagged tag (words name)).IsChain fun u v => crowded u v = false) := by
  have hwords : PlainWords (words name) := by
    intro w hw
    have hplain : Plain w := by
      intro c hc
      obtain ⟨hmem, hunderscore⟩ := mem_of_mem_words hw hc
      exact (h c hmem).resolve_right hunderscore
    obtain ⟨c, t, rfl⟩ := List.exists_cons_of_ne_nil (ne_nil_of_mem_wordsAfter hw)
    exact ⟨c, t, rfl, hplain⟩
  have huntagged : PlainWords (untagged tag (words name)) :=
    fun w hw => hwords w (untagged_subset tag _ hw)
  refine ⟨?_, ?_, ?_⟩
  · rw [camel_stable_iff, hwords.separated_camel]
  · rw [pascal_stable_iff, hwords.separated_pascal]
  · rw [hungarian_stable_iff htag, huntagged.separated_pascal, huntagged.isUppercase_pascal]

end Name
end VbaWorkbench
