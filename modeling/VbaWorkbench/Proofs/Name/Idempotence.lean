import VbaWorkbench.Proofs.Character.Mapping
import VbaWorkbench.Proofs.Name.Spelling
import VbaWorkbench.Proofs.Name.Words

namespace VbaWorkbench

/-- Texts put one after the other, none shorter than the part it stands for. -/
theorem append_eq_append_of_le {α : Type} {s s' t t' : List α} (hs : s.length ≤ s'.length)
    (ht : t.length ≤ t'.length) : s' ++ t' = s ++ t ↔ s' = s ∧ t' = t := by
  constructor
  · intro h
    have hlength := congrArg List.length h
    rw [List.length_append, List.length_append] at hlength
    exact List.append_inj h (by omega)
  · rintro ⟨rfl, rfl⟩
    rfl

theorem Character.underscore_not_mem_upper {c : Char} (h : c ≠ '_') : '_' ∉ upper c := by
  have hexpansions : ∀ e ∈ upperExpansions, ∀ code ∈ e.2, code ≠ 0x5f := by decide +kernel
  have hshifts : (upperShifts.all fun s => s.run.apart s.offset ⟨0x5f, 0x5f, 1⟩) = true := by
    decide +kernel
  refine mapped_forall (P := fun c cs => c ≠ '_' → '_' ∉ cs) ?_ ?_ ?_ c h
  · rintro e he c - - hm
    obtain ⟨code, hcode, heq⟩ := List.mem_map.mp hm
    exact hexpansions e he code hcode (code_of_ofNat heq (by decide))
  · rintro s hs c hc - hm
    have hapart := Run.contains_of_apart (List.all_eq_true.mp hshifts s hs) hc
    rw [code_of_ofNat (List.mem_singleton.mp hm).symm (by decide)] at hapart
    cases hapart
  · rintro c - hne hm
    exact hne (List.mem_singleton.mp hm).symm

namespace Text

variable {before t : Text} {c : Char}

/-- Every character is its own lower case. -/
def Small (t : Text) : Prop :=
  ∀ c ∈ t, Character.lower c = [c]

theorem small_nil : Small [] :=
  fun _ hc => absurd hc List.not_mem_nil

theorem small_cons : Small (c :: t) ↔ Character.lower c = [c] ∧ t.Small :=
  List.forall_mem_cons

theorem small_append {s t : Text} : (s ++ t).Small ↔ s.Small ∧ t.Small :=
  List.forall_mem_append

/-- What one character gives is itself or something else, and not less. -/
theorem exists_lowered (before : Text) (c : Char) (t : Text) :
    ∃ s, lowercaseAfter before (c :: t) = s ++ lowercaseAfter (c :: before) t ∧
      [c].length ≤ s.length ∧ (s = [c] ↔ Character.lower c = [c]) ∧
      ∀ d ∈ s, Character.lower d = [d] := by
  obtain ⟨s, heq, hs⟩ := lowercaseAfter_cons before c t
  refine ⟨s, heq, ?_⟩
  rcases hs with rfl | ⟨rfl, rfl⟩
  · exact ⟨List.length_pos_iff.mpr (Character.lower_ne_nil c), Iff.rfl,
      fun _ => Character.lower_of_mem_lower⟩
  · exact ⟨Nat.le_refl 1, by decide, List.forall_mem_singleton.mpr (by decide)⟩

theorem length_le_lowercaseAfter (before t : Text) :
    t.length ≤ (lowercaseAfter before t).length := by
  induction t generalizing before with
  | nil => exact Nat.zero_le _
  | cons c t ih =>
    obtain ⟨s, heq, hpos, -, -⟩ := exists_lowered before c t
    have hrest := ih (c :: before)
    rw [List.length_singleton] at hpos
    rw [heq, List.length_append, List.length_cons]
    omega

theorem lowercaseAfter_eq_self : lowercaseAfter before t = t ↔ t.Small := by
  induction t generalizing before with
  | nil => exact iff_of_true rfl small_nil
  | cons c t ih =>
    obtain ⟨s, heq, hpos, hfirst, -⟩ := exists_lowered before c t
    have hsplit := append_eq_append_of_le hpos (length_le_lowercaseAfter (c :: before) t)
    rw [hfirst, ih, List.singleton_append, ← heq] at hsplit
    exact hsplit.trans small_cons.symm

theorem lowercase_eq_self : lowercase t = t ↔ t.Small :=
  lowercaseAfter_eq_self

theorem length_le_lowercase (t : Text) : t.length ≤ (lowercase t).length :=
  length_le_lowercaseAfter [] t

/-- The lower case of a text begins with a character that is its own lower case. -/
theorem lowercase_head (c : Char) (t : Text) :
    ∃ d u, lowercase (c :: t) = d :: u ∧ Character.lower d = [d] := by
  obtain ⟨s, heq, hpos, -, hsmall⟩ := exists_lowered [] c t
  cases s with
  | nil => cases hpos
  | cons d s => exact ⟨d, s ++ lowercaseAfter [c] t, heq, hsmall d List.mem_cons_self⟩

theorem sameAscii_self (t : Text) : sameAscii t t = true :=
  beq_self_eq_true _

theorem length_eq_of_sameAscii {s t : Text} (h : sameAscii s t = true) : s.length = t.length := by
  have hlength := congrArg List.length (eq_of_beq h)
  rwa [lowerAscii, lowerAscii, List.length_map, List.length_map] at hlength

end Text

namespace Name

open Text (Small)

variable {c p : Char} {t current w : Text} {ws : List Text}

/-- Every character after the first that has another form in lower case begins a word. -/
def Separated : Text → Prop
  | previous :: c :: rest =>
    (Character.lower c = [c] ∨ beginsWord previous c rest = true) ∧ Separated (c :: rest)
  | _ => True

/-- The words of a text without underscores go on in small letters exactly if its capitals begin
words. -/
theorem small_tails_iff (h : '_' ∉ t) :
    (∀ w ∈ wordsAfter (p :: current) t, Small w.tail) ↔
      Small (p :: current).reverse.tail ∧ Separated (p :: t) := by
  induction t generalizing p current with
  | nil => simp [wordsAfter, Separated]
  | cons c rest ih =>
    obtain ⟨hc, hrest⟩ : '_' ≠ c ∧ '_' ∉ rest := by simpa using h
    rw [wordsAfter, if_neg hc.symm, List.head?_cons, Option.any_some, Separated]
    cases hbegins : beginsWord p c rest with
    | true =>
      have hempty : Small [c].reverse.tail := Text.small_nil
      rw [if_pos rfl, List.forall_mem_cons, ih hrest]
      simp only [hempty, true_and, or_true]
    | false =>
      have hgrown : (c :: p :: current).reverse.tail = (p :: current).reverse.tail ++ [c] := by
        rw [List.reverse_cons, List.tail_append_of_ne_nil (by simp)]
      have hlast : Small [c] ↔ Character.lower c = [c] := List.forall_mem_singleton
      rw [if_neg Bool.false_ne_true, ih hrest, hgrown, Text.small_append, hlast]
      simp only [Bool.false_eq_true, or_false, and_assoc]

theorem words_eq_wordsAfter (h : '_' ∉ c :: t) : words (c :: t) = wordsAfter [c] t := by
  have hc : '_' ≠ c := fun heq => h (heq ▸ List.mem_cons_self)
  rw [words, wordsAfter, if_neg hc.symm]
  rfl

theorem small_words_iff (h : '_' ∉ c :: t) :
    (∀ w ∈ words (c :: t), Small w.tail) ↔ Separated (c :: t) := by
  have hempty : Small [c].reverse.tail := Text.small_nil
  rw [words_eq_wordsAfter h, small_tails_iff fun hm => h (List.mem_cons_of_mem _ hm),
    and_iff_right hempty]

/-- Without underscores, words after the first begin with capitals. -/
theorem capital_of_mem_tail (h : '_' ∉ t) (hcurrent : current ≠ []) :
    ∀ w ∈ (wordsAfter current t).tail, w.head?.any Character.isUppercase = true := by
  fun_induction wordsAfter current t with
  | case1 current hc => simp
  | case2 current hc => simp
  | case3 current rest hc ih => exact absurd List.mem_cons_self h
  | case4 current rest hc ih => exact absurd List.mem_cons_self h
  | case5 current c rest hc hbegins ih =>
    obtain ⟨w, ws, hwords⟩ := wordsAfter_of_ne_nil (List.cons_ne_nil c []) rest
    have hcapital : Character.isUppercase c = true := by
      cases current with
      | nil => cases hbegins
      | cons d current => exact (Bool.and_eq_true_iff.mp hbegins).1
    have hws := ih (fun hm => h (List.mem_cons_of_mem _ hm)) (List.cons_ne_nil c [])
    rw [hwords] at hws
    rw [List.tail_cons, hwords]
    exact List.forall_mem_cons.mpr ⟨hcapital, hws⟩
  | case6 current c rest hc hbegins ih =>
    exact ih (fun hm => h (List.mem_cons_of_mem _ hm)) (List.cons_ne_nil c current)

theorem length_le_capitalize (w : Text) : w.length ≤ (capitalize w).length := by
  cases w with
  | nil => exact Nat.zero_le _
  | cons c w =>
    have hpos := List.length_pos_iff.mpr (Character.upper_ne_nil c)
    have hrest := Text.length_le_lowercase w
    rw [capitalize, List.length_append, List.length_cons]
    omega

theorem capitalize_eq_self : capitalize (c :: w) = c :: w ↔ Character.upper c = [c] ∧ w.Small := by
  have hfirst : [c].length ≤ (Character.upper c).length :=
    List.length_pos_iff.mpr (Character.upper_ne_nil c)
  rw [capitalize, ← List.singleton_append,
    append_eq_append_of_le hfirst (Text.length_le_lowercase w), Text.lowercase_eq_self]

theorem length_le_pascal (ws : List Text) : ws.flatten.length ≤ (pascal ws).length := by
  induction ws with
  | nil => exact Nat.zero_le _
  | cons w ws ih =>
    have hfirst := length_le_capitalize w
    rw [pascal_cons, List.flatten_cons, List.length_append, List.length_append]
    omega

theorem pascal_eq_flatten : pascal ws = ws.flatten ↔ ∀ w ∈ ws, capitalize w = w := by
  induction ws with
  | nil => exact ⟨fun _ _ hw => absurd hw List.not_mem_nil, fun _ => rfl⟩
  | cons w ws ih =>
    rw [pascal_cons, List.flatten_cons,
      append_eq_append_of_le (length_le_capitalize w) (length_le_pascal ws), ih,
      List.forall_mem_cons]

theorem camel_eq_flatten :
    camel (w :: ws) = (w :: ws).flatten ↔ w.Small ∧ ∀ w ∈ ws, capitalize w = w := by
  rw [camel, List.flatten_cons,
    append_eq_append_of_le (Text.length_le_lowercase w) (length_le_pascal ws),
    Text.lowercase_eq_self, pascal_eq_flatten]

/-- The words of a text without underscores are the text, and those after the first are in the
spelling of words exactly if its capitals begin words. -/
theorem words_shape (h : '_' ∉ c :: t) :
    ∃ w ws, words (c :: t) = (c :: w) :: ws ∧ ((c :: w) :: ws).flatten = c :: t ∧
      ((Small w ∧ ∀ v ∈ ws, capitalize v = v) ↔ Separated (c :: t)) := by
  obtain ⟨hc, ht⟩ : '_' ≠ c ∧ '_' ∉ t := by simpa using h
  obtain ⟨w, ws, hwords⟩ := words_cons hc.symm t
  have hflatten := flatten_words_of_not_mem h
  rw [hwords] at hflatten
  refine ⟨w, ws, hwords, hflatten, ?_⟩
  have hcapitals := capital_of_mem_tail ht (List.cons_ne_nil c [])
  rw [← words_eq_wordsAfter h, hwords] at hcapitals
  have hrest : (∀ v ∈ ws, capitalize v = v) ↔ ∀ v ∈ ws, Small v.tail := by
    refine forall₂_congr fun v hv => ?_
    have hcapital := hcapitals v hv
    cases v with
    | nil => cases hcapital
    | cons d v =>
      rw [capitalize_eq_self, List.tail_cons, Character.upper_of_isUppercase hcapital]
      exact and_iff_right rfl
  rw [hrest, ← small_words_iff h, hwords, List.forall_mem_cons, List.tail_cons]

theorem pascal_words_eq_self (h : '_' ∉ c :: t) (hc : Character.upper c = [c]) :
    pascal (words (c :: t)) = c :: t ↔ Separated (c :: t) := by
  obtain ⟨w, ws, hwords, hflatten, hshape⟩ := words_shape h
  rw [← hshape, hwords, ← hflatten, pascal_eq_flatten, List.forall_mem_cons, capitalize_eq_self,
    and_iff_right hc]

theorem camel_words_eq_self (h : '_' ∉ c :: t) (hc : Character.lower c = [c]) :
    camel (words (c :: t)) = c :: t ↔ Separated (c :: t) := by
  obtain ⟨w, ws, hwords, hflatten, hshape⟩ := words_shape h
  rw [← hshape, hwords, ← hflatten, camel_eq_flatten, Text.small_cons, and_iff_right hc]

/-- Upper and lower case bring in no underscore. -/
theorem caseKept_underscore : CaseKept (· ≠ '_') where
  upper h _ hd hunderscore := Character.underscore_not_mem_upper h (hunderscore ▸ hd)
  lowercase h d hd hunderscore := by
    subst hunderscore
    exact h '_' (Text.underscore_mem_lowercase.mp hd) rfl

theorem not_mem_words (name : Text) : ∀ w ∈ words name, ∀ c ∈ w, c ≠ '_' :=
  fun _ hw _ hc => (mem_of_mem_words hw hc).2

/-- Small letters and numbers stay in the word that they are met in. -/
theorem wordsAfter_append {s : Text} (h : ∀ c ∈ s, c ≠ '_' ∧ Character.isUppercase c = false)
    (current t : Text) : wordsAfter current (s ++ t) = wordsAfter (s.reverse ++ current) t := by
  induction s generalizing current with
  | nil => rfl
  | cons c s ih =>
    obtain ⟨⟨hc, hsmall⟩, hs⟩ := List.forall_mem_cons.mp h
    have hbegins : ¬ current.head?.any (beginsWord · c (s ++ t)) = true := by
      cases current <;> simp [beginsWord, hsmall]
    rw [List.cons_append, wordsAfter, if_neg hc, if_neg hbegins, ih hs, List.reverse_cons,
      List.append_assoc, List.singleton_append]

section Tags

variable {tag x : Text}

theorem tag_letters (htag : TypeTag.Given tag) : ∀ c ∈ tag,
    (c ≠ '_' ∧ Character.isUppercase c = false) ∧ Character.isLowercase c = true := by
  have hall : ("abcdefghijklmnopqrstuvwxyz".toList.all fun c =>
      c != '_' && !Character.isUppercase c && Character.isLowercase c) = true := by decide +kernel
  intro c hc
  simpa using List.all_eq_true.mp hall c (htag.small.2 c hc)

/-- A capital ends the tag. -/
theorem words_tagged (htag : TypeTag.Given tag) (hc : Character.isUppercase c = true) (t : Text) :
    words (tag ++ c :: t) = tag :: words (c :: t) := by
  have hunderscore : c ≠ '_' := by
    rintro rfl
    exact absurd hc (by decide)
  cases hreverse : tag.reverse with
  | nil =>
    have hlength := htag.small.1
    rw [List.reverse_eq_nil_iff.mp hreverse] at hlength
    cases hlength
  | cons l rest =>
    have hl : l ∈ tag := List.mem_reverse.mp (hreverse ▸ List.mem_cons_self)
    have hbegins : beginsWord l c t = true := by
      simp [beginsWord, hc, (tag_letters htag l hl).2]
    rw [words, wordsAfter_append fun d hd => (tag_letters htag d hd).1, List.append_nil, hreverse,
      wordsAfter, if_neg hunderscore, List.head?_cons, Option.any_some, if_pos hbegins, ← hreverse,
      List.reverse_reverse, words, wordsAfter, if_neg hunderscore]
    rfl

/-- A tag with no capital after it is only the beginning of a word. -/
theorem untagged_words (htag : TypeTag.Given tag) (h : '_' ∉ tag ++ x)
    (hx : x.head?.any Character.isUppercase = false) :
    untagged tag (words (tag ++ x)) = words (tag ++ x) := by
  have htags : ∀ c ∈ tag, c ≠ '_' ∧ Character.isUppercase c = false :=
    fun c hc => (tag_letters htag c hc).1
  cases x with
  | nil =>
    rw [words, wordsAfter_append htags, List.append_nil]
    unfold wordsAfter
    split <;> rfl
  | cons c t =>
    have hc : c ≠ '_' := fun heq => h (heq ▸ List.mem_append_right _ List.mem_cons_self)
    have hletters : ∀ d ∈ tag ++ [c], d ≠ '_' ∧ Character.isUppercase d = false :=
      List.forall_mem_append.mpr ⟨htags, List.forall_mem_singleton.mpr ⟨hc, hx⟩⟩
    have hcurrent : (tag ++ [c]).reverse ++ [] ≠ [] := by simp
    obtain ⟨w, ws, hwords⟩ := wordsAfter_of_ne_nil hcurrent t
    rw [← List.singleton_append, ← List.append_assoc, words, wordsAfter_append hletters, hwords]
    refine untagged_of_not_same (fun hsame => ?_) ws
    have hlength := Text.length_eq_of_sameAscii hsame
    simp at hlength

/-- What follows the tag of a variable stays as it is exactly if it begins with a capital. -/
theorem hungarian_words_eq_self (htag : TypeTag.Given tag) (h : '_' ∉ tag ++ x) :
    hungarian tag (words (tag ++ x)) = tag ++ x ↔
      x.head?.any Character.isUppercase = true ∧ Separated x := by
  rw [hungarian_eq, List.append_cancel_left_eq]
  cases hcapital : x.head?.any Character.isUppercase with
  | false =>
    refine ⟨fun heq => ?_, fun hfalse => absurd hfalse.1 Bool.false_ne_true⟩
    have hgrown := length_le_pascal (words (tag ++ x))
    rw [flatten_words_of_not_mem h, ← untagged_words htag h hcapital, heq, List.length_append]
      at hgrown
    have hlength := htag.small.1
    omega
  | true =>
    cases x with
    | nil => cases hcapital
    | cons c t =>
      have ht : '_' ∉ c :: t := fun hm => h (List.mem_append_right _ hm)
      obtain ⟨w, ws, hwords, -, -⟩ := words_shape ht
      have hrest : untagged tag (words (tag ++ c :: t)) = words (c :: t) := by
        rw [words_tagged htag hcapital, hwords, untagged, if_pos (Text.sameAscii_self tag)]
      rw [hrest, pascal_words_eq_self ht (Character.upper_of_isUppercase hcapital)]
      exact (and_iff_right rfl).symm

end Tags

theorem words_cases (name : Text) :
    words name = [] ∨ ∃ c w ws, words name = (c :: w) :: ws := by
  cases hwords : words name with
  | nil => exact .inl rfl
  | cons w ws =>
    cases w with
    | nil => exact absurd rfl (ne_nil_of_mem_wordsAfter (hwords ▸ List.mem_cons_self))
    | cons c w => exact .inr ⟨c, w, ws, rfl⟩

theorem camel_stable_iff (name : Text) :
    camel (words (camel (words name))) = camel (words name) ↔ Separated (camel (words name)) := by
  have hunderscore : '_' ∉ camel (words name) :=
    fun hm => caseKept_underscore.camel (not_mem_words name) '_' hm rfl
  rcases words_cases name with hwords | ⟨c, w, ws, hwords⟩
  · rw [hwords]
    exact iff_of_true rfl trivial
  · obtain ⟨d, u, hlower, hd⟩ := Text.lowercase_head c w
    rw [hwords, camel, hlower, List.cons_append] at hunderscore ⊢
    exact camel_words_eq_self hunderscore hd

theorem pascal_stable_iff (name : Text) :
    pascal (words (pascal (words name))) = pascal (words name) ↔ Separated (pascal (words name)) := by
  have hunderscore : '_' ∉ pascal (words name) :=
    fun hm => caseKept_underscore.pascal (not_mem_words name) '_' hm rfl
  rcases words_cases name with hwords | ⟨c, w, ws, hwords⟩
  · rw [hwords]
    exact iff_of_true rfl trivial
  · obtain ⟨d, u, hupper⟩ := List.exists_cons_of_ne_nil (Character.upper_ne_nil c)
    have hd : Character.upper d = [d] :=
      Character.upper_of_mem_upper (hupper ▸ List.mem_cons_self)
    rw [hwords, pascal_cons, capitalize, hupper, List.append_assoc, List.cons_append]
      at hunderscore ⊢
    exact pascal_words_eq_self hunderscore hd

theorem hungarian_stable_iff {tag : Text} (htag : TypeTag.Given tag) (name : Text) :
    hungarian tag (words (hungarian tag (words name))) = hungarian tag (words name) ↔
      (pascal (untagged tag (words name))).head?.any Character.isUppercase = true ∧
        Separated (pascal (untagged tag (words name))) := by
  have htags : ∀ c ∈ tag, c ≠ '_' := fun c hc => (tag_letters htag c hc).1.1
  have hunderscore : '_' ∉ hungarian tag (words name) :=
    fun hm => caseKept_underscore.hungarian htags (not_mem_words name) '_' hm rfl
  rw [hungarian_eq tag (words name)] at hunderscore ⊢
  exact hungarian_words_eq_self htag hunderscore

/-- A second conversion of a name changes nothing exactly if each character of the converted name that
lower case would change begins a word there. What follows a tag has to begin with a capital, too. -/
theorem conversions_stable_iff {tag : Text} (htag : TypeTag.Given tag) (name : Text) :
    (camel (words (camel (words name))) = camel (words name) ↔ Separated (camel (words name))) ∧
    (pascal (words (pascal (words name))) = pascal (words name) ↔
      Separated (pascal (words name))) ∧
    (hungarian tag (words (hungarian tag (words name))) = hungarian tag (words name) ↔
      (pascal (untagged tag (words name))).head?.any Character.isUppercase = true ∧
        Separated (pascal (untagged tag (words name)))) :=
  ⟨camel_stable_iff name, pascal_stable_iff name, hungarian_stable_iff htag name⟩

/-- The capitals of words of one letter stand together, and the last of them begins no word. -/
theorem conversions_stable_iff_letters :
    let name := "a_b_c".toList
    let tag := "str".toList
    TypeTag.Given tag ∧ camel (words name) = "aBC".toList ∧
    camel (words "aBC".toList) = "aBc".toList ∧
    (camel (words (camel (words name))) = camel (words name) ↔ Separated (camel (words name))) ∧
    (pascal (words (pascal (words name))) = pascal (words name) ↔
      Separated (pascal (words name))) ∧
    (hungarian tag (words (hungarian tag (words name))) = hungarian tag (words name) ↔
      (pascal (untagged tag (words name))).head?.any Character.isUppercase = true ∧
        Separated (pascal (untagged tag (words name)))) := by
  intro name tag
  have htag : TypeTag.Given tag := .inr ⟨'$', rfl⟩
  exact ⟨htag, by decide +kernel, by decide +kernel, conversions_stable_iff htag name⟩

end Name
end VbaWorkbench
