import VbaWorkbench.Name.TypeTag
import VbaWorkbench.Proofs.Name.Words
import VbaWorkbench.Proofs.Text.CaseMapping

namespace VbaWorkbench

namespace TypeSuffix

/-- No character of the text declares a type. -/
def Absent (t : Text) : Prop :=
  ∀ c ∈ t, isSuffix c = false

instance (t : Text) : Decidable (Absent t) :=
  List.decidableBAll (isSuffix · = false) t

theorem strip_of_absent {t : Text} (h : Absent t) : strip t = t := by
  have hnone : of? t = none := by
    rw [of?, Option.filter_eq_none_iff]
    intro c hc
    simp [h c (List.mem_of_getLast? hc)]
  rw [strip, hnone]
  rfl

theorem strip_suffixed {t : Text} {s : Char} (hs : isSuffix s = true) : strip (t ++ [s]) = t := by
  have hsome : of? (t ++ [s]) = some s := by
    rw [of?, List.getLast?_concat, Option.filter, if_pos hs]
  rw [strip, hsome, Option.isSome_some, if_pos rfl, List.dropLast_concat]

/-- No type suffix, or one. -/
def AtMostOne (s : Text) : Prop :=
  s = [] ∨ ∃ x, isSuffix x = true ∧ s = [x]

theorem strip_append {name s : Text} (h : Absent name) (hs : AtMostOne s) :
    strip (name ++ s) = name := by
  rcases hs with rfl | ⟨x, hx, rfl⟩
  · rw [List.append_nil, strip_of_absent h]
  · exact strip_suffixed hx

theorem strip_cases (t : Text) :
    strip t = t ∨ ∃ s, isSuffix s = true ∧ t = strip t ++ [s] := by
  cases h : of? t with
  | none =>
    left
    rw [strip, h]
    rfl
  | some s =>
    obtain ⟨hlast, hs⟩ := Option.filter_eq_some_iff.mp h
    obtain ⟨base, rfl⟩ := List.getLast?_eq_some_iff.mp hlast
    exact .inr ⟨s, hs, by rw [strip_suffixed hs]⟩

theorem exists_suffix (t : Text) : ∃ s, t = strip t ++ s ∧ AtMostOne s := by
  rcases strip_cases t with h | ⟨x, hx, h⟩
  · exact ⟨[], by rw [h, List.append_nil], .inl rfl⟩
  · exact ⟨[x], h, .inr ⟨x, hx, rfl⟩⟩

/-- A name whose base is exchanged has the new base, and the suffix that it had. -/
theorem strip_rebased {base : Text} (h : Absent base) (name : Text) :
    strip (base ++ name.drop (strip name).length) = base := by
  rcases strip_cases name with hname | ⟨s, hs, hname⟩
  · rw [hname, List.drop_length, List.append_nil, strip_of_absent h]
  · have hdrop : name.drop (strip name).length = [s] := by
      conv => lhs; rw [hname, strip_suffixed hs, List.drop_left]
    rw [hdrop, strip_suffixed hs]

theorem toNat_of_isSuffix {c : Char} (h : isSuffix c = true) : c.toNat < 0x41 ∧ c.toNat ≠ 0 := by
  have hc : c = '%' ∨ c = '&' ∨ c = '!' ∨ c = '#' ∨ c = '@' ∨ c = '$' := by
    simpa [isSuffix] using h
  rcases hc with rfl | rfl | rfl | rfl | rfl | rfl <;> decide

end TypeSuffix

namespace TypeTag

open TypeSuffix (Absent)

/-- The tag of a type or of a type suffix. -/
def Given (tag : Text) : Prop :=
  (∃ name, tag = ofType name) ∨ ∃ suffix, tag = ofSuffix suffix

theorem given_ofDeclarator {declarator : List Token} {tag : Text}
    (h : ofDeclarator? declarator = some tag) : Given tag := by
  unfold ofDeclarator? at h
  split at h
  · obtain ⟨name, -, rfl⟩ := Option.map_eq_some_iff.mp h
    exact .inl ⟨name, rfl⟩
  · cases h
  · obtain ⟨s, -, rfl⟩ := Option.map_eq_some_iff.mp h
    exact .inr ⟨s, rfl⟩

theorem given_default : Given "var".toList :=
  .inr ⟨' ', rfl⟩

/-- What holds of all tags in the tables holds of every tag. -/
theorem Given.forall {P : Text → Prop} (h : ∀ entry ∈ table, P entry.2.toList)
    (hobj : P "obj".toList) (hsuffix : ∀ suffix, P (ofSuffix suffix)) {tag : Text}
    (htag : Given tag) : P tag := by
  rcases htag with ⟨name, rfl⟩ | ⟨suffix, rfl⟩
  · unfold ofType
    split
    · rename_i type tag hfind
      exact h _ (List.mem_of_find?_eq_some hfind)
    · exact hobj
  · exact hsuffix suffix

/-- A tag is made of two small letters or more. -/
theorem Given.small {tag : Text} (h : Given tag) :
    2 ≤ tag.length ∧ ∀ c ∈ tag, c ∈ "abcdefghijklmnopqrstuvwxyz".toList := by
  have hsmall : 2 ≤ tag.length ∧
      (tag.all fun c => "abcdefghijklmnopqrstuvwxyz".toList.contains c) = true := by
    refine Given.forall (P := fun tag => 2 ≤ tag.length ∧
      (tag.all fun c => "abcdefghijklmnopqrstuvwxyz".toList.contains c) = true)
      (by decide) (by decide) (fun suffix => ?_) h
    unfold ofSuffix
    split <;> decide
  exact ⟨hsmall.1, fun c hc => List.contains_iff_mem.mp (List.all_eq_true.mp hsmall.2 c hc)⟩

theorem Given.absent {tag : Text} (h : Given tag) : Absent tag := by
  have hsmall : Absent "abcdefghijklmnopqrstuvwxyz".toList := by decide
  exact fun c hc => hsmall c (h.small.2 c hc)

end TypeTag

namespace Name

/-- What holds of a character holds of its capital, and what holds of the characters of a text holds of
those of its lower case. -/
structure CaseKept (P : Char → Prop) : Prop where
  upper {c : Char} : P c → ∀ d ∈ Character.upper c, P d
  lowercase {t : Text} : (∀ c ∈ t, P c) → ∀ d ∈ Text.lowercase t, P d

namespace CaseKept

variable {P : Char → Prop} {tag w : Text} {ws : List Text}

theorem capitalize (hkept : CaseKept P) (h : ∀ c ∈ w, P c) : ∀ d ∈ capitalize w, P d := by
  cases w with
  | nil => exact h
  | cons c rest =>
    obtain ⟨hc, hrest⟩ := List.forall_mem_cons.mp h
    exact List.forall_mem_append.mpr ⟨hkept.upper hc, hkept.lowercase hrest⟩

theorem pascal (hkept : CaseKept P) (h : ∀ w ∈ ws, ∀ c ∈ w, P c) : ∀ d ∈ pascal ws, P d := by
  intro d hd
  obtain ⟨w, hw, hd⟩ := List.mem_flatMap.mp hd
  exact hkept.capitalize (h w hw) d hd

theorem camel (hkept : CaseKept P) (h : ∀ w ∈ ws, ∀ c ∈ w, P c) : ∀ d ∈ camel ws, P d := by
  cases ws with
  | nil => exact fun _ hd => absurd hd List.not_mem_nil
  | cons w ws =>
    obtain ⟨hw, hws⟩ := List.forall_mem_cons.mp h
    exact List.forall_mem_append.mpr ⟨hkept.lowercase hw, hkept.pascal hws⟩

theorem hungarian (hkept : CaseKept P) (htag : ∀ c ∈ tag, P c) (h : ∀ w ∈ ws, ∀ c ∈ w, P c) :
    ∀ d ∈ hungarian tag ws, P d := by
  rw [hungarian_eq]
  refine List.forall_mem_append.mpr ⟨htag, hkept.pascal fun w hw => ?_⟩
  exact h w (untagged_subset tag ws hw)

end CaseKept

/-- The conversions of a name do not bring in any character that is lower than the capitals. -/
theorem caseKept_of_low {p : Char → Bool}
    (hlow : ∀ {c}, p c = true → c.toNat < 0x41 ∧ c.toNat ≠ 0) : CaseKept (p · = false) where
  upper {c} hc d hd := by
    refine Bool.eq_false_iff.mpr fun hp => ?_
    obtain ⟨hlt, hpos⟩ := hlow hp
    rw [Character.eq_of_mem_upper hd hlt hpos, hc] at hp
    cases hp
  lowercase ht d hd := by
    refine Bool.eq_false_iff.mpr fun hp => ?_
    obtain ⟨hlt, hpos⟩ := hlow hp
    rw [ht d (Text.mem_of_mem_lowercase hd (Nat.lt_trans hlt (by decide)) hpos)] at hp
    cases hp

theorem caseKept_isSuffix : CaseKept (TypeSuffix.isSuffix · = false) :=
  caseKept_of_low TypeSuffix.toNat_of_isSuffix

theorem caseKept_isLineBreak : CaseKept (Text.isLineBreak · = false) :=
  caseKept_of_low fun hc => by rcases Text.isLineBreak_iff.mp hc with rfl | rfl <;> decide

end Name

end VbaWorkbench
