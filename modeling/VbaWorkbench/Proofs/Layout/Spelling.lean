import VbaWorkbench.Proofs.Layout.Chain

namespace VbaWorkbench

namespace Text

def smalls : List Char :=
  (List.range 26).map fun i => Char.ofNat (97 + i)

theorem toUpper_cases (c : Char) : c.toUpper = c ∨ c ∈ smalls := by
  unfold Char.toUpper
  split
  · rename_i h
    right
    have hlow : 97 ≤ c.toNat := h.1
    have hhigh : c.toNat ≤ 122 := h.2
    refine List.mem_map.mpr ⟨c.toNat - 97, by rw [List.mem_range]; omega, ?_⟩
    rw [Nat.add_sub_cancel' hlow, Char.ofNat_toNat]
  · exact .inl rfl

theorem toLower_toUpper (c : Char) : c.toUpper.toLower = c.toLower := by
  have hsmalls : smalls.all (fun c => c.toUpper.toLower == c.toLower) = true := by decide
  rcases toUpper_cases c with hc | hc
  · rw [hc]
  · exact eq_of_beq (List.all_eq_true.mp hsmalls c hc)

theorem toUpper_caseBlind : CaseBlind Char.toUpper :=
  caseBlind_of_capitals (by decide)

@[simp] theorem lowerAscii_upperAscii (t : Text) : lowerAscii (upperAscii t) = lowerAscii t := by
  unfold lowerAscii upperAscii
  rw [List.map_map]
  exact List.map_congr_left fun c _ => toLower_toUpper c

theorem upperAscii_lowerAscii (t : Text) : upperAscii (lowerAscii t) = upperAscii t := by
  unfold lowerAscii upperAscii
  rw [List.map_map]
  exact List.map_congr_left fun c _ => toUpper_caseBlind c

end Text

theorem canonical?_of_lower_eq {word word' : Text}
    (h : Text.lowerAscii word' = Text.lowerAscii word) :
    Keyword.canonical? word' = Keyword.canonical? word := by
  have hsame : Text.sameAscii word' = Text.sameAscii word := by
    funext spelling
    rw [Text.sameAscii, Text.sameAscii, h]
  rw [Keyword.canonical?, Keyword.canonical?, hsame]

theorem lowerAscii_canonical {word spelling : Text} (h : Keyword.canonical? word = some spelling) :
    Text.lowerAscii spelling = Text.lowerAscii word := by
  unfold Keyword.canonical? at h
  have hsame : Text.sameAscii word spelling = true := List.find?_some h
  exact (beq_iff_eq.mp hsame).symm

/-- A style changes nothing but the case of letters. -/
@[simp] theorem KeywordStyle.lowerAscii_apply (style : KeywordStyle) (word : Text) :
    Text.lowerAscii (style.apply word) = Text.lowerAscii word := by
  cases style with
  | preserve => rfl
  | upper => exact Text.lowerAscii_upperAscii word
  | lower => exact Text.lowerAscii_lowerAscii word
  | title =>
    cases h : Keyword.canonical? word with
    | none => simp [apply, h]
    | some spelling =>
      simp only [apply, h, Option.getD_some]
      exact lowerAscii_canonical h

theorem KeywordStyle.apply_apply (style : KeywordStyle) (word : Text) :
    style.apply (style.apply word) = style.apply word := by
  have hlower := style.lowerAscii_apply word
  cases style with
  | preserve => rfl
  | upper =>
    have hupper := congrArg Text.upperAscii hlower
    rwa [Text.upperAscii_lowerAscii, Text.upperAscii_lowerAscii] at hupper
  | lower => exact hlower
  | title =>
    have hsame := canonical?_of_lower_eq hlower
    simp only [apply] at hsame ⊢
    rw [hsame]
    cases Keyword.canonical? word <;> rfl

namespace Layout

/-- The new spelling of a lexeme. -/
def recase (style : KeywordStyle) (member : Bool) (l : Lexeme) : Lexeme :=
  if l.kind = .keyword ∧ member = false then ⟨l.kind, style.apply l.text⟩ else l

/-- Whether what stands behind the lexeme is a member of something. -/
def memberAfter (member : Bool) (l : Lexeme) : Bool :=
  if l.kind = .whitespace ∨ l.kind = .lineContinuation then member
  else l.kind == .punctuation && (l.text == ['.'] || l.text == ['!'])

def recaseAll (style : KeywordStyle) (member : Bool) : List Lexeme → List Lexeme
  | [] => []
  | l :: ls => recase style member l :: recaseAll style (memberAfter member l) ls

/-- Without new names only the case of keywords changes. -/
theorem toLexeme_respellAll (options : LayoutOptions) (member : Bool) (tokens : List Token) :
    (respellAll options ⟨[]⟩ member tokens).map (·.toLexeme) =
      recaseAll options.keywordStyle member (tokens.map (·.toLexeme)) := by
  induction tokens generalizing member with
  | nil => rfl
  | cons t tokens ih =>
    have hhead : (respell options ⟨[]⟩ member t).toLexeme =
        recase options.keywordStyle member t.toLexeme := by
      obtain ⟨⟨kind, text⟩, start⟩ := t
      cases kind <;> cases member <;> rfl
    have hmember : memberAfter member t.toLexeme =
        if t.kind = .whitespace ∨ t.kind = .lineContinuation then member
        else t.isPunctuation '.' || t.isPunctuation '!' := by
      unfold memberAfter Token.isPunctuation
      split
      · rfl
      · cases t.kind == .punctuation <;> simp
    rw [respellAll, List.map_cons, List.map_cons, recaseAll, ih, hhead, hmember]

theorem lower_recaseAll (style : KeywordStyle) (member : Bool) (ls : List Lexeme) :
    (recaseAll style member ls).map Lexeme.lower = ls.map Lexeme.lower := by
  induction ls generalizing member with
  | nil => rfl
  | cons l ls ih =>
    have hhead : (recase style member l).lower = l.lower := by
      unfold recase
      split
      · simp [Lexeme.lower]
      · rfl
    rw [recaseAll, List.map_cons, List.map_cons, ih, hhead]

theorem kinds_recaseAll (style : KeywordStyle) (member : Bool) (ls : List Lexeme) :
    (recaseAll style member ls).map (·.kind) = ls.map (·.kind) := by
  have hlower := congrArg (List.map (·.kind)) (lower_recaseAll style member ls)
  rw [List.map_map, List.map_map] at hlower
  exact hlower

end Layout
end VbaWorkbench
