import VbaWorkbench.Proofs.Pattern.ParsedTree

namespace VbaWorkbench.Pattern

/-- The characters at which a reader stops that only looks for classes and for the beginnings of
groups. -/
def delimiters : List Char :=
  ['\\', '[', ']', '(']

/-- The next `n` characters are passed over one by one. -/
def Plain (n : Nat) (t : Text) : Prop :=
  ∀ c ∈ t.take n, c ∉ delimiters

theorem not_delimiter {p : Char → Bool} (h : delimiters.any p = false) {c : Char}
    (hc : p c = true) : c ∉ delimiters := by
  intro hm
  rw [List.any_eq_true.mpr ⟨c, hm, hc⟩] at h
  cases h

namespace Plain

variable {n k : Nat} {c : Char} {t : Text}

theorem zero (t : Text) : Plain 0 t := by
  simp [Plain]

theorem cons (hc : c ∉ delimiters) (h : Plain n t) : Plain (n + 1) (c :: t) := by
  intro d hd
  rcases List.mem_cons.mp hd with rfl | hd
  · exact hc
  · exact h d hd

theorem head (h : Plain (n + 1) (c :: t)) : c ∉ delimiters :=
  h c (by simp)

theorem tail (h : Plain (n + 1) (c :: t)) : Plain n t :=
  fun d hd => h d (by simp [hd])

theorem add (h : Plain n t) (hk : Plain k (t.drop n)) : Plain (n + k) t := by
  intro d hd
  rw [List.take_add] at hd
  rcases List.mem_append.mp hd with hd | hd
  · exact h d hd
  · exact hk d hd

theorem of_all {p : Char → Bool} (hp : delimiters.any p = false)
    (h : ∀ c ∈ t.take n, p c = true) : Plain n t :=
  fun c hc => not_delimiter hp (h c hc)

theorem takeWhile {p : Char → Bool} (hp : delimiters.any p = false) (t : Text) :
    Plain (t.takeWhile p).length t := by
  refine of_all hp fun c hc => ?_
  rw [← List.prefix_iff_eq_take.mp (List.takeWhile_prefix p)] at hc
  exact List.all_eq_true.mp List.all_takeWhile c hc

end Plain

section Escapes

theorem octalRest_plain (n room : Nat) (t : Text) : Plain (octalRest n room t).2 t := by
  induction room generalizing n t with
  | zero => exact .zero t
  | succ room ih =>
    cases t with
    | nil => exact .zero []
    | cons c rest =>
      simp only [octalRest]
      split
      · rename_i h
        exact .cons (not_delimiter (p := isOctalDigit) (by decide) h.1) (ih _ rest)
      · exact .zero _

theorem hexChar_plain {width : Nat} {t : Text} {d : Char} (h : hexChar? width t = some d) :
    Plain width t := by
  simp only [hexChar?] at h
  split at h
  · rename_i hd
    exact .of_all (p := isHexDigit) (by decide) (List.all_eq_true.mp hd.2.1)
  · cases h

/-- What an escape takes beyond its letter are digits and letters. -/
theorem charEscape_plain (c : Char) (rest : Text) : Plain (charEscape c rest).2 rest := by
  unfold charEscape
  split
  · exact .zero rest
  · exact .zero rest
  · exact .zero rest
  · exact .zero rest
  · exact .zero rest
  · dsimp only
    split
    · rename_i h
      exact hexChar_plain h
    · exact .zero rest
  · dsimp only
    split
    · rename_i h
      exact hexChar_plain h
    · exact .zero rest
  · cases rest with
    | nil => exact .zero []
    | cons letter rest =>
      dsimp only
      split
      · rename_i h
        exact .cons (not_delimiter (p := Char.isAlpha) (by decide) h) (.zero rest)
      · exact .zero _
  · exact .zero rest

end Escapes

section Escapes

variable {inClass : Bool} {c : Char} {rest : Text} {n : Nat}

theorem through_cons {close : Char} (hc : c ≠ close) (h : through? close rest = some n) :
    through? close (c :: rest) = some (n + 1) := by
  obtain ⟨k, hk, rfl⟩ := Option.map_eq_some_iff.mp h
  simp [through?, List.findIdx?_cons, hc, hk]

theorem escapeReach_property (hp : isPropertyEscape c rest = true)
    (h : through? '}' rest = some n) : escapeReach inClass (c :: rest) = n + 1 := by
  simp only [isPropertyEscape, Bool.and_eq_true, Bool.or_eq_true, beq_iff_eq] at hp
  obtain ⟨hc, hhead⟩ := hp
  cases rest with
  | nil => cases hhead
  | cons d rest =>
    obtain rfl : d = '{' := by simpa using hhead
    rcases hc with rfl | rfl
    · simp [escapeReach, through_cons (show 'p' ≠ '}' by decide) h]
    · simp [escapeReach, through_cons (show 'P' ≠ '}' by decide) h]

theorem escapeReach_named (hhead : rest.head? = some '<') (h : through? '>' rest = some n) :
    escapeReach false ('k' :: rest) = n + 1 := by
  cases rest with
  | nil => cases hhead
  | cons d rest =>
    obtain rfl : d = '<' := by simpa using hhead
    simp [escapeReach, through_cons (show 'k' ≠ '>' by decide) h]

/-- Other escapes are passed over with their letter alone. -/
theorem escapeReach_plain (hp : isPropertyEscape c rest = false)
    (hk : inClass = true ∨ ¬(c = 'k' ∧ rest.head? = some '<')) :
    escapeReach inClass (c :: rest) = 1 := by
  unfold escapeReach
  split
  · rename_i heq
    cases heq
    simp [isPropertyEscape] at hp
  · rename_i heq
    cases heq
    simp [isPropertyEscape] at hp
  · rename_i heq
    cases heq
    rcases hk with rfl | hk
    · rfl
    · simp at hk
  · rfl

/-- The letters of class escapes and anchors begin no escape with a bracketed name. -/
theorem isPropertyEscape_eq_false (h : c ∉ ['p', 'P', 'k']) (rest : Text) :
    isPropertyEscape c rest = false := by
  simp only [List.mem_cons, not_or] at h
  simp [isPropertyEscape, h.1, h.2.1]

theorem not_bracketed_of_classEscape {item : ClassItem} (h : classEscape? c = some item) :
    c ∉ ['p', 'P', 'k'] := by
  intro hm
  simp only [List.mem_cons, List.not_mem_nil, or_false] at hm
  rcases hm with rfl | rfl | rfl
  · cases h
  · cases h
  · cases h

end Escapes

section Classes

/-- Passing over `n` more characters leaves the end of a class where it is. -/
def Passes (n : Nat) (t : Text) : Prop :=
  classItemsReach? t = (classItemsReach? (t.drop n)).map (· + n)

theorem Passes.add {n k : Nat} {t : Text} (h : Passes n t) (hk : Passes k (t.drop n)) :
    Passes (n + k) t := by
  unfold Passes at *
  rw [h, hk, List.drop_drop, Option.map_map]
  congr 1
  funext i
  simp only [Function.comp_apply]
  omega

theorem passes_one {c : Char} (hend : c ≠ ']') (hc : c ≠ '\\') (rest : Text) :
    Passes 1 (c :: rest) := by
  unfold Passes
  rw [classItemsReach?, if_neg hend, if_neg hc]
  rfl

theorem Plain.passes {n : Nat} {t : Text} (h : Plain n t) : Passes n t := by
  induction n generalizing t with
  | zero => simp [Passes]
  | succ n ih =>
    cases t with
    | nil => simp [Passes, classItemsReach?]
    | cons c rest =>
      have hc := h.head
      simp only [delimiters, List.mem_cons, not_or] at hc
      rw [Nat.add_comm]
      exact (passes_one hc.2.2.1 hc.1 rest).add (ih h.tail)

theorem passes_escape (rest : Text) : Passes (escapeReach true rest + 1) ('\\' :: rest) := by
  unfold Passes
  rw [classItemsReach?, if_neg (by decide), if_pos rfl]
  rfl

variable {opening offset : Nat} {t : Text}

theorem readClassAtom_passes {r : Reading ClassAtom} (h : readClassAtom opening offset t = .ok r)
    (hend : t.head? ≠ some ']') : Passes r.length t ∧ 1 ≤ r.length := by
  unfold readClassAtom at h
  split at h
  · cases h
  · cases h
  · rename_i c rest
    have hpass := passes_escape (c :: rest)
    have hletter : ∀ n, isPropertyEscape c rest = false → Plain n rest →
        Passes (n + 2) ('\\' :: c :: rest) := by
      intro n hp hplain
      rw [escapeReach_plain hp (.inl rfl)] at hpass
      rw [Nat.add_comm]
      exact hpass.add hplain.passes
    split at h
    · rename_i item hitem
      cases h
      have hp := isPropertyEscape_eq_false (not_bracketed_of_classEscape hitem) rest
      exact ⟨hletter 0 hp (.zero rest), Nat.le_add_left _ _⟩
    split at h
    · rename_i hb
      subst hb
      cases h
      exact ⟨hletter 0 rfl (.zero rest), Nat.le_add_left _ _⟩
    split at h
    · rename_i hp
      obtain ⟨u, hu, rfl⟩ := ok_of_map h
      unfold readProperty at hu
      split at hu
      · rename_i n hn
        cases hu
        rw [escapeReach_property hp hn] at hpass
        exact ⟨hpass, Nat.le_add_left _ _⟩
      · cases hu
    · rename_i hp
      cases h
      have hplain : Plain (if isOctalDigit c then octal c rest else charEscape c rest).2 rest := by
        split
        · exact octalRest_plain _ _ rest
        · exact charEscape_plain c rest
      exact ⟨hletter _ (by simpa using hp) hplain, Nat.le_add_left _ _⟩
  · rename_i c rest hlone hescape
    cases h
    have hc : c ≠ '\\' := by
      rintro rfl
      cases rest with
      | nil => exact hlone rfl rfl
      | cons d rest => exact hescape d rest rfl rfl
    exact ⟨passes_one (by simpa using hend) hc rest, Nat.le_refl _⟩

theorem readClassPart_passes {r : Reading (List ClassItem)}
    (h : readClassPart opening offset t = .ok r) (hend : t.head? ≠ some ']') :
    Passes r.length t ∧ 1 ≤ r.length := by
  obtain ⟨first, hfirst, h⟩ := ok_of_bind h
  obtain ⟨hpass, hpos⟩ := readClassAtom_passes hfirst hend
  split at h
  · rename_i lo next rest hlo hdrop
    split at h
    · cases h
      exact ⟨hpass, hpos⟩
    · rename_i hnext
      obtain ⟨second, hsecond, h⟩ := ok_of_bind h
      have hlength : r.length = first.length + 1 + second.length := by
        dsimp only at h
        split at h
        · split at h
          · cases h
          · cases h
            rfl
        · cases h
          rfl
      have hdash : Passes (first.length + 1) t := by
        refine hpass.add ?_
        rw [hdrop]
        exact passes_one (by decide) (by decide) _
      have hbehind : t.drop (first.length + 1) = next :: rest := by
        rw [← List.drop_drop, hdrop]
        rfl
      obtain ⟨hpass', _⟩ := readClassAtom_passes hsecond (by simpa using hnext)
      exact ⟨hlength ▸ hdash.add (hbehind ▸ hpass'), by omega⟩
  · cases h
    exact ⟨hpass, hpos⟩

/-- A class ends where the scan for its end says. -/
theorem readClassItems_reach {r : Reading (List ClassItem)}
    (h : readClassItems opening offset t = .ok r) : classItemsReach? t = some r.length := by
  fun_induction readClassItems opening offset t generalizing r with
  | case1 => cases h
  | case2 offset rest =>
    cases h
    simp [classItemsReach?]
  | case3 => cases h
  | case4 offset c rest hc part hpart n offset' =>
    rename_i ih
    obtain ⟨more, hmore, rfl⟩ := ok_of_map h
    obtain ⟨hpass, hpos⟩ := readClassPart_passes hpart (by simpa using hc)
    have hn : part.length = part.length - 1 + 1 := by omega
    unfold Passes at hpass
    rw [hpass, hn, List.drop_succ_cons, ih hmore, Option.map_some, Nat.add_comm]

theorem readClass_reach {r : Reading CharClass} (h : readClass opening t = .ok r) :
    classReach? t = some r.length := by
  unfold readClass at h
  split at h
  · rename_i rest
    obtain ⟨items, hitems, rfl⟩ := ok_of_map h
    simp [classReach?, readClassItems_reach hitems]
  · rename_i hcaret
    obtain ⟨items, hitems, rfl⟩ := ok_of_map h
    have hreach : classReach? t = classItemsReach? t := by
      unfold classReach?
      split
      · rename_i rest
        exact absurd rfl (hcaret rest)
      · rfl
    rw [hreach, readClassItems_reach hitems]

end Classes

end VbaWorkbench.Pattern
