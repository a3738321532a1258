import VbaWorkbench.Proofs.Pattern.EscapeReach

namespace VbaWorkbench.Pattern

/-- A group or an escape begins here. -/
def Opens (t : Text) : Prop :=
  t.head? = some '(' ∨ t.head? = some '\\'

theorem Opens.exists_cons {t : Text} (h : Opens t) :
    ∃ c rest, t = c :: rest ∧ (c = '(' ∨ c = '\\') := by
  cases t with
  | nil => rcases h with h | h <;> cases h
  | cons c rest => exact ⟨c, rest, rfl, h.imp Option.some.inj Option.some.inj⟩

/-- No reader that takes `n` characters can tell the texts apart. They are the same, or they agree
in the first `n` characters at least and go on with the beginning of a group or an escape. -/
def Alike (n : Nat) (s t : Text) : Prop :=
  s = t ∨ ∃ u x y, s = u ++ x ∧ t = u ++ y ∧ n ≤ u.length ∧ Opens x ∧ Opens y

/-- A character that begins neither a group nor an escape. -/
def IsInner (c : Char) : Prop :=
  c ≠ '(' ∧ c ≠ '\\'

namespace Alike

variable {n k : Nat} {c : Char} {s t : Text}

theorem refl (n : Nat) (t : Text) : Alike n t t :=
  .inl rfl

theorem mono (h : Alike n s t) (hk : k ≤ n) : Alike k s t := by
  rcases h with rfl | ⟨u, x, y, rfl, rfl, hn, hx, hy⟩
  · exact refl k s
  · exact .inr ⟨u, x, y, rfl, rfl, Nat.le_trans hk hn, hx, hy⟩

theorem nil (h : Alike n [] t) : t = [] := by
  rcases h with rfl | ⟨u, x, y, hs, rfl, hn, hx, hy⟩
  · rfl
  · obtain ⟨d, rest, rfl, -⟩ := hx.exists_cons
    simp at hs

theorem cons (h : Alike (n + 1) (c :: s) t) : ∃ t', t = c :: t' ∧ Alike n s t' := by
  rcases h with rfl | ⟨u, x, y, hs, rfl, hn, hx, hy⟩
  · exact ⟨s, rfl, refl n s⟩
  · cases u with
    | nil => cases hn
    | cons d u =>
      obtain ⟨rfl, rfl⟩ := List.cons.inj hs
      exact ⟨u ++ y, rfl, .inr ⟨u, x, y, rfl, rfl, Nat.le_of_succ_le_succ hn, hx, hy⟩⟩

/-- An inner character is the same in both texts even if no reader takes it. -/
theorem inner (h : Alike 0 (c :: s) t) (hc : IsInner c) : ∃ t', t = c :: t' ∧ Alike 0 s t' := by
  rcases h with rfl | ⟨u, x, y, hs, rfl, hn, hx, hy⟩
  · exact ⟨s, rfl, refl 0 s⟩
  · cases u with
    | nil =>
      obtain ⟨d, rest, rfl, hd⟩ := hx.exists_cons
      obtain ⟨rfl, -⟩ := List.cons.inj hs
      exact absurd hd (not_or.mpr hc)
    | cons d u =>
      obtain ⟨rfl, rfl⟩ := List.cons.inj hs
      exact ⟨u ++ y, rfl, .inr ⟨u, x, y, rfl, rfl, Nat.zero_le _, hx, hy⟩⟩

theorem symm (h : Alike n s t) : Alike n t s := by
  rcases h with rfl | ⟨u, x, y, rfl, rfl, hn, hx, hy⟩
  · exact refl n s
  · exact .inr ⟨u, y, x, rfl, rfl, hn, hy, hx⟩

theorem head_iff (h : Alike 0 s t) (hc : IsInner c) : t.head? = some c ↔ s.head? = some c := by
  have hhead : ∀ {s t : Text}, Alike 0 s t → s.head? = some c → t.head? = some c := by
    intro s t h hs
    cases s with
    | nil => cases hs
    | cons d s =>
      obtain rfl : d = c := Option.some.inj hs
      obtain ⟨t', rfl, -⟩ := h.inner hc
      rfl
  exact ⟨hhead h.symm, hhead h⟩

theorem drop (h : Alike (k + n) s t) : Alike n (s.drop k) (t.drop k) := by
  rcases h with rfl | ⟨u, x, y, rfl, rfl, hn, hx, hy⟩
  · exact refl n _
  · have hk : k ≤ u.length := by omega
    rw [List.drop_append_of_le_length hk, List.drop_append_of_le_length hk]
    exact .inr ⟨u.drop k, x, y, rfl, rfl, by rw [List.length_drop]; omega, hx, hy⟩

/-- A run of inner characters is the same in both texts, and so is what comes after it. -/
theorem run {p : Char → Bool} (h : Alike 0 s t) (hp : ∀ c, p c = true → IsInner c) :
    t.takeWhile p = s.takeWhile p ∧
      Alike 0 (s.drop (s.takeWhile p).length) (t.drop (s.takeWhile p).length) := by
  induction s generalizing t with
  | nil =>
    rw [h.nil]
    exact ⟨rfl, refl 0 _⟩
  | cons c s ih =>
    by_cases hc : p c = true
    · obtain ⟨t', rfl, h'⟩ := h.inner (hp c hc)
      obtain ⟨hrun, hrest⟩ := ih h'
      rw [List.takeWhile_cons_of_pos hc, List.takeWhile_cons_of_pos hc, hrun]
      exact ⟨rfl, hrest⟩
    · rw [List.takeWhile_cons_of_neg hc]
      refine ⟨?_, h⟩
      cases t with
      | nil => rfl
      | cons d t =>
        refine List.takeWhile_cons_of_neg fun hd => hc ?_
        obtain ⟨s', hs, -⟩ := h.symm.inner (hp d hd)
        rwa [(List.cons.inj hs).1]

theorem takeWhile {p : Char → Bool} (h : Alike 0 s t) (hp : ∀ c, p c = true → IsInner c) :
    t.takeWhile p = s.takeWhile p :=
  (h.run hp).1

end Alike

theorem isInner_of_isDigit (c : Char) (h : c.isDigit = true) : IsInner c := by
  constructor
  all_goals
    rintro rfl
    cases h

theorem isInner_of_isOctalDigit (c : Char) (h : isOctalDigit c = true) : IsInner c := by
  constructor
  all_goals
    rintro rfl
    cases h

theorem isInner_of_isHexDigit (c : Char) (h : isHexDigit c = true) : IsInner c := by
  constructor
  all_goals
    rintro rfl
    cases h

theorem isInner_of_isAlpha (c : Char) (h : c.isAlpha = true) : IsInner c := by
  constructor
  all_goals
    rintro rfl
    cases h

section Escapes

variable {n k : Nat} {s t : Text}

theorem through_alike {close : Char} (h : through? close s = some n) (ha : Alike n s t) :
    through? close t = some n := by
  rcases ha with rfl | ⟨u, x, y, rfl, rfl, hn, -, -⟩
  · exact h
  · obtain ⟨i, hi, rfl⟩ := Option.map_eq_some_iff.mp h
    rw [List.findIdx?_append] at hi
    cases hu : u.findIdx? (· == close) with
    | some j =>
      rw [hu, Option.some_or] at hi
      rw [through?, List.findIdx?_append, hu, Option.some_or, hi]
      rfl
    | none =>
      rw [hu, Option.none_or] at hi
      obtain ⟨j, -, rfl⟩ := Option.map_eq_some_iff.mp hi
      omega

theorem octalRest_run (value room : Nat) (t : Text) :
    octalRest value room t = octalRest value room (t.takeWhile isOctalDigit) := by
  induction room generalizing value t with
  | zero => rfl
  | succ room ih =>
    cases t with
    | nil => rfl
    | cons c rest =>
      by_cases hc : isOctalDigit c = true
      · rw [List.takeWhile_cons_of_pos hc, octalRest, octalRest, ih]
      · rw [List.takeWhile_cons_of_neg hc, octalRest, if_neg fun h => hc h.1]
        rfl

theorem octal_alike (c : Char) (h : Alike 0 s t) : octal c t = octal c s := by
  rw [octal, octalRest_run, h.takeWhile isInner_of_isOctalDigit, ← octalRest_run]
  rfl

theorem le_length_takeWhile {p : Char → Bool} {width : Nat} (hlength : (t.take width).length = width)
    (hall : ∀ c ∈ t.take width, p c = true) : width ≤ (t.takeWhile p).length := by
  rw [← List.take_append_drop width t, List.takeWhile_append_of_pos hall, List.length_append,
    hlength]
  exact Nat.le_add_right width _

/-- Only the run of digits at the front decides what hexadecimal digits name. -/
theorem hexChar_run (width : Nat) (t : Text) :
    hexChar? width t = hexChar? width (t.takeWhile isHexDigit) := by
  rcases Nat.lt_or_ge (t.takeWhile isHexDigit).length width with hlt | hge
  · have hnone : ∀ u : Text, (u.takeWhile isHexDigit).length < width → hexChar? width u = none := by
      intro u hu
      refine if_neg fun h => ?_
      have := le_length_takeWhile h.1 (List.all_eq_true.mp h.2.1)
      omega
    have hrun := (List.takeWhile_sublist isHexDigit (l := t.takeWhile isHexDigit)).length_le
    rw [hnone t hlt, hnone _ (Nat.lt_of_le_of_lt hrun hlt)]
  · have htake : (t.takeWhile isHexDigit).take width = t.take width := by
      conv_rhs => rw [← List.takeWhile_append_dropWhile (p := isHexDigit) (l := t),
        List.take_append_of_le_length hge]
    rw [hexChar?, hexChar?, htake]

theorem hexChar_alike (width : Nat) (h : Alike 0 s t) : hexChar? width t = hexChar? width s := by
  rw [hexChar_run, h.takeWhile isInner_of_isHexDigit, ← hexChar_run]

theorem charEscape_alike (c : Char) (h : Alike 0 s t) : charEscape c t = charEscape c s := by
  unfold charEscape
  simp only [hexChar_alike _ h]
  split
  all_goals try rfl
  -- A control escape takes the next letter.
  cases s with
  | nil => rw [h.nil]
  | cons letter s =>
    by_cases hletter : letter.isAlpha = true
    · obtain ⟨t', rfl, -⟩ := h.inner (isInner_of_isAlpha letter hletter)
      rfl
    · cases t with
      | nil => rw [h.symm.nil]
      | cons letter' t =>
        have hletter' : ¬letter'.isAlpha = true := by
          intro halpha
          obtain ⟨s', hs, -⟩ := h.symm.inner (isInner_of_isAlpha letter' halpha)
          exact hletter ((List.cons.inj hs).1 ▸ halpha)
        simp only [if_neg hletter, if_neg hletter']

theorem isPropertyEscape_alike (c : Char) (h : Alike 0 s t) :
    isPropertyEscape c t = isPropertyEscape c s := by
  have hbrace : (t.head? == some '{') = (s.head? == some '{') := by
    rw [Bool.eq_iff_iff, beq_iff_eq, beq_iff_eq]
    exact h.head_iff ⟨by decide, by decide⟩
  rw [isPropertyEscape, isPropertyEscape, hbrace]

/-- The reach of an escape with a bracketed name, which goes to the end without the bracket. -/
def namedReach (close : Char) (rest : Text) : Nat :=
  ((through? close rest).getD rest.length) + 1

theorem namedReach_eq {c close : Char} (hc : c ≠ close) (rest : Text) :
    (through? close (c :: rest)).getD (c :: rest).length = namedReach close rest := by
  rw [namedReach]
  cases hrest : through? close rest with
  | some n => rw [through_cons hc hrest, Option.getD_some, Option.getD_some]
  | none =>
    have hnone : through? close (c :: rest) = none := by
      have hidx := Option.map_eq_none_iff.mp hrest
      simp [through?, List.findIdx?_cons, hc, hidx]
    rw [hnone, Option.getD_none, Option.getD_none, List.length_cons]

theorem escapeReach_cons (inClass : Bool) (c : Char) (rest : Text) :
    escapeReach inClass (c :: rest) =
      if isPropertyEscape c rest then namedReach '}' rest
      else if c = 'k' ∧ rest.head? = some '<' ∧ inClass = false then namedReach '>' rest
      else 1 := by
  by_cases hp : isPropertyEscape c rest = true
  · rw [if_pos hp]
    have hletter : c = 'p' ∨ c = 'P' := by
      simp only [isPropertyEscape, Bool.and_eq_true, Bool.or_eq_true, beq_iff_eq] at hp
      exact hp.1
    cases rest with
    | nil => simp [isPropertyEscape] at hp
    | cons d rest =>
      obtain rfl : d = '{' := by simpa [isPropertyEscape, hletter] using hp
      rcases hletter with rfl | rfl
      · exact namedReach_eq (by decide) _
      · exact namedReach_eq (by decide) _
  · rw [if_neg hp]
    by_cases hk : c = 'k' ∧ rest.head? = some '<' ∧ inClass = false
    · rw [if_pos hk]
      obtain ⟨rfl, hhead, rfl⟩ := hk
      cases rest with
      | nil => cases hhead
      | cons d rest =>
        obtain rfl : d = '<' := Option.some.inj hhead
        exact namedReach_eq (by decide) _
    · rw [if_neg hk]
      refine escapeReach_plain (by simpa using hp) ?_
      cases inClass with
      | true => exact .inl rfl
      | false => exact .inr fun h => hk ⟨h.1, h.2, rfl⟩

theorem namedReach_alike {close : Char} (h : Alike (namedReach close s) s t) :
    namedReach close t = namedReach close s := by
  cases hs : through? close s with
  | some n =>
    have ht : through? close t = some n := by
      refine through_alike hs (h.mono ?_)
      rw [namedReach, hs]
      exact Nat.le_succ n
    rw [namedReach, namedReach, hs, ht, Option.getD_some, Option.getD_some]
  | none =>
    -- A text without the bracket would have to be the other text.
    rcases h with rfl | ⟨u, x, y, rfl, rfl, hn, -, -⟩
    · rfl
    · rw [namedReach, hs, Option.getD_none, List.length_append] at hn
      omega

/-- An escape ends at the same place in both texts, if the reader goes on after it. -/
theorem escapeReach_alike {inClass : Bool} (h : Alike (escapeReach inClass s + 1) s t) :
    escapeReach inClass t = escapeReach inClass s := by
  cases s with
  | nil => rw [h.nil]
  | cons c s =>
    obtain ⟨t', rfl, hrest⟩ := h.cons
    have hhead := hrest.mono (Nat.zero_le _)
    rw [escapeReach_cons] at hrest
    simp only [escapeReach_cons, isPropertyEscape_alike c hhead,
      hhead.head_iff (c := '<') ⟨by decide, by decide⟩]
    split
    · rename_i hp
      rw [if_pos hp] at hrest
      exact namedReach_alike hrest
    · rename_i hp
      rw [if_neg hp] at hrest
      split
      · rename_i hk
        rw [if_pos hk] at hrest
        exact namedReach_alike hrest
      · rfl

end Escapes

section Groups

variable {n depth : Nat} {s t : Text}

theorem classItemsReach_pos (h : classItemsReach? s = some n) : 1 ≤ n := by
  cases s with
  | nil =>
    rw [classItemsReach?] at h
    cases h
  | cons c rest =>
    rw [classItemsReach?] at h
    split at h
    · exact Nat.le_of_eq (Option.some.inj h)
    · obtain ⟨m, -, rfl⟩ := Option.map_eq_some_iff.mp h
      exact Nat.le_add_left 1 _

theorem classItemsReach_cons {c : Char} (hc : c ≠ ']') (rest : Text) :
    classItemsReach? (c :: rest) =
      let skipped := if c = '\\' then escapeReach true rest else 0
      (classItemsReach? (rest.drop skipped)).map (· + skipped + 1) := by
  rw [classItemsReach?, if_neg hc]

/-- What is passed over at `c` is the same, if the reader goes on after it. -/
theorem skipped_alike {inClass : Bool} {c : Char} {k : Nat}
    (hk : (if c = '\\' then escapeReach inClass s else 0) = k) (h : Alike (k + 1) s t) :
    (if c = '\\' then escapeReach inClass t else 0) = k := by
  subst hk
  split
  · rename_i hc
    rw [if_pos hc] at h
    exact escapeReach_alike h
  · rfl

theorem classItemsReach_alike (h : classItemsReach? s = some n) (ha : Alike n s t) :
    classItemsReach? t = some n := by
  induction hs : s.length using Nat.strongRecOn generalizing s t n with
  | ind length ih =>
    cases s with
    | nil =>
      rw [classItemsReach?] at h
      cases h
    | cons c s =>
      by_cases hc : c = ']'
      · rw [classItemsReach?, if_pos hc] at h
        obtain rfl := Option.some.inj h
        obtain ⟨t', rfl, -⟩ := ha.cons
        rw [classItemsReach?, if_pos hc]
      · rw [classItemsReach_cons hc] at h
        dsimp only at h
        generalize hk : (if c = '\\' then escapeReach true s else 0) = k at h
        obtain ⟨m, hm, rfl⟩ := Option.map_eq_some_iff.mp h
        obtain ⟨t', rfl, hrest⟩ := ha.cons
        have hpos := classItemsReach_pos hm
        have hlength : (s.drop k).length < length := by
          rw [List.length_drop, ← hs, List.length_cons]
          omega
        have hrec := ih _ hlength hm (Alike.drop (hrest.mono (by omega))) rfl
        rw [classItemsReach_cons hc]
        simp only [skipped_alike hk (hrest.mono (by omega)), hrec, Option.map_some]

theorem classReach_of_head (h : t.head? ≠ some '^') : classReach? t = classItemsReach? t := by
  unfold classReach?
  split
  · exact absurd rfl h
  · rfl

theorem classReach_alike (h : classReach? s = some n) (ha : Alike n s t) :
    classReach? t = some n := by
  by_cases hs : s.head? = some '^'
  · obtain ⟨s, rfl⟩ := List.head?_eq_some_iff.mp hs
    obtain ⟨m, hm, rfl⟩ := Option.map_eq_some_iff.mp h
    obtain ⟨t', rfl, hrest⟩ := ha.cons
    rw [classReach?, classItemsReach_alike hm hrest, Option.map_some]
  · have ht : t.head? ≠ some '^' := fun hhead =>
      hs (((ha.mono (Nat.zero_le n)).head_iff ⟨by decide, by decide⟩).mp hhead)
    rw [classReach_of_head hs] at h
    rw [classReach_of_head ht]
    exact classItemsReach_alike h ha

/-- What is passed over at `c` inside a group. -/
def groupSkip? (c : Char) (rest : Text) : Option Nat :=
  if c = '\\' then some (escapeReach false rest)
  else if c = '[' then classReach? rest
  else some 0

theorem groupSkip_alike {c : Char} {k : Nat} (h : groupSkip? c s = some k)
    (ha : Alike (k + 1) s t) : groupSkip? c t = some k := by
  unfold groupSkip? at h ⊢
  split at h
  · rename_i hc
    obtain rfl := Option.some.inj h
    rw [if_pos hc, escapeReach_alike ha]
  · rename_i hc
    rw [if_neg hc]
    split at h
    · rename_i hclass
      rw [if_pos hclass]
      exact classReach_alike h (ha.mono (Nat.le_succ k))
    · rename_i hclass
      rw [if_neg hclass, h]

theorem groupReach_close (depth : Nat) (rest : Text) :
    groupReach? (depth + 1) (')' :: rest) = (groupReach? depth rest).map (· + 1) := by
  rw [groupReach?, if_pos rfl]

theorem groupReach_open (depth : Nat) (rest : Text) :
    groupReach? depth ('(' :: rest) = (groupReach? (depth + 1) rest).map (· + 1) := by
  rw [groupReach?.eq_def]
  rfl

theorem groupReach_other (depth : Nat) {c : Char} (hclose : c ≠ ')') (hopen : c ≠ '(')
    (rest : Text) :
    groupReach? depth (c :: rest) =
      (groupSkip? c rest).bind fun k => (groupReach? depth (rest.drop k)).map (· + k + 1) := by
  rw [groupReach?.eq_def]
  dsimp only
  rw [if_neg hclose, if_neg hopen, ← groupSkip?]
  cases groupSkip? c rest <;> rfl

theorem groupReach_pos (h : groupReach? depth s = some n) : 1 ≤ n := by
  cases s with
  | nil =>
    rw [groupReach?] at h
    cases h
  | cons c rest =>
    by_cases hclose : c = ')'
    · subst hclose
      cases depth with
      | zero =>
        rw [groupReach?, if_pos rfl] at h
        exact Nat.le_of_eq (Option.some.inj h)
      | succ depth =>
        rw [groupReach_close] at h
        obtain ⟨m, -, rfl⟩ := Option.map_eq_some_iff.mp h
        exact Nat.le_add_left 1 m
    by_cases hopen : c = '('
    · subst hopen
      rw [groupReach_open] at h
      obtain ⟨m, -, rfl⟩ := Option.map_eq_some_iff.mp h
      exact Nat.le_add_left 1 m
    · rw [groupReach_other depth hclose hopen] at h
      obtain ⟨k, -, h⟩ := Option.bind_eq_some_iff.mp h
      obtain ⟨m, -, rfl⟩ := Option.map_eq_some_iff.mp h
      exact Nat.le_add_left 1 _

theorem groupReach_alike (h : groupReach? depth s = some n) (ha : Alike n s t) :
    groupReach? depth t = some n := by
  induction hs : s.length using Nat.strongRecOn generalizing s t n depth with
  | ind length ih =>
    cases s with
    | nil =>
      rw [groupReach?] at h
      cases h
    | cons c s =>
      rw [List.length_cons] at hs
      by_cases hclose : c = ')'
      · subst hclose
        cases depth with
        | zero =>
          rw [groupReach?, if_pos rfl] at h
          obtain rfl := Option.some.inj h
          obtain ⟨t', rfl, -⟩ := ha.cons
          rw [groupReach?, if_pos rfl]
        | succ depth =>
          rw [groupReach_close] at h
          obtain ⟨m, hm, rfl⟩ := Option.map_eq_some_iff.mp h
          obtain ⟨t', rfl, hrest⟩ := ha.cons
          rw [groupReach_close, ih s.length (by omega) hm hrest rfl, Option.map_some]
      by_cases hopen : c = '('
      · subst hopen
        rw [groupReach_open] at h
        obtain ⟨m, hm, rfl⟩ := Option.map_eq_some_iff.mp h
        obtain ⟨t', rfl, hrest⟩ := ha.cons
        rw [groupReach_open, ih s.length (by omega) hm hrest rfl, Option.map_some]
      · rw [groupReach_other depth hclose hopen] at h
        obtain ⟨k, hk, h⟩ := Option.bind_eq_some_iff.mp h
        obtain ⟨m, hm, rfl⟩ := Option.map_eq_some_iff.mp h
        obtain ⟨t', rfl, hrest⟩ := ha.cons
        have hpos := groupReach_pos hm
        have hlength : (s.drop k).length < length := by
          rw [List.length_drop]
          omega
        have hrec := ih _ hlength hm (Alike.drop (hrest.mono (by omega))) rfl
        rw [groupReach_other depth hclose hopen, groupSkip_alike hk (hrest.mono (by omega)),
          Option.bind_some, hrec, Option.map_some]

end Groups

end VbaWorkbench.Pattern
