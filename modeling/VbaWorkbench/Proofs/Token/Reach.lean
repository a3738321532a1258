import VbaWorkbench.Token.Shape

namespace VbaWorkbench

namespace Text

/-- A blank or a line break. No word, number or operator goes on beyond one. -/
def isEdge (c : Char) : Bool :=
  isBlank c || isLineBreak c

theorem isEdge_cases {c : Char} (h : isEdge c = true) :
    c = ' ' ∨ c = '\t' ∨ c = '\n' ∨ c = '\r' := by
  simpa [isEdge, isBlank, isLineBreak, or_assoc] using h

theorem isEdge_of_isLineBreak {c : Char} (h : isLineBreak c = true) : isEdge c = true := by
  simp [isEdge, h]

end Text

namespace Reach

/-- The reader counts characters of the text alone, and does not go on beyond a character that
satisfies `p`. -/
structure StopsAt (p : Char → Bool) (r : Reach) : Prop where
  bound : ∀ t, r t ≤ t.length
  stops : ∀ t u, u.head?.all p = true → r (t ++ u) = r t

/-- The next character does not belong to the lexeme. -/
def Refuses (p q : Char → Bool) : Prop :=
  ∀ c, p c = true → q c = false

theorem refuses_edges {q : Char → Bool} (hb : q ' ' = false) (ht : q '\t' = false)
    (hn : q '\n' = false) (hr : q '\r' = false) : Refuses Text.isEdge q := by
  intro c hc
  rcases Text.isEdge_cases hc with rfl | rfl | rfl | rfl
  · exact hb
  · exact ht
  · exact hn
  · exact hr

variable {p q : Char → Bool}

theorem many_le (q : Char → Bool) (t : Text) : many q t ≤ t.length :=
  (List.takeWhile_sublist q).length_le

theorem many_stopsAt (h : Refuses p q) : (many q).StopsAt p where
  bound := many_le q
  stops t u hu := by
    unfold many
    induction t with
    | nil =>
      cases u with
      | nil => rfl
      | cons d u => simp [h d (by simpa using hu)]
    | cons c t ih =>
      simp only [List.cons_append, List.takeWhile_cons]
      split
      · simp [ih]
      · rfl

/-- A maximal run of such characters. -/
theorem many_eq_length {t u : Text} :
    many q (t ++ u) = t.length ↔ (∀ c ∈ t, q c = true) ∧ u.head?.all (fun d => !q d) = true := by
  unfold many
  induction t with
  | nil => cases u <;> simp [List.takeWhile_cons]
  | cons c t ih =>
    rw [List.cons_append, List.takeWhile_cons]
    split
    · rename_i hc
      simpa [hc] using ih
    · rename_i hc
      simp [hc]

theorem optional_stopsAt (h : Refuses p q) : (optional q).StopsAt p where
  bound t := by
    cases t with
    | nil => exact Nat.le_refl 0
    | cons c t =>
      simp only [optional, List.length_cons]
      split <;> simp
  stops t u hu := by
    cases t with
    | nil =>
      cases u with
      | nil => rfl
      | cons d u => simp [optional, h d (by simpa using hu)]
    | cons c t => rfl

theorem inTurn_nil_stopsAt : (inTurn []).StopsAt p where
  bound _ := Nat.zero_le _
  stops _ _ _ := rfl

theorem inTurn_cons_stopsAt {r : Reach} {rs : List Reach} (h : r.StopsAt p)
    (hs : (inTurn rs).StopsAt p) : (inTurn (r :: rs)).StopsAt p where
  bound t := by
    have hr := h.bound t
    have hrs := hs.bound (t.drop (r t))
    rw [List.length_drop] at hrs
    unfold inTurn
    omega
  stops t u hu := by
    have hr := h.bound t
    unfold inTurn
    rw [h.stops t u hu, List.drop_append_of_le_length hr, hs.stops _ u hu]

theorem led_stopsAt {r : Reach} (h : Refuses p q) (hr : r.StopsAt p) : (led q r).StopsAt p where
  bound t := by
    cases t with
    | nil => exact Nat.le_refl 0
    | cons c t =>
      have := hr.bound t
      simp only [led, List.length_cons]
      split
      · simpa using this
      · simp
  stops t u hu := by
    cases t with
    | nil =>
      cases u with
      | nil => rfl
      | cons d u => simp [led, h d (by simpa using hu)]
    | cons c t => simp [led, hr.stops t u hu]

theorem digits_stopsAt : digits.StopsAt Text.isEdge :=
  many_stopsAt (refuses_edges rfl rfl rfl rfl)

theorem exponent_stopsAt : exponent.StopsAt Text.isEdge :=
  led_stopsAt (refuses_edges rfl rfl rfl rfl)
    (inTurn_cons_stopsAt (optional_stopsAt (refuses_edges rfl rfl rfl rfl))
      (inTurn_cons_stopsAt digits_stopsAt inTurn_nil_stopsAt))

theorem numberSuffix_stopsAt : numberSuffix.StopsAt Text.isEdge :=
  optional_stopsAt (refuses_edges rfl rfl rfl rfl)

theorem fraction_stopsAt : fraction.StopsAt Text.isEdge :=
  inTurn_cons_stopsAt digits_stopsAt
    (inTurn_cons_stopsAt exponent_stopsAt
      (inTurn_cons_stopsAt numberSuffix_stopsAt inTurn_nil_stopsAt))

theorem decimal_stopsAt : decimal.StopsAt Text.isEdge :=
  inTurn_cons_stopsAt digits_stopsAt
    (inTurn_cons_stopsAt (led_stopsAt (refuses_edges rfl rfl rfl rfl) digits_stopsAt)
      (inTurn_cons_stopsAt exponent_stopsAt
        (inTurn_cons_stopsAt numberSuffix_stopsAt inTurn_nil_stopsAt)))

theorem name_stopsAt : name.StopsAt Text.isEdge :=
  inTurn_cons_stopsAt (many_stopsAt (refuses_edges rfl rfl rfl rfl))
    (inTurn_cons_stopsAt (optional_stopsAt (refuses_edges rfl rfl rfl rfl)) inTurn_nil_stopsAt)

/-- A base and the digits and size after it. -/
theorem based_stopsAt : based.StopsAt Text.isEdge := by
  have hsize : (optional fun d => d ∈ ['%', '&', '^']).StopsAt Text.isEdge :=
    optional_stopsAt (refuses_edges rfl rfl rfl rfl)
  have hhex := inTurn_cons_stopsAt
    (many_stopsAt (refuses_edges (q := isHexDigit) rfl rfl rfl rfl))
    (inTurn_cons_stopsAt hsize inTurn_nil_stopsAt)
  have hoct := inTurn_cons_stopsAt
    (many_stopsAt (refuses_edges (q := isOctalDigit) rfl rfl rfl rfl))
    (inTurn_cons_stopsAt hsize inTurn_nil_stopsAt)
  constructor
  · intro t
    cases t with
    | nil => exact Nat.le_refl 0
    | cons c t =>
      have h := hhex.bound t
      have o := hoct.bound t
      unfold based
      simp only [List.length_cons]
      split
      · omega
      · split
        · omega
        · exact Nat.zero_le _
  · intro t u hu
    cases t with
    | nil =>
      cases u with
      | nil => rfl
      | cons d u =>
        rcases Text.isEdge_cases (by simpa using hu) with rfl | rfl | rfl | rfl <;> rfl
    | cons c t =>
      unfold based
      simp only [List.cons_append, hhex.stops t u hu, hoct.stops t u hu]

theorem quoted_cons_of_not_doubled {c : Char} {t : Text} (h : ¬(c = '"' ∧ t.head? = some '"')) :
    quoted (c :: t) =
      if c = '"' then 1 else if Text.isLineBreak c then 0 else quoted t + 1 := by
  rw [quoted]
  rintro t' rfl rfl
  exact h ⟨rfl, rfl⟩

theorem quoted_append_cons {c : Char} {t u : Text} (hu : u.head? ≠ some '"')
    (hd : ∀ t', c = '"' → t = '"' :: t' → False) :
    quoted (c :: t ++ u) =
      if c = '"' then 1 else if Text.isLineBreak c then 0 else quoted (t ++ u) + 1 := by
  apply quoted_cons_of_not_doubled
  rintro ⟨rfl, he⟩
  cases t with
  | nil => exact hu he
  | cons d t => exact hd t rfl (by simpa using he)

/-- The inside of a literal does not go on beyond the line. -/
theorem quoted_stopsAt : quoted.StopsAt Text.isLineBreak where
  bound t := by
    fun_induction quoted t with
    | case1 => exact Nat.le_refl 0
    | case2 t ih => simpa using ih
    | case3 t _ => simp
    | case4 c t _ _ => simp
    | case5 c t _ _ _ ih => simpa using ih
  stops t u hu := by
    have hne : u.head? ≠ some '"' := by
      intro he
      simp [he, Text.isLineBreak] at hu
    fun_induction quoted t with
    | case1 =>
      cases u with
      | nil => rfl
      | cons d u =>
        have hq : d ≠ '"' := by simpa using hne
        have hb : Text.isLineBreak d = true := by simpa using hu
        rw [List.nil_append, quoted_cons_of_not_doubled (fun h => hq h.1), if_neg hq, if_pos hb]
    | case2 t ih => rw [List.cons_append, List.cons_append, quoted, ih]
    | case3 t hd => rw [quoted_append_cons hne hd, if_pos rfl]
    | case4 c t hd hc hb => rw [quoted_append_cons hne hd, if_neg hc, if_pos hb]
    | case5 c t hd hc hb ih => rw [quoted_append_cons hne hd, if_neg hc, if_neg hb, ih]

theorem lineBreak_cons (c : Char) (t : Text) :
    lineBreak (c :: t) =
      if c = '\r' ∧ t.head? = some '\n' then 2 else if Text.isLineBreak c then 1 else 0 := by
  by_cases h : c = '\r' ∧ t.head? = some '\n'
  · rw [if_pos h]
    obtain ⟨rfl, ht⟩ := h
    obtain ⟨more, rfl⟩ := List.head?_eq_some_iff.mp ht
    rfl
  · rw [if_neg h, lineBreak]
    rintro more rfl rfl
    exact h ⟨rfl, rfl⟩

theorem lineBreak_le (t : Text) : lineBreak t ≤ t.length := by
  unfold lineBreak
  split
  · simp
  · split <;> simp
  · simp

theorem quoted_quote_ne_zero (t : Text) : quoted ('"' :: t) ≠ 0 := by
  by_cases h : t.head? = some '"'
  · cases t with
    | nil => simp at h
    | cons c t =>
      obtain rfl : c = '"' := by simpa using h
      simp [quoted]
  · rw [quoted_cons_of_not_doubled fun hd => h hd.2, if_pos rfl]
    exact Nat.one_ne_zero

theorem quoted_next_ne {t rest : Text} {d : Char} (hq : quoted (t ++ d :: rest) = t.length) :
    d ≠ '"' := by
  rintro rfl
  fun_induction quoted t with
  | case1 => exact quoted_quote_ne_zero rest hq
  | case2 t ih =>
    simp only [List.cons_append, quoted, List.length_cons, Nat.add_right_cancel_iff] at hq
    exact ih hq
  | case3 t hn =>
    cases t with
    | nil => simp [quoted] at hq
    | cons e t =>
      have he : e ≠ '"' := fun he => hn t rfl (he ▸ rfl)
      rw [List.cons_append, quoted_cons_of_not_doubled (by simp [he]), if_pos rfl] at hq
      simp at hq
  | case4 c t hn hc hb =>
    rw [List.cons_append, quoted_cons_of_not_doubled (by simp [hc]), if_neg hc, if_pos hb] at hq
    simp at hq
  | case5 c t hn hc hb ih =>
    rw [List.cons_append, quoted_cons_of_not_doubled (by simp [hc]), if_neg hc, if_neg hb] at hq
    exact ih (by simpa using hq)

/-- A literal that another character of its line follows is closed, so it ends there whatever
follows it, but for a quote. -/
theorem quoted_closed {t u : Text} {d : Char} {rest : Text} (hd : Text.isLineBreak d = false)
    (hq : quoted (t ++ d :: rest) = t.length) (hu : u.head? ≠ some '"') :
    quoted (t ++ u) = t.length := by
  fun_induction quoted t with
  | case1 =>
    have hne : d ≠ '"' := quoted_next_ne hq
    rw [List.nil_append, quoted_cons_of_not_doubled (by simp [hne]), if_neg hne, hd] at hq
    cases hq
  | case2 t ih =>
    simp only [List.cons_append, quoted, List.length_cons, Nat.add_right_cancel_iff] at hq ⊢
    exact ih hq
  | case3 t hn =>
    cases t with
    | nil => rw [quoted_append_cons hu hn, if_pos rfl, List.length_singleton]
    | cons e t =>
      have he : e ≠ '"' := fun he => hn t rfl (he ▸ rfl)
      rw [List.cons_append, quoted_cons_of_not_doubled (by simp [he]), if_pos rfl] at hq
      simp at hq
  | case4 c t hn hc hb =>
    rw [List.cons_append, quoted_cons_of_not_doubled (by simp [hc]), if_neg hc, if_pos hb] at hq
    simp at hq
  | case5 c t hn hc hb ih =>
    rw [List.cons_append, quoted_cons_of_not_doubled (by simp [hc]), if_neg hc, if_neg hb] at hq ⊢
    rw [ih (by simpa using hq), List.length_cons]

end Reach
end VbaWorkbench
