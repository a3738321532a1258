import VbaWorkbench.Proofs.Pattern.Rendering
import VbaWorkbench.Proofs.Pattern.Subtrees
import VbaWorkbench.Proofs.Text.Decimal

namespace VbaWorkbench.Pattern

section Characters

variable {c : Char}

/-- A character that means something is read from its escape. -/
theorem readEscape_meta (h : isMeta c = true) (offset : Nat) (rest : Text) :
    readEscape offset (c :: rest) = .ok ⟨.atom (.char c), [], 2⟩ := by
  simp only [isMeta, List.mem_cons, List.not_mem_nil, or_false, decide_eq_true_eq] at h
  rcases h with rfl | rfl | rfl | rfl | rfl | rfl | rfl | rfl | rfl | rfl | rfl | rfl | rfl | rfl
  all_goals rfl

theorem readSymbol_char (h : isMeta c = false) (offset : Nat) (rest : Text) :
    readSymbol offset c rest = .ok ⟨.atom (.char c), [], 1⟩ := by
  unfold readSymbol
  split
  all_goals first | rfl | cases h

end Characters

section Classes

variable (opening offset : Nat)

theorem readClassAtom_escaped (c : Char) (rest : Text) :
    readClassAtom opening offset (escaped isClassMeta c ++ rest) =
      .ok ⟨.char c, [], (escaped isClassMeta c).length⟩ := by
  unfold escaped
  split
  · rename_i h
    simp only [isClassMeta, List.mem_cons, List.not_mem_nil, or_false, decide_eq_true_eq] at h
    rcases h with rfl | rfl | rfl | rfl
    all_goals rfl
  · rename_i h
    rw [List.singleton_append, readClassAtom.eq_def]
    split
    · contradiction
    · rename_i heq
      cases heq
      exact absurd rfl h
    · rename_i heq
      cases heq
      exact absurd rfl h
    · rename_i heq
      cases heq
      rfl

/-- No escaped character ends its class or negates it. -/
theorem escaped_begins (c : Char) :
    ∃ d ds, escaped isClassMeta c = d :: ds ∧ d ≠ ']' ∧ d ≠ '^' := by
  unfold escaped
  split
  · exact ⟨'\\', [c], rfl, by decide, by decide⟩
  · rename_i h
    refine ⟨c, [], rfl, ?_, ?_⟩
    · rintro rfl
      exact h rfl
    · rintro rfl
      exact h rfl

theorem readClassPart_render {item : ClassItem} (h : item.Ordered) (rest : Text) :
    readClassPart opening offset (item.render ++ rest) =
      .ok ⟨[item], [], item.render.length⟩ := by
  cases item with
  | digit negated => cases negated <;> rfl
  | word negated => cases negated <;> rfl
  | space negated => cases negated <;> rfl
  | range first last =>
    have hfirst := readClassAtom_escaped opening offset first ('-' :: escaped isClassMeta last ++ rest)
    obtain ⟨d, ds, hlast, hend, -⟩ := escaped_begins last
    have hsecond := fun offset => readClassAtom_escaped opening offset last rest
    have hle : ¬last < first := Char.not_lt.mpr h
    rw [ClassItem.render, List.append_assoc, readClassPart, hfirst]
    simp only [hlast, List.cons_append] at hsecond ⊢
    simp only [bind, Except.bind, List.drop_left, if_neg hend, hsecond, if_neg hle]
    simp only [List.append_nil, List.length_append, List.length_cons, Except.ok.injEq,
      Reading.mk.injEq, true_and]
    omega

theorem item_begins (item : ClassItem) : ∃ d ds, item.render = d :: ds ∧ d ≠ ']' ∧ d ≠ '^' := by
  cases item with
  | range first last =>
    obtain ⟨d, ds, hfirst, hd⟩ := escaped_begins first
    exact ⟨d, ds ++ '-' :: escaped isClassMeta last, by rw [ClassItem.render, hfirst]; rfl, hd⟩
  | digit negated | word negated | space negated =>
    exact ⟨'\\', _, rfl, by decide, by decide⟩

theorem readClassItems_render {items : List ClassItem} (h : ∀ item ∈ items, item.Ordered)
    (rest : Text) :
    readClassItems opening offset (items.flatMap ClassItem.render ++ ']' :: rest) =
      .ok ⟨items, [], (items.flatMap ClassItem.render).length + 1⟩ := by
  induction items generalizing offset with
  | nil =>
    rw [List.flatMap_nil, List.nil_append, readClassItems, if_pos rfl]
    rfl
  | cons item items ih =>
    obtain ⟨hitem, hitems⟩ := List.forall_mem_cons.mp h
    have hpart := readClassPart_render opening offset hitem
      (items.flatMap ClassItem.render ++ ']' :: rest)
    obtain ⟨d, ds, hd, hend, -⟩ := item_begins item
    rw [List.flatMap_cons, List.append_assoc]
    simp only [hd, List.cons_append] at hpart ⊢
    rw [readClassItems, if_neg hend, hpart]
    simp only [List.length_cons, Nat.add_sub_cancel, List.drop_left, ih _ hitems]
    simp only [Except.map, List.nil_append, List.cons_append, List.append_nil, List.length_append,
      Except.ok.injEq, Reading.mk.injEq, true_and]
    omega

/-- A class is read from its text. -/
theorem readSymbol_class {cls : CharClass} (h : ∀ item ∈ cls.items, item.Ordered) (rest : Text) :
    ∃ cs, cls.render = '[' :: cs ∧ ∀ offset,
      readSymbol offset '[' (cs ++ rest) = .ok ⟨.atom (.charClass cls), [], cs.length + 1⟩ := by
  obtain ⟨negated, items⟩ := cls
  cases negated with
  | true =>
    refine ⟨'^' :: items.flatMap ClassItem.render ++ [']'], by simp [CharClass.render],
      fun opening => ?_⟩
    have hread := readClassItems_render opening (opening + 2) h rest
    simp [readSymbol, readClass, hread, Except.map]
  | false =>
    refine ⟨items.flatMap ClassItem.render ++ [']'], by simp [CharClass.render],
      fun opening => ?_⟩
    have hread := readClassItems_render opening (opening + 1) h rest
    -- A raw caret here would negate the class.
    have hcaret : (items.flatMap ClassItem.render ++ ']' :: rest).head? ≠ some '^' := by
      cases items with
      | nil => simp
      | cons item items =>
        obtain ⟨d, ds, hd, -, hcaret⟩ := item_begins item
        simpa [hd] using hcaret
    rw [List.append_assoc, List.singleton_append, readSymbol, readClass, hread]
    · simp [Except.map]
    · intro more heq
      simp [heq] at hcaret

end Classes

/-- A text before which a group has no mark and a quantifier no second one. -/
def Calm (t : Text) : Prop :=
  ∀ c ∈ t.head?, c ≠ '?' ∧ c ≠ '+'

section Quantifiers

theorem count_ofNat (offset : Nat) {n : Nat} (h : n ≤ maxCount) :
    count offset (Text.ofNat n) = .ok n := by
  simp only [count, Text.digitsValue_ofNat, if_pos h]

/-- Bounds are read from their text. -/
theorem braceBounds_render {bounds : Bounds} (h : bounds.Allowed) (offset : Nat) (rest : Text) :
    let high := (bounds.max.map Text.ofNat).getD []
    braceBounds? offset (Text.ofNat bounds.min ++ ',' :: high ++ '}' :: rest) =
      .ok (some ⟨bounds, [], (Text.ofNat bounds.min).length + high.length + 2⟩) := by
  intro high
  obtain ⟨min, max⟩ := bounds
  have hlow : (Text.ofNat min ++ ',' :: (high ++ '}' :: rest)).takeWhile Char.isDigit =
      Text.ofNat min :=
    Text.takeWhile_digits (fun _ => Text.isDigit_of_mem_ofNat) rfl _
  have hhigh : (high ++ '}' :: rest).takeWhile Char.isDigit = high := by
    refine Text.takeWhile_digits (fun d hd => ?_) rfl _
    cases max with
    | none => simp [high] at hd
    | some max => exact Text.isDigit_of_mem_ofNat (n := max) hd
  have hdrop : (Text.ofNat min ++ ',' :: (high ++ '}' :: rest)).drop
      ((Text.ofNat min).length + 1 + high.length) = '}' :: rest := by
    rw [Nat.add_assoc, ← List.drop_drop, List.drop_left, Nat.add_comm, List.drop_succ_cons,
      List.drop_left]
  have hmin := count_ofNat offset h.1
  rw [List.append_assoc, List.cons_append]
  simp only [braceBounds?, hlow, List.drop_left, hhigh, hdrop, hmin,
    List.isEmpty_eq_false_iff.mpr (Text.ofNat_ne_nil min)]
  cases max with
  | none => simp [high, bind, Except.bind]
  | some max =>
    obtain ⟨hle, hmax⟩ := h.2 max rfl
    have hne : (Text.ofNat max).isEmpty = false :=
      List.isEmpty_eq_false_iff.mpr (Text.ofNat_ne_nil max)
    have hcount := count_ofNat offset hmax
    have hlt : ¬max < min := Nat.not_lt.mpr hle
    simp [high, bind, Except.bind, hne, hcount, hlt]
    omega

theorem marked_render (bounds : Bounds) (greedy : Bool) (offset length : Nat) {rest : Text}
    (hrest : Calm rest) :
    marked offset bounds length ((if greedy then [] else ['?']) ++ rest) =
      ⟨.quantifier bounds.min bounds.max greedy, [], length + if greedy then 0 else 1⟩ := by
  cases greedy with
  | false => rfl
  | true =>
    simp only [if_true, List.nil_append, marked]
    split
    · exact absurd rfl (hrest '?' rfl).1
    · exact absurd rfl (hrest '+' rfl).2
    · rfl

/-- A quantifier is read from its text, unless more marks follow. -/
theorem readSymbol_bounds {min : Nat} {max : Option Nat} (h : (Bounds.mk min max).Allowed)
    (greedy : Bool) {rest : Text} (hrest : Calm rest) :
    ∃ cs, renderBounds min max greedy = '{' :: cs ∧ ∀ offset,
      readSymbol offset '{' (cs ++ rest) = .ok ⟨.quantifier min max greedy, [], cs.length + 1⟩ := by
  let low := Text.ofNat min
  let high := (max.map Text.ofNat).getD []
  let mark : Text := if greedy then [] else ['?']
  refine ⟨low ++ ',' :: high ++ '}' :: mark, by simp [renderBounds, low, high, mark],
    fun offset => ?_⟩
  have hbounds : braceBounds? offset (low ++ ',' :: high ++ '}' :: (mark ++ rest)) =
      .ok (some ⟨⟨min, max⟩, [], low.length + high.length + 2⟩) := braceBounds_render h offset _
  have hdrop : (low ++ ',' :: high ++ '}' :: (mark ++ rest)).drop (low.length + high.length + 2) =
      mark ++ rest := by
    have hlength : low.length + high.length + 2 = (low ++ ',' :: high).length + 1 := by
      simp only [List.length_append, List.length_cons]
      omega
    rw [hlength, ← List.drop_drop, List.drop_left, List.drop_succ_cons, List.drop_zero]
  have hmark : mark.length = if greedy then 0 else 1 := by
    cases greedy <;> rfl
  rw [List.append_assoc, List.cons_append]
  simp only [readSymbol, hbounds, Except.map, hdrop]
  rw [marked_render _ greedy offset _ hrest, ← hmark]
  simp only [List.length_append, List.length_cons]
  congr 2
  omega

end Quantifiers

section Groups

theorem groupHead_calm {rest : Text} (h : rest.head? ≠ some '?') :
    groupHead? rest = some (.opens .capturing) := by
  unfold groupHead?
  split
  all_goals first | rfl | exact absurd rfl h

theorem readSymbol_opening (kind : GroupKind) {rest : Text} (hrest : rest.head? ≠ some '?') :
    ∃ cs, kind.render = '(' :: cs ∧ ∀ offset,
      readSymbol offset '(' (cs ++ rest) = .ok ⟨.opening kind, [], cs.length + 1⟩ := by
  cases kind with
  | nonCapturing => exact ⟨_, rfl, fun _ => rfl⟩
  | lookahead negated => cases negated <;> exact ⟨_, rfl, fun _ => rfl⟩
  | capturing =>
    refine ⟨[], rfl, fun offset => ?_⟩
    simp only [readSymbol, readGroup, List.nil_append, groupHead_calm hrest]
    rfl

theorem mem_positive_digits {d : Char} (hlow : '1' ≤ d) (hhigh : d ≤ '9') :
    d ∈ ['1', '2', '3', '4', '5', '6', '7', '8', '9'] := by
  have hlow : 49 ≤ d.toNat := hlow
  have hhigh : d.toNat ≤ 57 := hhigh
  have hmem : d ∈ (List.range' 49 9).map Char.ofNat :=
    List.mem_map.mpr ⟨d.toNat, List.mem_range'_1.mpr (by omega), Char.ofNat_toNat d⟩
  exact hmem

/-- A number escape is read up to the first character that is no digit. -/
theorem readSymbol_number {n : Nat} (h : 1 ≤ n) (offset : Nat) {c : Char} (hc : c.isDigit = false)
    (rest : Text) :
    readSymbol offset '\\' (Text.ofNat n ++ c :: rest) =
      .ok ⟨.number (Text.ofNat n), [], (Text.ofNat n).length + 1⟩ := by
  obtain ⟨d, ds, hn, hlow, hhigh⟩ := Text.head_ofNat h
  have hdigits : (ds ++ c :: rest).takeWhile Char.isDigit = ds :=
    Text.takeWhile_digits (fun e he => Text.isDigit_of_mem_ofNat (n := n) (by simp [hn, he])) hc rest
  have hletter : ∀ d ∈ ['1', '2', '3', '4', '5', '6', '7', '8', '9'], ∀ t : Text,
      readEscape offset (d :: t) =
        .ok ⟨.number (d :: t.takeWhile Char.isDigit), [],
          (d :: t.takeWhile Char.isDigit).length + 1⟩ := by
    simp only [List.forall_mem_cons]
    exact ⟨fun _ => rfl, fun _ => rfl, fun _ => rfl, fun _ => rfl, fun _ => rfl, fun _ => rfl,
      fun _ => rfl, fun _ => rfl, fun _ => rfl, by simp⟩
  rw [hn, List.cons_append, readSymbol, hletter d (mem_positive_digits hlow hhigh), hdigits]

end Groups

end VbaWorkbench.Pattern
