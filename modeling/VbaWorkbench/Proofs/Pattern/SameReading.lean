import VbaWorkbench.Proofs.Pattern.Alike

namespace VbaWorkbench.Pattern

/-- The same is read with the same foreign constructs in it, wherever they stand. -/
structure Reading.Agrees {α : Type} (r r' : Reading α) : Prop where
  value : r'.value = r.value
  length : r'.length = r.length
  constructs : r'.warnings.map (·.construct) = r.warnings.map (·.construct)

/-- What is read agrees with `r`. -/
def Rereads {α : Type} (x : Except Malformed (Reading α)) (r : Reading α) : Prop :=
  ∃ r', x = .ok r' ∧ r.Agrees r'

section Classes

variable {opening opening' offset offset' : Nat} {s t : Text}

theorem Rereads.self {α : Type} (r : Reading α) : Rereads (.ok r) r :=
  ⟨r, rfl, rfl, rfl, rfl⟩

theorem Rereads.map {α β : Type} {x : Except Malformed (Reading α)} {r : Reading α}
    {f : Reading α → Reading β} (h : Rereads x r) (hf : ∀ r', r.Agrees r' → (f r).Agrees (f r')) :
    Rereads (x.map f) (f r) := by
  obtain ⟨r', rfl, hr⟩ := h
  exact ⟨f r', rfl, hf r' hr⟩

theorem readProperty_alike {r : Reading Unit} (h : readProperty offset s = .ok r)
    (ha : Alike (r.length - 2) s t) : Rereads (readProperty offset' t) r := by
  unfold readProperty at h
  split at h
  · rename_i n hn
    cases h
    rw [readProperty, through_alike hn ha]
    exact ⟨_, rfl, rfl, rfl, rfl⟩
  · cases h

theorem readClassAtom_alike {r : Reading ClassAtom} (h : readClassAtom opening offset s = .ok r)
    (ha : Alike r.length s t) : Rereads (readClassAtom opening' offset' t) r := by
  unfold readClassAtom at h
  split at h
  · cases h
  · cases h
  · rename_i c s
    have htake : 2 ≤ r.length → ∃ t', t = '\\' :: c :: t' ∧ Alike (r.length - 2) s t' := by
      intro hlength
      obtain ⟨n, hn⟩ := Nat.exists_eq_add_of_le' hlength
      rw [hn] at ha ⊢
      obtain ⟨t', rfl, hrest⟩ := ha.cons
      obtain ⟨t'', rfl, hbehind⟩ := hrest.cons
      exact ⟨t'', rfl, hbehind⟩
    split at h
    · rename_i item hitem
      cases h
      obtain ⟨t', rfl, -⟩ := htake (Nat.le_refl 2)
      simp only [readClassAtom, hitem]
      exact .self _
    rename_i hnone
    split at h
    · rename_i hb
      cases h
      obtain ⟨t', rfl, -⟩ := htake (Nat.le_refl 2)
      simp only [readClassAtom, hnone, if_pos hb]
      exact .self _
    rename_i hb
    split at h
    · rename_i hp
      obtain ⟨u, hu, rfl⟩ := ok_of_map h
      have hlength : 2 ≤ u.length := by
        unfold readProperty at hu
        split at hu
        · cases hu
          exact Nat.le_add_left 2 _
        · cases hu
      obtain ⟨t', rfl, hrest⟩ := htake hlength
      have hp' := isPropertyEscape_alike c (hrest.mono (Nat.zero_le _))
      simp only [readClassAtom, hnone, if_neg hb, hp', if_pos hp]
      exact (readProperty_alike hu hrest).map fun u' hu' => ⟨rfl, hu'.length, hu'.constructs⟩
    · rename_i hp
      cases h
      obtain ⟨t', rfl, hrest⟩ := htake (Nat.le_add_left 2 _)
      have hhead := hrest.mono (Nat.zero_le _)
      simp only [readClassAtom, hnone, if_neg hb, isPropertyEscape_alike c hhead, if_neg hp,
        octal_alike c hhead, charEscape_alike c hhead]
      exact .self _
  · rename_i c s hlone hescape
    cases h
    obtain ⟨t', rfl, hrest⟩ := ha.cons
    have hc : c ≠ '\\' := by
      rintro rfl
      cases s with
      | nil => exact hlone rfl rfl
      | cons d s => exact hescape d s rfl rfl
    unfold readClassAtom
    split
    · rename_i heq
      cases heq
    · rename_i heq
      cases heq
      exact absurd rfl hc
    · rename_i heq
      cases heq
      exact absurd rfl hc
    · rename_i heq
      cases heq
      exact .self _

theorem readClassAtom_pos {r : Reading ClassAtom} (h : readClassAtom opening offset s = .ok r)
    (hend : s.head? ≠ some ']') : 1 ≤ r.length :=
  (readClassAtom_passes h hend).2

/-- The place and the dash after it begin a range. -/
def Dashed (atom : ClassAtom) (t : Text) (lo next : Char) (rest : Text) : Prop :=
  atom = .char lo ∧ t = '-' :: next :: rest ∧ next ≠ ']'

theorem readClassPart_alone {first : Reading ClassAtom}
    (hfirst : readClassAtom opening offset t = .ok first)
    (halone : ∀ lo next rest, ¬Dashed first.value (t.drop first.length) lo next rest) :
    readClassPart opening offset t =
      .ok ⟨first.value.items, first.warnings, first.length⟩ := by
  change Except.bind _ _ = _
  rw [hfirst]
  dsimp only [Except.bind]
  split
  · rename_i lo next rest hlo hdrop
    rw [if_pos (not_not.mp fun hnext => halone lo next rest ⟨hlo, hdrop, hnext⟩)]
  · rfl

/-- What a range from `lo` to a place stands for, if they are in order. -/
def rangeItems? (lo : Char) : ClassAtom → Option (List ClassItem)
  | .char hi => if hi < lo then none else some [.range lo hi]
  | other => some (.range lo lo :: .range '-' '-' :: other.items)

theorem readClassPart_dashed {first second : Reading ClassAtom} {lo next : Char} {rest : Text}
    {items : List ClassItem} (hfirst : readClassAtom opening offset t = .ok first)
    (hdash : Dashed first.value (t.drop first.length) lo next rest)
    (hsecond : readClassAtom opening (offset + Text.byteLength (t.take (first.length + 1)))
      (next :: rest) = .ok second) (hitems : rangeItems? lo second.value = some items) :
    readClassPart opening offset t =
      .ok ⟨items, first.warnings ++ second.warnings, first.length + 1 + second.length⟩ := by
  obtain ⟨hlo, hdrop, hnext⟩ := hdash
  change Except.bind _ _ = _
  rw [hfirst]
  dsimp only [Except.bind]
  simp only [hlo, hdrop, if_neg hnext]
  change Except.bind _ _ = _
  rw [hsecond]
  dsimp only [Except.bind]
  cases hvalue : second.value with
  | char hi =>
    rw [hvalue, rangeItems?] at hitems
    split at hitems
    · cases hitems
    · rename_i hle
      cases hitems
      simp only [if_neg hle]
      rfl
  | item item =>
    rw [hvalue] at hitems
    cases hitems
    rfl
  | dropped =>
    rw [hvalue] at hitems
    cases hitems
    rfl

/-- A part of a class is one place or a range. -/
theorem readClassPart_cases {r : Reading (List ClassItem)}
    (h : readClassPart opening offset t = .ok r) :
    ∃ first, readClassAtom opening offset t = .ok first ∧
      (((∀ lo next rest, ¬Dashed first.value (t.drop first.length) lo next rest) ∧
          r = ⟨first.value.items, first.warnings, first.length⟩) ∨
        ∃ lo next rest second items, Dashed first.value (t.drop first.length) lo next rest ∧
          readClassAtom opening (offset + Text.byteLength (t.take (first.length + 1)))
            (next :: rest) = .ok second ∧
          rangeItems? lo second.value = some items ∧
          r = ⟨items, first.warnings ++ second.warnings, first.length + 1 + second.length⟩) := by
  obtain ⟨first, hfirst, h⟩ := ok_of_bind h
  refine ⟨first, hfirst, ?_⟩
  split at h
  · rename_i lo next rest hlo hdrop
    split at h
    · rename_i hnext
      cases h
      refine .inl ⟨?_, rfl⟩
      rintro lo' next' rest' ⟨-, hdrop', hnext'⟩
      rw [hdrop] at hdrop'
      cases hdrop'
      exact hnext' hnext
    · rename_i hnext
      obtain ⟨second, hsecond, h⟩ := ok_of_bind h
      refine .inr ⟨lo, next, rest, second, ?_⟩
      dsimp only at h
      split at h
      · rename_i hi hvalue
        split at h
        · cases h
        · rename_i hle
          cases h
          refine ⟨_, ⟨hlo, hdrop, hnext⟩, hsecond, ?_, rfl⟩
          rw [hvalue, rangeItems?, if_neg hle]
      · rename_i hvalue
        cases h
        refine ⟨_, ⟨hlo, hdrop, hnext⟩, hsecond, ?_, rfl⟩
        unfold rangeItems?
        split
        · rename_i hi heq
          exact absurd heq (hvalue hi)
        · rfl
  · rename_i hother
    cases h
    exact .inl ⟨fun lo next rest hd => hother lo next rest hd.1 hd.2.1, rfl⟩

/-- Whether a range begins here is the same in both texts. -/
theorem dashed_alike {atom : ClassAtom} {lo next : Char} {rest : Text} (ha : Alike 0 s t)
    (h : Dashed atom t lo next rest) : ∃ next' rest', Dashed atom s lo next' rest' := by
  obtain ⟨hlo, rfl, hnext⟩ := h
  obtain ⟨s', rfl, hrest⟩ := ha.symm.inner (c := '-') ⟨by decide, by decide⟩
  cases s' with
  | nil => cases hrest.symm.nil
  | cons next' rest' =>
    refine ⟨next', rest', hlo, rfl, ?_⟩
    rintro rfl
    obtain ⟨t', ht', -⟩ := hrest.symm.inner (c := ']') ⟨by decide, by decide⟩
    exact hnext (List.cons.inj ht').1

/-- What is read as a part of a class does not depend on what comes after it or on where it
stands. -/
theorem readClassPart_alike {r : Reading (List ClassItem)}
    (h : readClassPart opening offset s = .ok r) (ha : Alike r.length s t) :
    Rereads (readClassPart opening' offset' t) r := by
  obtain ⟨first, hfirst, ⟨halone, rfl⟩ | ⟨lo, next, rest, second, items, hdash, hsecond, hitems, rfl⟩⟩ :=
    readClassPart_cases h
  · have hread : Rereads (readClassAtom opening' offset' t) first := readClassAtom_alike hfirst ha
    obtain ⟨first', hfirst', hagree⟩ := hread
    have hrest : Alike 0 (s.drop first.length) (t.drop first.length) := Alike.drop ha
    refine ⟨_, readClassPart_alone hfirst' ?_, ?_, hagree.length, hagree.constructs⟩
    · intro lo next rest hdash
      rw [hagree.value, hagree.length] at hdash
      obtain ⟨next', rest', hdash'⟩ := dashed_alike hrest hdash
      exact halone lo next' rest' hdash'
    · exact congrArg ClassAtom.items hagree.value
  · have hread : Rereads (readClassAtom opening' offset' t) first :=
      readClassAtom_alike hfirst (ha.mono (by dsimp only; omega))
    obtain ⟨first', hfirst', hagree⟩ := hread
    obtain ⟨hlo, hdrop, hnext⟩ := hdash
    have hrest : Alike (1 + second.length) (s.drop first.length) (t.drop first.length) :=
      Alike.drop (ha.mono (by dsimp only; omega))
    rw [hdrop, Nat.add_comm] at hrest
    obtain ⟨t', ht', hbehind⟩ := hrest.cons
    obtain ⟨rest', rfl, -⟩ : ∃ rest', t' = next :: rest' ∧ Alike (second.length - 1) rest rest' := by
      obtain ⟨k, hk⟩ := Nat.exists_eq_add_of_le' (readClassAtom_pos hsecond (by simpa using hnext))
      rw [hk] at hbehind ⊢
      exact hbehind.cons
    have hreadSecond : Rereads (readClassAtom opening'
        (offset' + Text.byteLength (t.take (first'.length + 1))) (next :: rest')) second :=
      readClassAtom_alike hsecond hbehind
    obtain ⟨second', hsecond', hagree'⟩ := hreadSecond
    have hdash' : Dashed first'.value (t.drop first'.length) lo next rest' := by
      rw [hagree.value, hagree.length]
      exact ⟨hlo, ht', hnext⟩
    refine ⟨_, readClassPart_dashed hfirst' hdash' hsecond' (hagree'.value ▸ hitems), rfl, ?_, ?_⟩
    · dsimp only
      rw [hagree.length, hagree'.length]
    · dsimp only
      rw [List.map_append, List.map_append, hagree.constructs, hagree'.constructs]

theorem readClassItems_alike {r : Reading (List ClassItem)}
    (h : readClassItems opening offset s = .ok r) (ha : Alike r.length s t) :
    Rereads (readClassItems opening' offset' t) r := by
  fun_induction readClassItems opening offset s generalizing r t offset' with
  | case1 => cases h
  | case2 offset rest =>
    cases h
    obtain ⟨t', rfl, -⟩ := ha.cons
    rw [readClassItems, if_pos rfl]
    exact .self _
  | case3 => cases h
  | case4 =>
    rename_i offset c rest hc part hpart n after ih
    obtain ⟨more, hmore, rfl⟩ := ok_of_map h
    have hpos := (readClassPart_passes hpart (by simpa using hc)).2
    have hlength : part.length = n + 1 := by omega
    have htake : Alike (n + more.length + 1) (c :: rest) t := by
      rwa [Nat.add_right_comm]
    obtain ⟨t', rfl, hrest⟩ := htake.cons
    have hread : Rereads (readClassPart opening' offset' (c :: t')) part :=
      readClassPart_alike hpart (htake.mono (by omega))
    have hreadMore : Rereads (readClassItems opening'
        (offset' + Text.byteLength (c :: t'.take n)) (t'.drop n)) more := ih hmore hrest.drop
    obtain ⟨part', hpart', hagree⟩ := hread
    obtain ⟨more', hmore', hagree'⟩ := hreadMore
    have hn : part'.length - 1 = n := by rw [hagree.length]
    rw [readClassItems, if_neg hc, hpart']
    dsimp only
    rw [hn, hmore']
    refine ⟨_, rfl, ?_, ?_, ?_⟩
    · dsimp only
      rw [hagree.value, hagree'.value]
    · dsimp only
      rw [hagree'.length]
    · dsimp only
      rw [List.map_append, List.map_append, hagree.constructs, hagree'.constructs]

theorem readClass_alike {r : Reading CharClass} (h : readClass opening s = .ok r)
    (ha : Alike r.length s t) : Rereads (readClass opening' t) r := by
  by_cases hs : s.head? = some '^'
  · obtain ⟨s, rfl⟩ := List.head?_eq_some_iff.mp hs
    obtain ⟨items, hitems, rfl⟩ := ok_of_map h
    obtain ⟨t', rfl, hrest⟩ := ha.cons
    exact (readClassItems_alike hitems hrest).map fun items' hi =>
      ⟨congrArg (CharClass.mk true) hi.value, congrArg (· + 1) hi.length, hi.constructs⟩
  · have hplain : ∀ opening u, u.head? ≠ some '^' → readClass opening u =
        (readClassItems opening (opening + 1) u).map fun r =>
          ⟨⟨false, r.value⟩, r.warnings, r.length⟩ := by
      intro opening u hu
      unfold readClass
      split
      · exact absurd rfl hu
      · rfl
    have ht : t.head? ≠ some '^' := fun hhead =>
      hs (((ha.mono (Nat.zero_le _)).head_iff ⟨by decide, by decide⟩).mp hhead)
    rw [hplain opening s hs] at h
    rw [hplain opening' t ht]
    obtain ⟨items, hitems, rfl⟩ := ok_of_map h
    exact (readClassItems_alike hitems ha).map fun items' hi =>
      ⟨congrArg (CharClass.mk false) hi.value, hi.length, hi.constructs⟩

end Classes

section Quantifiers

variable {offset offset' : Nat} {s t : Text}

theorem count_ok {digits : Text} {n : Nat} (h : count offset digits = .ok n) :
    count offset' digits = .ok n := by
  simp only [count] at h ⊢
  split at h
  · rename_i hn
    rw [if_pos hn, h]
  · cases h

theorem marked_plain (bounds : Bounds) (length : Nat) (hlazy : t.head? ≠ some '?')
    (hplus : t.head? ≠ some '+') : marked offset bounds length t =
      ⟨.quantifier bounds.min bounds.max true, [], length⟩ := by
  unfold marked
  split
  · exact absurd rfl hlazy
  · exact absurd rfl hplus
  · rfl

/-- The mark after a quantifier is the same in both texts. -/
theorem marked_alike (bounds : Bounds) (length : Nat) (ha : Alike 0 s t) :
    (marked offset bounds length s).Agrees (marked offset' bounds length t) := by
  have hhead : ∀ {c : Char}, IsInner c → s.head? = some c → ∃ s' t', s = c :: s' ∧ t = c :: t' := by
    intro c hc hs
    obtain ⟨s', rfl⟩ := List.head?_eq_some_iff.mp hs
    obtain ⟨t', rfl, -⟩ := ha.inner hc
    exact ⟨s', t', rfl, rfl⟩
  by_cases hlazy : s.head? = some '?'
  · obtain ⟨s', t', rfl, rfl⟩ := hhead ⟨by decide, by decide⟩ hlazy
    exact ⟨rfl, rfl, rfl⟩
  by_cases hplus : s.head? = some '+'
  · obtain ⟨s', t', rfl, rfl⟩ := hhead ⟨by decide, by decide⟩ hplus
    exact ⟨rfl, rfl, rfl⟩
  have hlazy' := mt (ha.head_iff ⟨by decide, by decide⟩).mp hlazy
  have hplus' := mt (ha.head_iff ⟨by decide, by decide⟩).mp hplus
  rw [marked_plain bounds length hlazy hplus, marked_plain bounds length hlazy' hplus']
  exact ⟨rfl, rfl, rfl⟩

/-- The bounds that digits write, if a brace closes them. -/
def closedBounds? (offset : Nat) (low : Text) (high : Option Text) (n : Nat) (rest : Text) :
    Except Malformed (Option (Reading Bounds)) :=
  if low.isEmpty ∨ rest.head? ≠ some '}' then .ok none
  else do
    let min ← count offset low
    match high with
    | none => .ok (some ⟨⟨min, none⟩, [], n + 1⟩)
    | some high =>
      let max ← count offset high
      if max < min then .error ⟨offset, .countsOutOfOrder⟩
      else .ok (some ⟨⟨min, some max⟩, [], n + 1⟩)

theorem closedBounds_alike {low : Text} {high : Option Text} {n : Nat}
    {bounds : Option (Reading Bounds)} (h : closedBounds? offset low high n s = .ok bounds)
    (ha : Alike 0 s t) : closedBounds? offset' low high n t = .ok bounds := by
  have hbrace := ha.head_iff (c := '}') ⟨by decide, by decide⟩
  unfold closedBounds? at h ⊢
  simp only [ne_eq, hbrace]
  split at h
  · rename_i hnone
    rw [if_pos hnone, h]
  · rename_i hclosed
    rw [if_neg hclosed]
    obtain ⟨min, hmin, h⟩ := ok_of_bind h
    change Except.bind _ _ = _
    rw [count_ok hmin]
    cases high with
    | none => exact h
    | some high =>
      obtain ⟨max, hmax, h⟩ := ok_of_bind h
      change Except.bind (count offset' high) _ = _
      rw [count_ok hmax]
      dsimp only [Except.bind]
      split at h
      · cases h
      · rename_i hle
        rw [if_neg hle, h]

theorem braceBounds_comma {more : Text}
    (h : t.drop (t.takeWhile Char.isDigit).length = ',' :: more) :
    braceBounds? offset t =
      closedBounds? offset (t.takeWhile Char.isDigit)
        (if (more.takeWhile Char.isDigit).isEmpty then none else some (more.takeWhile Char.isDigit))
        ((t.takeWhile Char.isDigit).length + 1 + (more.takeWhile Char.isDigit).length)
        (more.drop (more.takeWhile Char.isDigit).length) := by
  have hdrop : more.drop (more.takeWhile Char.isDigit).length =
      t.drop ((t.takeWhile Char.isDigit).length + 1 + (more.takeWhile Char.isDigit).length) := by
    rw [← List.drop_drop, ← List.drop_drop, h]
    rfl
  rw [hdrop]
  simp only [braceBounds?, h]
  rfl

theorem braceBounds_single
    (h : (t.drop (t.takeWhile Char.isDigit).length).head? ≠ some ',') :
    braceBounds? offset t =
      closedBounds? offset (t.takeWhile Char.isDigit) (some (t.takeWhile Char.isDigit))
        (t.takeWhile Char.isDigit).length (t.drop (t.takeWhile Char.isDigit).length) := by
  unfold braceBounds?
  dsimp only
  split
  · rename_i hcomma
    rw [hcomma] at h
    exact absurd rfl h
  · rfl

/-- The bounds between braces are the same in both texts. -/
theorem braceBounds_alike {bounds : Option (Reading Bounds)}
    (h : braceBounds? offset s = .ok bounds) (ha : Alike 0 s t) :
    braceBounds? offset' t = .ok bounds := by
  obtain ⟨hlow, hafter⟩ := ha.run isInner_of_isDigit
  by_cases hcomma : (s.drop (s.takeWhile Char.isDigit).length).head? = some ','
  · obtain ⟨more, hmore⟩ := List.head?_eq_some_iff.mp hcomma
    rw [hmore] at hafter
    obtain ⟨more', hmore', hrest⟩ := hafter.inner ⟨by decide, by decide⟩
    obtain ⟨hhigh, hend⟩ := hrest.run isInner_of_isDigit
    rw [braceBounds_comma hmore] at h
    rw [← hlow] at hmore' h
    rw [braceBounds_comma hmore', hhigh]
    exact closedBounds_alike h hend
  · have hcomma' := mt (hafter.head_iff ⟨by decide, by decide⟩).mp hcomma
    rw [braceBounds_single hcomma] at h
    rw [← hlow] at hcomma' hafter h
    rw [braceBounds_single hcomma']
    exact closedBounds_alike h hafter

end Quantifiers

section Groups

variable {offset offset' : Nat} {s t : Text}

/-- The beginning of a group is decided by two characters and the brackets and signs after them. -/
theorem groupHead_second (c : Char) (t : Text) :
    groupHead? ('?' :: c :: t) =
      if c = ':' then some (.opens .nonCapturing)
      else if c = '=' then some (.opens (.lookahead false))
      else if c = '!' then some (.opens (.lookahead true))
      else if c = '<' then
        if t.head? = some '=' ∨ t.head? = some '!' then some (.foreign .lookbehind)
        else some (.foreign .namedGroup)
      else if c = 'P' ∧ t.head? = some '<' then some (.foreign .namedGroup)
      else if c = '>' then some (.foreign .atomicGroup)
      else if c.isAlpha || c == '-' then some (.foreign .inlineModifier)
      else none := by
  unfold groupHead?
  split
  all_goals simp_all [List.head?_eq_some_iff]

theorem groupHead_capturing :
    groupHead? t = some (.opens .capturing) ↔ t.head? ≠ some '?' := by
  constructor
  · rintro h hhead
    obtain ⟨t, rfl⟩ := List.head?_eq_some_iff.mp hhead
    cases t with
    | nil => cases h
    | cons c t =>
      rw [groupHead_second] at h
      split at h <;> grind
  · intro h
    unfold groupHead?
    split
    all_goals first | rfl | exact absurd rfl h

theorem groupHead_alike (ha : Alike 2 s t) : groupHead? t = groupHead? s := by
  cases s with
  | nil => rw [ha.nil]
  | cons c s =>
    obtain ⟨t', rfl, hrest⟩ := ha.cons
    by_cases hc : c = '?'
    · subst hc
      cases s with
      | nil => rw [hrest.nil]
      | cons d s =>
        obtain ⟨t'', rfl, hbehind⟩ := hrest.cons
        simp only [groupHead_second, hbehind.head_iff (c := '=') ⟨by decide, by decide⟩,
          hbehind.head_iff (c := '!') ⟨by decide, by decide⟩,
          hbehind.head_iff (c := '<') ⟨by decide, by decide⟩]
    · have hcapturing : ∀ u : Text, groupHead? (c :: u) = some (.opens .capturing) :=
        fun u => groupHead_capturing.mpr (by simpa using hc)
      rw [hcapturing, hcapturing]

theorem groupHead_opens_alike {kind : GroupKind} (h : groupHead? s = some (.opens kind))
    (ha : Alike kind.width s t) : groupHead? t = some (.opens kind) := by
  cases kind with
  | capturing =>
    rw [groupHead_capturing] at h ⊢
    exact mt (ha.head_iff ⟨by decide, by decide⟩).mp h
  | nonCapturing => rw [groupHead_alike ha, h]
  | lookahead negated => rw [groupHead_alike ha, h]

/-- A foreign group is longer than its question mark. -/
theorem two_le_groupReach {construct : ForeignConstruct} {n : Nat}
    (h : groupHead? s = some (.foreign construct)) (hn : groupReach? 0 s = some n) : 2 ≤ n := by
  have hmark : s.head? = some '?' := by
    refine not_not.mp fun hne => ?_
    rw [groupHead_capturing.mpr hne] at h
    cases h
  obtain ⟨s, rfl⟩ := List.head?_eq_some_iff.mp hmark
  rw [groupReach_other 0 (by decide) (by decide)] at hn
  obtain ⟨k, hk, hn⟩ := Option.bind_eq_some_iff.mp hn
  obtain ⟨m, hm, rfl⟩ := Option.map_eq_some_iff.mp hn
  have := groupReach_pos hm
  omega

theorem readGroup_alike {r : Reading Symbol} (h : readGroup offset s = .ok r)
    (ha : Alike (r.length - 1) s t) : Rereads (readGroup offset' t) r := by
  unfold readGroup at h
  split at h
  · cases h
  · rename_i kind hkind
    cases h
    rw [readGroup, groupHead_opens_alike hkind ha]
    exact .self _
  · rename_i construct hhead
    split at h
    · rename_i n hn
      cases h
      have htwo := two_le_groupReach hhead hn
      rw [readGroup, groupHead_alike (ha.mono htwo), hhead]
      dsimp only
      rw [groupReach_alike hn ha]
      exact ⟨_, rfl, rfl, rfl, rfl⟩
    · cases h

end Groups

section Symbols

variable {offset offset' : Nat} {s t : Text}

theorem readProperty_length {r : Reading Unit} (h : readProperty offset s = .ok r) :
    2 ≤ r.length := by
  unfold readProperty at h
  split at h
  · cases h
    exact Nat.le_add_left 2 _
  · cases h

theorem readEscape_alike {r : Reading Symbol} (h : readEscape offset s = .ok r)
    (ha : Alike (r.length - 1) s t) : Rereads (readEscape offset' t) r := by
  cases s with
  | nil => cases h
  | cons c s =>
    have htake : 2 ≤ r.length → ∃ t', t = c :: t' ∧ Alike (r.length - 2) s t' := by
      intro hlength
      obtain ⟨n, hn⟩ := Nat.exists_eq_add_of_le' hlength
      rw [hn] at ha ⊢
      exact ha.cons
    simp only [readEscape] at h
    split at h
    · rename_i item hitem
      cases h
      obtain ⟨t', rfl, -⟩ := htake (Nat.le_refl 2)
      simp only [readEscape, hitem]
      exact .self _
    rename_i hnone
    split at h
    · rename_i hb
      cases h
      obtain ⟨t', rfl, -⟩ := htake (Nat.le_refl 2)
      simp only [readEscape, hnone, if_pos hb]
      exact .self _
    rename_i hb
    split at h
    · rename_i hB
      cases h
      obtain ⟨t', rfl, -⟩ := htake (Nat.le_refl 2)
      simp only [readEscape, hnone, if_neg hb, if_pos hB]
      exact .self _
    rename_i hB
    split at h
    · rename_i hanchor
      cases h
      obtain ⟨t', rfl, -⟩ := htake (Nat.le_refl 2)
      simp only [readEscape, hnone, if_neg hb, if_neg hB, if_pos hanchor]
      exact ⟨_, rfl, rfl, rfl, rfl⟩
    rename_i hanchor
    split at h
    · rename_i hp
      obtain ⟨u, hu, rfl⟩ := ok_of_map h
      obtain ⟨t', rfl, hrest⟩ := htake (readProperty_length hu)
      have hp' := isPropertyEscape_alike c (hrest.mono (Nat.zero_le _))
      simp only [readEscape, hnone, if_neg hb, if_neg hB, if_neg hanchor, hp', if_pos hp]
      exact (readProperty_alike hu hrest).map fun u' hu' => ⟨rfl, hu'.length, hu'.constructs⟩
    rename_i hp
    split at h
    · rename_i hk
      split at h
      · rename_i n hn
        cases h
        obtain ⟨t', rfl, hrest⟩ := htake (Nat.le_add_left 2 n)
        have hhead := hrest.mono (Nat.zero_le _)
        have hk' : c = 'k' ∧ t'.head? = some '<' :=
          ⟨hk.1, (hhead.head_iff ⟨by decide, by decide⟩).mpr hk.2⟩
        simp only [readEscape, hnone, if_neg hb, if_neg hB, if_neg hanchor,
          isPropertyEscape_alike c hhead, if_neg hp, if_pos hk', through_alike hn hrest]
        exact ⟨_, rfl, rfl, rfl, rfl⟩
      · cases h
    rename_i hk
    have hother : ∀ t', Alike 0 s t' → ¬(c = 'k' ∧ t'.head? = some '<') := fun t' hhead hk' =>
      hk ⟨hk'.1, (hhead.head_iff ⟨by decide, by decide⟩).mp hk'.2⟩
    split at h
    · rename_i hdigit
      cases h
      obtain ⟨t', rfl, hrest⟩ := htake (by simp)
      have hhead := hrest.mono (Nat.zero_le _)
      simp only [readEscape, hnone, if_neg hb, if_neg hB, if_neg hanchor,
        isPropertyEscape_alike c hhead, if_neg hp, if_neg (hother t' hhead), if_pos hdigit,
        hhead.takeWhile isInner_of_isDigit]
      exact .self _
    · rename_i hdigit
      cases h
      obtain ⟨t', rfl, hrest⟩ := htake (Nat.le_add_left 2 _)
      have hhead := hrest.mono (Nat.zero_le _)
      simp only [readEscape, hnone, if_neg hb, if_neg hB, if_neg hanchor,
        isPropertyEscape_alike c hhead, if_neg hp, if_neg (hother t' hhead), if_neg hdigit,
        octal_alike c hhead, charEscape_alike c hhead]
      exact .self _

/-- A quantifier of which `n` characters after the first have been read, with its mark. -/
theorem marked_drop_alike (bounds : Bounds) (n : Nat)
    (ha : Alike ((marked offset bounds (n + 1) (s.drop n)).length - 1) s t) :
    (marked offset bounds (n + 1) (s.drop n)).Agrees (marked offset' bounds (n + 1) (t.drop n)) := by
  have hn : n ≤ (marked offset bounds (n + 1) (s.drop n)).length - 1 := by
    unfold marked
    split
    · exact Nat.le_succ n
    · exact Nat.le_succ n
    · exact Nat.le_refl n
  exact marked_alike bounds (n + 1) (Alike.drop (ha.mono hn))

/-- A symbol does not depend on what comes after it, apart from the mark of a quantifier, nor on
where it stands. -/
theorem readSymbol_alike {c : Char} {r : Reading Symbol} (h : readSymbol offset c s = .ok r)
    (ha : Alike (r.length - 1) s t) : Rereads (readSymbol offset' c t) r := by
  unfold readSymbol at h
  split at h
  · exact readGroup_alike h ha
  · cases h
    exact .self _
  · cases h
    exact .self _
  · obtain ⟨cls, hcls, rfl⟩ := ok_of_map h
    exact (readClass_alike hcls ha).map fun cls' hc =>
      ⟨congrArg (fun cls => Symbol.atom (.charClass cls)) hc.value, congrArg (· + 1) hc.length,
        hc.constructs⟩
  · exact readEscape_alike h ha
  · cases h
    exact .self _
  · cases h
    exact .self _
  · cases h
    exact .self _
  · cases h
    exact ⟨_, rfl, marked_drop_alike ⟨0, none⟩ 0 ha⟩
  · cases h
    exact ⟨_, rfl, marked_drop_alike ⟨1, none⟩ 0 ha⟩
  · cases h
    exact ⟨_, rfl, marked_drop_alike ⟨0, some 1⟩ 0 ha⟩
  · obtain ⟨bounds, hbounds, rfl⟩ := ok_of_map h
    have hagain : braceBounds? offset' t = .ok bounds :=
      braceBounds_alike hbounds (ha.mono (Nat.zero_le _))
    simp only [readSymbol, hagain]
    cases bounds with
    | none => exact .self _
    | some r => exact ⟨_, rfl, marked_drop_alike r.value r.length ha⟩
  · rename_i hgroup hclose hbar hclass hescape hany hstart hend hstar hplus hmark hbrace
    cases h
    unfold readSymbol
    split
    all_goals first | contradiction | exact .self _

end Symbols

end VbaWorkbench.Pattern
