import VbaWorkbench.Proofs.Pattern.EscapeReach

namespace VbaWorkbench.Pattern

section Groups

theorem groupTotal_cons (c : Char) (rest : Text) :
    groupTotal (c :: rest) = (groupsAt c rest).1 + groupTotal (rest.drop (groupsAt c rest).2) := by
  rw [groupTotal]

theorem groupTotal_other {c : Char} (hc : c ∉ ['\\', '[', '(']) (rest : Text) :
    groupTotal (c :: rest) = groupTotal rest := by
  simp only [List.mem_cons, not_or] at hc
  have hnone : groupsAt c rest = (0, 0) := by
    unfold groupsAt
    split
    · exact absurd rfl hc.1
    · exact absurd rfl hc.2.1
    · exact absurd rfl hc.2.2.1
    · rfl
  rw [groupTotal_cons, hnone, Nat.zero_add]
  rfl

theorem groupTotal_plain {n : Nat} {t : Text} (h : Plain n t) :
    groupTotal t = groupTotal (t.drop n) := by
  induction n generalizing t with
  | zero => rfl
  | succ n ih =>
    cases t with
    | nil => rfl
    | cons c rest =>
      have hc : c ∉ ['\\', '[', '('] := fun hm => h.head (by
        simp only [delimiters, List.mem_cons] at hm ⊢
        tauto)
      rw [groupTotal_other hc]
      exact ih h.tail

/-- Whether a symbol opens a capturing group. -/
def Symbol.capturing : Symbol → Nat
  | .opening .capturing => 1
  | _ => 0

variable {offset : Nat} {rest : Text} {r : Reading Symbol}

theorem readEscape_groups (h : readEscape offset rest = .ok r) :
    groupTotal ('\\' :: rest) = r.value.capturing + groupTotal (rest.drop (r.length - 1)) := by
  cases rest with
  | nil => cases h
  | cons c rest =>
    have hscan : groupTotal ('\\' :: c :: rest) =
        groupTotal ((c :: rest).drop (escapeReach false (c :: rest))) := by
      rw [groupTotal_cons]
      exact Nat.zero_add _
    have hletter : ∀ n, isPropertyEscape c rest = false → ¬(c = 'k' ∧ rest.head? = some '<') →
        Plain n rest → groupTotal ('\\' :: c :: rest) = 0 + groupTotal (rest.drop n) := by
      intro n hp hk hplain
      rw [hscan, escapeReach_plain hp (.inr hk), Nat.zero_add]
      exact groupTotal_plain hplain
    have hsimple : c ∉ ['p', 'P', 'k'] →
        groupTotal ('\\' :: c :: rest) = 0 + groupTotal rest := by
      intro hc
      refine hletter 0 (isPropertyEscape_eq_false hc rest) ?_ (.zero rest)
      rintro ⟨rfl, -⟩
      simp at hc
    simp only [readEscape] at h
    split at h
    · rename_i item hitem
      cases h
      exact hsimple (not_bracketed_of_classEscape hitem)
    split at h
    · rename_i hc
      subst hc
      cases h
      exact hsimple (by decide)
    split at h
    · rename_i hc
      subst hc
      cases h
      exact hsimple (by decide)
    split at h
    · rename_i hc
      cases h
      refine hsimple fun hm => ?_
      simp only [List.mem_cons, List.not_mem_nil, or_false] at hm
      rcases hm with rfl | rfl | rfl
      · simp at hc
      · simp at hc
      · simp at hc
    split at h
    · rename_i hp
      obtain ⟨u, hu, rfl⟩ := ok_of_map h
      unfold readProperty at hu
      split at hu
      · rename_i n hn
        cases hu
        rw [hscan, escapeReach_property hp hn]
        exact (Nat.zero_add _).symm
      · cases hu
    rename_i hp
    split at h
    · rename_i hk
      obtain ⟨rfl, hhead⟩ := hk
      split at h
      · rename_i n hn
        cases h
        rw [hscan, escapeReach_named hhead hn]
        exact (Nat.zero_add _).symm
      · cases h
    rename_i hk
    split at h
    · cases h
      refine hletter _ (by simpa using hp) hk (.takeWhile (by decide) rest)
    · cases h
      have hplain : Plain (if c = '0' then octal c rest else charEscape c rest).2 rest := by
        split
        · exact octalRest_plain _ _ rest
        · exact charEscape_plain c rest
      exact hletter _ (by simpa using hp) hk hplain

theorem groupHead_plain {kind : GroupKind} (h : groupHead? rest = some (.opens kind)) :
    Plain kind.width rest := by
  unfold groupHead? at h
  split at h
  · cases h
    exact .cons (by decide) (.cons (by decide) (.zero _))
  · cases h
    exact .cons (by decide) (.cons (by decide) (.zero _))
  · cases h
    exact .cons (by decide) (.cons (by decide) (.zero _))
  · cases h
  · cases h
  · cases h
  · cases h
  · cases h
  · split at h
    · cases h
    · cases h
  · cases h
  · cases h
    exact .zero rest

theorem groupsAt_opens {kind : GroupKind} (h : groupHead? rest = some (.opens kind)) :
    groupsAt '(' rest = ((Symbol.opening kind).capturing, 0) := by
  unfold groupsAt
  rw [h]
  cases kind with
  | capturing => rfl
  | nonCapturing => rfl
  | lookahead _ => rfl

theorem readGroup_groups (h : readGroup offset rest = .ok r) :
    groupTotal ('(' :: rest) = r.value.capturing + groupTotal (rest.drop (r.length - 1)) := by
  rw [groupTotal_cons]
  unfold readGroup at h
  split at h
  · cases h
  · rename_i kind hkind
    cases h
    rw [groupsAt_opens hkind]
    exact congrArg ((Symbol.opening kind).capturing + ·) (groupTotal_plain (groupHead_plain hkind))
  · rename_i construct hhead
    split at h
    · rename_i n hn
      cases h
      simp [groupsAt, hhead, hn, Symbol.capturing]
    · cases h

/-- Everything in a quantifier is passed over. -/
theorem marked_groups (offset : Nat) (bounds : Bounds) {n : Nat} {rest : Text} (h : Plain n rest) :
    let r := marked offset bounds (n + 1) (rest.drop n)
    groupTotal rest = r.value.capturing + groupTotal (rest.drop (r.length - 1)) := by
  have hcapturing : ∀ t, (marked offset bounds (n + 1) t).value.capturing = 0 := by
    intro t
    unfold marked
    split
    · rfl
    · rfl
    · rfl
  have hlength : Plain ((marked offset bounds (n + 1) (rest.drop n)).length - 1) rest := by
    unfold marked
    split
    · rename_i heq
      exact h.add (heq ▸ .cons (by decide) (.zero _))
    · rename_i heq
      exact h.add (heq ▸ .cons (by decide) (.zero _))
    · exact h
  simp only [hcapturing, Nat.zero_add]
  exact groupTotal_plain hlength

theorem Plain.brace {n : Nat} (h : Plain n rest) (hhead : (rest.drop n).head? = some '}') :
    Plain (n + 1) rest := by
  cases hdrop : rest.drop n with
  | nil => simp [hdrop] at hhead
  | cons c more =>
    obtain rfl : c = '}' := by simpa [hdrop] using hhead
    exact h.add (hdrop ▸ .cons (by decide) (.zero more))

/-- A quantifier in braces holds digits and a comma. -/
theorem braceBounds_plain {r : Reading Bounds} (h : braceBounds? offset rest = .ok (some r)) :
    Plain r.length rest := by
  have hlow : Plain (rest.takeWhile Char.isDigit).length rest := .takeWhile (by decide) rest
  simp only [braceBounds?] at h
  split at h
  · rename_i more hafter
    obtain ⟨hbrace, hlength, -⟩ := bounds_of_closed _ h
    rw [hlength]
    refine Plain.brace ?_ hbrace
    rw [Nat.add_assoc]
    refine hlow.add ?_
    rw [hafter, Nat.add_comm]
    exact .cons (by decide) (.takeWhile (by decide) more)
  · obtain ⟨hbrace, hlength, -⟩ := bounds_of_closed (some _) h
    rw [hlength]
    exact hlow.brace hbrace

/-- The scan for groups and the reading of a symbol agree on where the symbol ends. -/
theorem readSymbol_groups {c : Char} (h : readSymbol offset c rest = .ok r) :
    groupTotal (c :: rest) = r.value.capturing + groupTotal (rest.drop (r.length - 1)) := by
  have hone : c ∉ ['\\', '[', '('] → groupTotal (c :: rest) = 0 + groupTotal rest :=
    fun hc => (groupTotal_other hc rest).trans (Nat.zero_add _).symm
  unfold readSymbol at h
  split at h
  · exact readGroup_groups h
  · cases h
    exact hone (by decide)
  · cases h
    exact hone (by decide)
  · obtain ⟨cls, hcls, rfl⟩ := ok_of_map h
    simp [groupTotal_cons, groupsAt, readClass_reach hcls, Symbol.capturing]
  · exact readEscape_groups h
  · cases h
    exact hone (by decide)
  · cases h
    exact hone (by decide)
  · cases h
    exact hone (by decide)
  · cases h
    exact (groupTotal_other (by decide) rest).trans (marked_groups offset _ (.zero rest))
  · cases h
    exact (groupTotal_other (by decide) rest).trans (marked_groups offset _ (.zero rest))
  · cases h
    exact (groupTotal_other (by decide) rest).trans (marked_groups offset _ (.zero rest))
  · obtain ⟨bounds, hbounds, rfl⟩ := ok_of_map h
    cases bounds with
    | none => exact hone (by decide)
    | some r =>
      exact (groupTotal_other (by decide) rest).trans
        (marked_groups offset _ (braceBounds_plain hbounds))
  · rename_i hgroup _ _ hclass hescape _ _ _ _ _ _ _
    cases h
    refine hone fun hm => ?_
    simp only [List.mem_cons, List.not_mem_nil, or_false] at hm
    rcases hm with hm | hm | hm
    · exact hescape hm
    · exact hclass hm
    · exact hgroup hm

/-- The number of capturing groups that the symbols open. -/
def openings : List PlacedSymbol → Nat
  | [] => 0
  | p :: symbols => p.symbol.capturing + openings symbols

/-- In a pattern without a flaw the scan finds the groups that are read. -/
theorem groupTotal_eq (offset : Nat) (t : Text) (h : (readSymbols offset t).flaw = none) :
    groupTotal t = openings (readSymbols offset t).symbols := by
  fun_induction readSymbols offset t with
  | case1 => rw [groupTotal]; rfl
  | case2 => cases h
  | case3 offset c rest r hr n more ih =>
    rw [readSymbol_groups hr, ih h]
    rfl

end Groups

namespace ParseState

theorem step_count {total : Nat} {s s' : ParseState} {p : PlacedSymbol}
    (h : s.step total p = .ok s') : s'.count = s.count + p.symbol.capturing := by
  unfold ParseState.step at h
  split at h
  · rename_i hsym
    cases h
    rw [hsym]
    rfl
  · rename_i hsym
    cases h
    rw [hsym]
    rfl
  · rename_i kind hsym
    cases h
    rw [hsym]
    cases kind with
    | capturing => rfl
    | nonCapturing => rfl
    | lookahead _ => rfl
  · rename_i hsym
    split at h
    · cases h
    · cases h
      rw [hsym]
      rfl
  · rename_i hsym
    cases h
    rw [hsym]
    rfl
  · rename_i hsym
    split at h
    · cases h
    · cases h
      rw [hsym]
      rfl

theorem steps_count {total : Nat} {s s' : ParseState} {ps : List PlacedSymbol}
    (h : s.steps total ps = .ok s') : s'.count = s.count + openings ps := by
  induction ps generalizing s with
  | nil =>
    cases h
    rfl
  | cons p ps ih =>
    unfold ParseState.steps at h
    split at h
    · cases h
    · rename_i t ht
      rw [ih h, step_count ht, Nat.add_assoc]
      rfl

end ParseState

theorem groupTotal_of_parse {pattern : Text} {parsed : Parsed}
    (h : parse pattern = .ok parsed) : groupTotal pattern = parsed.groups := by
  obtain ⟨hflaw, s, hsteps, -, rfl⟩ := parse_ok h
  rw [groupTotal_eq 0 pattern hflaw]
  exact ((ParseState.steps_count hsteps).trans (Nat.zero_add _)).symm

namespace Node

/-- The span of a node says which groups are inside it. -/
theorem groups_of_span {node : Node} (hc : Consecutive node.groups) :
    (node.groupSpan? = none ↔ node.groups = []) ∧
      ∀ span, node.groupSpan? = some span → span.first ≤ span.last ∧
        node.groups = List.range' span.first (span.last + 1 - span.first) := by
  obtain ⟨first, n, hg⟩ := hc
  rw [groupSpan?_eq, hg]
  cases n with
  | zero => simp [GroupSpan.ofGroups]
  | succ n =>
    rw [GroupSpan.ofGroups_range]
    refine ⟨by simp, ?_⟩
    rintro span ⟨⟩
    have hcount : first + n + 1 - first = n + 1 := by omega
    exact ⟨Nat.le_add_right _ _, by rw [hcount]⟩

end Node

/-- The scan that counts the groups of a pattern before it is read, the reading itself and the tree
agree: the groups are numbered from one on in the order of their parentheses, back references stay
in that range, and the span of each subtree is the groups inside it, without a gap. -/
theorem parse_groups {pattern : Text} {parsed : Parsed} (h : parse pattern = .ok parsed) :
    groupTotal pattern = parsed.groups ∧
      parsed.node.subtrees.countP (·.index?.isSome) = parsed.groups ∧
      parsed.node.subtrees.filterMap Node.index? = List.range' 1 parsed.groups ∧
      (∀ n, .backref n ∈ parsed.node.subtrees → 1 ≤ n ∧ n ≤ parsed.groups) ∧
      ∀ sub ∈ parsed.node.subtrees,
        (sub.groupSpan? = none ↔ sub.subtrees.filterMap Node.index? = []) ∧
        ∀ span, sub.groupSpan? = some span → span.first ≤ span.last ∧
          sub.subtrees.filterMap Node.index? =
            List.range' span.first (span.last + 1 - span.first) := by
  have htotal := groupTotal_of_parse h
  obtain ⟨hgroups, hsound⟩ := parse_sound h
  rw [htotal] at hsound
  have hindices : parsed.node.subtrees.filterMap Node.index? = List.range' 1 parsed.groups := by
    rw [← Node.groups_eq, hgroups]
  have hcount : parsed.node.subtrees.countP (·.index?.isSome) = parsed.groups := by
    rw [← List.length_filterMap_eq_countP, hindices, List.length_range']
  refine ⟨htotal, hcount, hindices, fun n hn => hsound _ hn, fun sub hsub => ?_⟩
  have hc : Consecutive parsed.node.groups := ⟨1, parsed.groups, hgroups⟩
  rw [← Node.groups_eq]
  exact Node.groups_of_span (hc.within (parsed.node.groups_within hsub))

/-- Escapes, classes and foreign groups that hold parentheses hide them from the scan too. -/
theorem parse_groups_hidden :
    let pattern := "(?<=\\p\x7b)\x7d)[(\\]](a(?:\\c(b))\\2)\\10".toList
    ∃ parsed, parse pattern = .ok parsed ∧ groupTotal pattern = parsed.groups ∧
      parsed.node.subtrees.countP (·.index?.isSome) = parsed.groups ∧
      parsed.node.subtrees.filterMap Node.index? = List.range' 1 parsed.groups ∧
      (∀ n, .backref n ∈ parsed.node.subtrees → 1 ≤ n ∧ n ≤ parsed.groups) ∧
      ∀ sub ∈ parsed.node.subtrees,
        (sub.groupSpan? = none ↔ sub.subtrees.filterMap Node.index? = []) ∧
        ∀ span, sub.groupSpan? = some span → span.first ≤ span.last ∧
          sub.subtrees.filterMap Node.index? =
            List.range' span.first (span.last + 1 - span.first) := by
  intro pattern
  have hok : (parse pattern).isOk = true := by decide +kernel
  cases hparse : parse pattern with
  | error e =>
    rw [hparse] at hok
    cases hok
  | ok parsed => exact ⟨parsed, rfl, parse_groups hparse⟩

end VbaWorkbench.Pattern
