import VbaWorkbench.Pattern.Parse
import VbaWorkbench.Proofs.Pattern.Subtrees
import VbaWorkbench.Proofs.Results

namespace VbaWorkbench.Pattern

namespace Node

/-- A sound node without groups. -/
def Simple (total : Nat) (node : Node) : Prop :=
  node.groups = [] ∧ node.AllSound total

theorem Simple.leaf {total : Nat} {node : Node} (hg : node.groups = [])
    (hsub : node.subtrees = [node]) (hs : node.Sound total) : node.Simple total :=
  ⟨hg, fun _ h => List.mem_singleton.mp (hsub ▸ h) ▸ hs⟩

theorem groups_of_isEmpty {node : Node} (h : node.isEmpty = true) : node.groups = [] := by
  cases node with
  | empty => rfl
  | _ => cases h

theorem groups_ofItems (nodes : List Node) : (ofItems nodes).groups = groupsAll nodes := by
  unfold ofItems
  split
  · rfl
  · simp [groupsAll]
  · rfl

theorem two_le_length {α : Type} {xs : List α} (hnil : xs ≠ []) (hone : ∀ x, xs ≠ [x]) :
    2 ≤ xs.length := by
  match xs with
  | [] => exact absurd rfl hnil
  | [x] => exact absurd rfl (hone x)
  | _ :: _ :: _ => simp

theorem allSound_ofItems {total : Nat} {nodes : List Node}
    (hne : ∀ node ∈ nodes, node.isEmpty = false) (h : ∀ node ∈ nodes, node.AllSound total) :
    (ofItems nodes).AllSound total := by
  unfold ofItems
  split
  · have hempty : empty.Simple total := .leaf rfl rfl trivial
    exact hempty.2
  · exact h _ (List.mem_singleton_self _)
  · rename_i hnil hone
    refine List.forall_mem_cons.mpr ⟨⟨two_le_length hnil hone, hne⟩, fun sub hsub => ?_⟩
    obtain ⟨node, hn, hsub⟩ := mem_subtreesAll.mp hsub
    exact h node hn sub hsub

theorem groups_ofBranches (nodes : List Node) : (ofBranches nodes).groups = groupsAll nodes := by
  unfold ofBranches
  split
  · simp [groupsAll]
  · rfl

theorem allSound_ofBranches {total : Nat} {nodes : List Node} (hne : nodes ≠ [])
    (h : ∀ node ∈ nodes, node.AllSound total) : (ofBranches nodes).AllSound total := by
  unfold ofBranches
  split
  · exact h _ (List.mem_singleton_self _)
  · rename_i hone
    refine List.forall_mem_cons.mpr ⟨two_le_length hne hone, fun sub hsub => ?_⟩
    obtain ⟨node, hn, hsub⟩ := mem_subtreesAll.mp hsub
    exact h node hn sub hsub

end Node

/-- An atom is simple, whatever the number of groups, a number is none of group 0, and counts are in
order. -/
def Symbol.Simple (total : Nat) : Symbol → Prop
  | .atom node => node.Simple total
  | .number digits => 1 ≤ Text.digitsValue 10 digits
  | .quantifier min max _ => (Bounds.mk min max).Allowed
  | _ => True

theorem Symbol.Simple.leaf {total : Nat} {node : Node} (hg : node.groups = [])
    (hsub : node.subtrees = [node]) (hs : node.Sound total) : (Symbol.atom node).Simple total :=
  Node.Simple.leaf hg hsub hs

theorem le_digitsValue (n : Nat) (t : Text) :
    n ≤ t.foldl (fun n d => n * 10 + Text.digitValue d) n := by
  induction t generalizing n with
  | nil => exact Nat.le_refl n
  | cons c t ih =>
    rw [List.foldl_cons]
    exact Nat.le_trans (by omega) (ih _)

/-- Digits that do not begin with zero write a positive number. -/
theorem digitsValue_pos {c : Char} (hl : '1' ≤ c) (hr : c ≤ '9') (t : Text) :
    1 ≤ Text.digitsValue 10 (c :: t) := by
  have hlow : 49 ≤ c.toNat := hl
  have hhigh : c.toNat ≤ 57 := hr
  have hdigit : c.isDigit = true := by
    simp only [Char.isDigit, Bool.and_eq_true, decide_eq_true_eq]
    exact ⟨show 48 ≤ c.toNat by omega, hhigh⟩
  have hvalue : Text.digitValue c = c.toNat - 48 := by
    simp only [Text.digitValue, hdigit, if_true]
    rfl
  unfold Text.digitsValue
  rw [List.foldl_cons]
  exact Nat.le_trans (by omega) (le_digitsValue _ t)

theorem marked_simple (total offset : Nat) {bounds : Bounds} (hb : bounds.Allowed) (length : Nat)
    (rest : Text) : (marked offset bounds length rest).value.Simple total := by
  unfold marked
  split
  · exact hb
  · exact hb
  · exact hb

section Orders

variable {opening offset : Nat} {t : Text}

theorem ordered_of_classEscape {c : Char} {item : ClassItem} (h : classEscape? c = some item) :
    item.Ordered := by
  unfold classEscape? at h
  split at h <;> cases h <;> trivial

theorem readClassAtom_ordered {r : Reading ClassAtom} (h : readClassAtom opening offset t = .ok r) :
    ∀ item ∈ r.value.items, item.Ordered := by
  have hchar : ∀ c : Char, ∀ item ∈ (ClassAtom.char c).items, item.Ordered := by
    intro c item hm
    rw [List.mem_singleton.mp hm]
    exact Std.le_refl c
  unfold readClassAtom at h
  split at h
  · cases h
  · cases h
  · split at h
    · rename_i item hitem
      cases h
      exact List.forall_mem_singleton.mpr (ordered_of_classEscape hitem)
    split at h
    · cases h
      exact hchar _
    split at h
    · obtain ⟨u, _, rfl⟩ := ok_of_map h
      simp [ClassAtom.items]
    · cases h
      exact hchar _
  · cases h
    exact hchar _

theorem readClassPart_ordered {r : Reading (List ClassItem)}
    (h : readClassPart opening offset t = .ok r) : ∀ item ∈ r.value, item.Ordered := by
  obtain ⟨first, hfirst, h⟩ := ok_of_bind h
  split at h
  · rename_i lo next rest hlo _
    split at h
    · cases h
      exact readClassAtom_ordered hfirst
    · obtain ⟨second, hsecond, h⟩ := ok_of_bind h
      have hitems := readClassAtom_ordered hsecond
      dsimp only at h
      split at h
      · split at h
        · cases h
        · rename_i hle
          cases h
          exact List.forall_mem_singleton.mpr (Char.not_lt.mp hle)
      · cases h
        exact List.forall_mem_cons.mpr ⟨Std.le_refl lo,
          List.forall_mem_cons.mpr ⟨Std.le_refl '-', hitems⟩⟩
  · cases h
    exact readClassAtom_ordered hfirst

theorem readClassItems_ordered {r : Reading (List ClassItem)}
    (h : readClassItems opening offset t = .ok r) : ∀ item ∈ r.value, item.Ordered := by
  fun_induction readClassItems opening offset t generalizing r with
  | case1 => cases h
  | case2 =>
    cases h
    simp
  | case3 => cases h
  | case4 offset c rest hc part hpart n offset' =>
    rename_i ih
    obtain ⟨more, hmore, rfl⟩ := ok_of_map h
    exact List.forall_mem_append.mpr ⟨readClassPart_ordered hpart, ih hmore⟩

/-- The ranges of a class that is read run forwards. -/
theorem readClass_ordered {r : Reading CharClass} (h : readClass opening t = .ok r) :
    ∀ item ∈ r.value.items, item.Ordered := by
  unfold readClass at h
  split at h
  · obtain ⟨items, hitems, rfl⟩ := ok_of_map h
    exact readClassItems_ordered hitems
  · obtain ⟨items, hitems, rfl⟩ := ok_of_map h
    exact readClassItems_ordered hitems

theorem count_le {digits : Text} {n : Nat} (h : count offset digits = .ok n) : n ≤ maxCount := by
  simp only [count] at h
  split at h
  · cases h
    assumption
  · cases h

/-- Bounds are read only if a brace closes them and they are in order. -/
theorem bounds_of_closed {low rest : Text} (high : Option Text) {n : Nat} {r : Reading Bounds}
    (h : (if low.isEmpty ∨ (rest.drop n).head? ≠ some '}' then .ok none
      else (count offset low).bind fun min =>
        match high with
        | none => .ok (some ⟨⟨min, none⟩, [], n + 1⟩)
        | some high => (count offset high).bind fun max =>
          if max < min then .error ⟨offset, .countsOutOfOrder⟩
          else .ok (some ⟨⟨min, some max⟩, [], n + 1⟩)) = .ok (some r)) :
    (rest.drop n).head? = some '}' ∧ r.length = n + 1 ∧ r.value.Allowed := by
  split at h
  · cases h
  · rename_i hbrace
    refine ⟨by simpa using (not_or.mp hbrace).2, ?_⟩
    obtain ⟨min, hmin, h⟩ := ok_of_bind h
    split at h
    · cases h
      exact ⟨rfl, count_le hmin, by simp⟩
    · obtain ⟨max, hmax, h⟩ := ok_of_bind h
      split at h
      · cases h
      · rename_i hle
        cases h
        refine ⟨rfl, count_le hmin, ?_⟩
        rintro _ ⟨⟩
        exact ⟨Nat.not_lt.mp hle, count_le hmax⟩

theorem braceBounds_allowed {rest : Text} {r : Reading Bounds}
    (h : braceBounds? offset rest = .ok (some r)) : r.value.Allowed := by
  simp only [braceBounds?] at h
  split at h
  · exact (bounds_of_closed _ h).2.2
  · exact (bounds_of_closed (some _) h).2.2

end Orders

theorem readEscape_simple {total offset : Nat} {rest : Text} {r : Reading Symbol}
    (h : readEscape offset rest = .ok r) : r.value.Simple total := by
  cases rest with
  | nil => simp [readEscape] at h
  | cons c rest =>
    simp only [readEscape] at h
    split at h
    · rename_i item hitem
      cases h
      exact .leaf rfl rfl (List.forall_mem_singleton.mpr (ordered_of_classEscape hitem))
    split at h
    · cases h
      exact .leaf rfl rfl trivial
    split at h
    · cases h
      exact .leaf rfl rfl trivial
    split at h
    · cases h
      exact .leaf rfl rfl trivial
    split at h
    · obtain ⟨u, _, rfl⟩ := ok_of_map h
      exact .leaf rfl rfl trivial
    split at h
    · split at h <;> cases h
      exact .leaf rfl rfl trivial
    split at h
    · rename_i hc
      cases h
      exact digitsValue_pos hc.1 hc.2 _
    · cases h
      exact .leaf rfl rfl trivial

theorem readGroup_simple {total offset : Nat} {rest : Text} {r : Reading Symbol}
    (h : readGroup offset rest = .ok r) : r.value.Simple total := by
  unfold readGroup at h
  split at h
  · cases h
  · cases h
    trivial
  · split at h
    · cases h
      exact .leaf rfl rfl trivial
    · cases h

/-- Whatever begins a pattern, no group or alternation comes in one piece. -/
theorem readSymbol_simple {total offset : Nat} {c : Char} {rest : Text} {r : Reading Symbol}
    (h : readSymbol offset c rest = .ok r) : r.value.Simple total := by
  unfold readSymbol at h
  split at h
  · exact readGroup_simple h
  · cases h
    trivial
  · cases h
    trivial
  · obtain ⟨cls, hcls, rfl⟩ := ok_of_map h
    exact .leaf rfl rfl (readClass_ordered hcls)
  · exact readEscape_simple h
  · cases h
    exact .leaf rfl rfl trivial
  · cases h
    exact .leaf rfl rfl trivial
  · cases h
    exact .leaf rfl rfl trivial
  · cases h
    exact marked_simple _ _ ⟨by decide, by simp⟩ ..
  · cases h
    exact marked_simple _ _ ⟨by decide, by simp⟩ ..
  · cases h
    exact marked_simple _ _ ⟨by decide, by simp [maxCount]⟩ ..
  · obtain ⟨bounds, hbounds, rfl⟩ := ok_of_map h
    cases bounds with
    | none => exact .leaf rfl rfl trivial
    | some r => exact marked_simple _ _ (braceBounds_allowed hbounds) ..
  · cases h
    exact .leaf rfl rfl trivial

theorem readSymbols_simple (total offset : Nat) (t : Text) :
    ∀ p ∈ (readSymbols offset t).symbols, p.symbol.Simple total := by
  fun_induction readSymbols offset t with
  | case1 => simp
  | case2 => simp
  | case3 offset c rest r hr n more ih =>
    intro p hp
    rcases List.mem_cons.mp hp with rfl | hp
    · exact readSymbol_simple hr
    · exact ih p hp

theorem numberAtoms_simple {total : Nat} {digits : Text} (hd : 1 ≤ Text.digitsValue 10 digits) :
    ∀ node ∈ numberAtoms total digits, node.Simple total := by
  intro node h
  unfold numberAtoms at h
  split at h
  · rename_i hle
    obtain rfl := List.mem_singleton.mp h
    exact .leaf rfl rfl ⟨hd, hle⟩
  · split at h
    · simp at h
    · rcases List.mem_cons.mp h with rfl | h
      · exact .leaf rfl rfl trivial
      · obtain ⟨c, _, rfl⟩ := List.mem_map.mp h
        exact .leaf rfl rfl trivial

namespace Level

/-- The groups of a level in the order in which they were read. -/
def groups (level : Level) : List Nat :=
  Node.groupsAll level.branches.reverse ++ Node.groupsAll level.items.reverse ++
    Node.groupsAll level.atom.toList

/-- Every node that has been read at this level is sound, and no item is empty. -/
structure AllSound (total : Nat) (level : Level) : Prop where
  branches : ∀ node ∈ level.branches, node.AllSound total
  items : ∀ node ∈ level.items, node.AllSound total
  nonempty : ∀ node ∈ level.items, node.isEmpty = false
  atom : ∀ node ∈ level.atom, node.AllSound total

theorem empty_allSound (total : Nat) : empty.AllSound total where
  branches := by simp [empty]
  items := by simp [empty]
  nonempty := by simp [empty]
  atom := by simp [empty]

theorem settle_atom (level : Level) : level.settle.atom = none := by
  unfold settle
  split
  · assumption
  · rfl

theorem settle_branches (level : Level) : level.settle.branches = level.branches := by
  unfold settle
  split
  · rfl
  · rfl

theorem settle_groups (level : Level) : level.settle.groups = level.groups := by
  unfold settle
  split
  · rfl
  · rename_i node ha
    by_cases he : node.isEmpty
    · simp [groups, he, ha, Node.groupsAll, Node.groups_of_isEmpty he]
    · simp [groups, he, ha, Node.groupsAll, Node.groupsAll_append]

theorem settle_allSound {total : Nat} {level : Level} (h : level.AllSound total) :
    level.settle.AllSound total := by
  unfold settle
  split
  · exact h
  · rename_i node hn
    refine ⟨h.branches, ?_, ?_, by simp⟩
    · dsimp only
      split
      · exact h.items
      · exact List.forall_mem_cons.mpr ⟨h.atom node hn, h.items⟩
    · dsimp only
      split
      · exact h.nonempty
      · rename_i hne
        exact List.forall_mem_cons.mpr ⟨by simpa using hne, h.nonempty⟩

theorem push_groups (node : Node) (level : Level) :
    (level.push node).groups = level.groups ++ node.groups := by
  rw [← settle_groups level]
  simp [push, groups, settle_atom, Node.groupsAll]

theorem push_allSound {total : Nat} {node : Node} {level : Level} (hn : node.AllSound total)
    (h : level.AllSound total) : (level.push node).AllSound total where
  branches := (settle_allSound h).branches
  items := (settle_allSound h).items
  nonempty := (settle_allSound h).nonempty
  atom := by
    rintro _ ⟨⟩
    exact hn

theorem pushAll_simple {total : Nat} {nodes : List Node} {level : Level}
    (hn : ∀ node ∈ nodes, node.Simple total) (h : level.AllSound total) :
    (level.pushAll nodes).groups = level.groups ∧ (level.pushAll nodes).AllSound total := by
  induction nodes generalizing level with
  | nil => exact ⟨rfl, h⟩
  | cons node nodes ih =>
    obtain ⟨hg, hs⟩ := hn node (by simp)
    obtain ⟨hgs, hss⟩ := ih (fun n hm => hn n (by simp [hm])) (push_allSound hs h)
    exact ⟨by rw [pushAll, List.foldl_cons, ← pushAll, hgs, push_groups, hg, List.append_nil], hss⟩

theorem branch_groups (level : Level) :
    Node.groupsAll level.branches.reverse ++ level.branch.groups = level.groups := by
  rw [← settle_groups level, branch, Node.groups_ofItems]
  simp [groups, settle_atom, settle_branches, Node.groupsAll]

theorem branch_allSound {total : Nat} {level : Level} (h : level.AllSound total) :
    level.branch.AllSound total :=
  Node.allSound_ofItems (fun node hn => (settle_allSound h).nonempty node (List.mem_reverse.mp hn))
    fun node hn => (settle_allSound h).items node (List.mem_reverse.mp hn)

theorem bar_groups (level : Level) : level.bar.groups = level.groups := by
  rw [← branch_groups level]
  simp [bar, groups, Node.groupsAll, Node.groupsAll_append]

theorem bar_allSound {total : Nat} {level : Level} (h : level.AllSound total) :
    level.bar.AllSound total where
  branches := List.forall_mem_cons.mpr ⟨branch_allSound h, h.branches⟩
  items := by simp [bar]
  nonempty := by simp [bar]
  atom := by simp [bar]

theorem node_groups (level : Level) : level.node.groups = level.groups := by
  rw [← branch_groups level, node, Node.groups_ofBranches]
  simp [Node.groupsAll, Node.groupsAll_append]

theorem node_allSound {total : Nat} {level : Level} (h : level.AllSound total) :
    level.node.AllSound total := by
  refine Node.allSound_ofBranches (by simp) fun node hn => ?_
  exact List.forall_mem_cons.mpr ⟨branch_allSound h, h.branches⟩ node (List.mem_reverse.mp hn)

end Level

/-- The groups before and at the parentheses that are open. -/
def openNumbers : List OpenGroup → List Nat
  | [] => []
  | group :: outer =>
    openNumbers outer ++ group.outer.groups ++
      if group.kind = .capturing then [group.index] else []

namespace ParseState

/-- The groups that have been read are numbered from one on in the order of their
parentheses, and what has been read is sound. -/
structure Numbered (total : Nat) (s : ParseState) : Prop where
  numbers : openNumbers s.groups ++ s.level.groups = List.range' 1 s.count
  sound : s.level.AllSound total
  outer : ∀ group ∈ s.groups, group.outer.AllSound total

theorem initial_numbered (total : Nat) : initial.Numbered total where
  numbers := rfl
  sound := Level.empty_allSound total
  outer := by simp [initial]

theorem close_groups (group : OpenGroup) (body : Node) :
    (group.close body).groups =
      (if group.kind = .capturing then [group.index] else []) ++ body.groups := by
  unfold OpenGroup.close
  split <;> simp [*, Node.groups]

theorem close_allSound {total : Nat} {group : OpenGroup} {body : Node}
    (h : body.AllSound total) : (group.close body).AllSound total := by
  unfold OpenGroup.close
  split
  · exact List.forall_mem_cons.mpr ⟨trivial, h⟩
  · exact h
  · exact List.forall_mem_cons.mpr ⟨trivial, h⟩

/-- Each symbol keeps the numbering. -/
theorem Numbered.step {total : Nat} {s s' : ParseState} (h : s.Numbered total) {p : PlacedSymbol}
    (hp : p.symbol.Simple total) (hs : s.step total p = .ok s') : s'.Numbered total := by
  obtain ⟨hnum, hsound, hout⟩ := h
  unfold ParseState.step at hs
  split at hs
  · rename_i node hsym
    rw [hsym] at hp
    cases hs
    exact ⟨by simpa [Level.push_groups, hp.1] using hnum, Level.push_allSound hp.2 hsound, hout⟩
  · rename_i digits hsym
    rw [hsym] at hp
    cases hs
    obtain ⟨hg, hb⟩ := Level.pushAll_simple (numberAtoms_simple hp) hsound
    exact ⟨by simpa [hg] using hnum, hb, hout⟩
  · rename_i kind _
    cases hs
    refine ⟨?_, Level.empty_allSound total, List.forall_mem_cons.mpr ⟨hsound, hout⟩⟩
    have hempty : Level.empty.groups = [] := rfl
    by_cases hk : kind = .capturing
    · simp only [openNumbers, hk, hempty, hnum, ↓reduceIte, List.append_nil, List.range'_1_concat]
      rw [Nat.add_comm]
    · simp only [openNumbers, hk, hempty, hnum, ↓reduceIte, List.append_nil]
  · split at hs
    · cases hs
    · rename_i group groups hgs
      cases hs
      rw [hgs] at hnum hout
      refine ⟨?_, Level.push_allSound (close_allSound (Level.node_allSound hsound))
        (hout group (by simp)), fun g hg => hout g (by simp [hg])⟩
      simpa [Level.push_groups, close_groups, Level.node_groups, openNumbers] using hnum
  · cases hs
    exact ⟨by simpa [Level.bar_groups] using hnum, Level.bar_allSound hsound, hout⟩
  · rename_i min max greedy hsym
    rw [hsym] at hp
    split at hs
    · cases hs
    · rename_i node ha
      cases hs
      refine ⟨?_, ⟨hsound.branches, ?_, ?_, by simp⟩, hout⟩
      · simpa [Level.groups, ha, Node.groupsAll, Node.groupsAll_append, Node.groups] using hnum
      · have hrepeated : (Node.repeated min max greedy p.offset node).AllSound total :=
          List.forall_mem_cons.mpr ⟨hp, hsound.atom node ha⟩
        exact List.forall_mem_cons.mpr ⟨hrepeated, hsound.items⟩
      · exact List.forall_mem_cons.mpr ⟨rfl, hsound.nonempty⟩

theorem Numbered.steps {total : Nat} {s s' : ParseState} (h : s.Numbered total)
    {ps : List PlacedSymbol} (hp : ∀ p ∈ ps, p.symbol.Simple total)
    (hs : s.steps total ps = .ok s') : s'.Numbered total := by
  induction ps generalizing s with
  | nil =>
    cases hs
    exact h
  | cons p ps ih =>
    unfold ParseState.steps at hs
    split at hs
    · cases hs
    · rename_i t ht
      exact ih (h.step (hp p (by simp)) ht) (fun q hq => hp q (by simp [hq])) hs

end ParseState

/-- A parsed pattern is read without a flaw, and its symbols close every group they open. -/
theorem parse_ok {pattern : Text} {parsed : Parsed} (h : parse pattern = .ok parsed) :
    (readSymbols 0 pattern).flaw = none ∧
      ∃ s, ParseState.initial.steps (groupTotal pattern) (readSymbols 0 pattern).symbols = .ok s ∧
        s.groups = [] ∧
        parsed = ⟨s.level.node, s.count, (readSymbols 0 pattern).symbols.flatMap (·.warnings)⟩ := by
  simp only [parse] at h
  split at h
  · cases h
  · cases h
  · rename_i s hs hflaw
    obtain ⟨node, hnode, rfl⟩ := ok_of_map h
    refine ⟨hflaw, s, hs, ?_⟩
    unfold ParseState.finish at hnode
    split at hnode
    · rename_i hgroups
      cases hnode
      exact ⟨hgroups, rfl⟩
    · cases hnode

/-- The groups of a pattern's tree are numbered from one on in the order of their parentheses, and
its back references are in the range of what the scan for groups has found. -/
theorem parse_sound {pattern : Text} {parsed : Parsed} (h : parse pattern = .ok parsed) :
    parsed.node.groups = List.range' 1 parsed.groups ∧
      parsed.node.AllSound (groupTotal pattern) := by
  obtain ⟨-, s, hsteps, hclosed, rfl⟩ := parse_ok h
  have hn := (ParseState.initial_numbered _).steps (readSymbols_simple _ 0 pattern) hsteps
  exact ⟨by simpa [hclosed, openNumbers, Level.node_groups] using hn.numbers,
    Level.node_allSound hn.sound⟩

theorem parse_numbered {pattern : Text} {parsed : Parsed} (h : parse pattern = .ok parsed) :
    parsed.node.groups = List.range' 1 parsed.groups ∧ parsed.node.Branched :=
  ⟨(parse_sound h).1, Node.branched_of_allSound parsed.node (parse_sound h).2⟩

end VbaWorkbench.Pattern
