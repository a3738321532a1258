import VbaWorkbench.Proofs.Pattern.GroupScan
import VbaWorkbench.Proofs.Pattern.Leading
import VbaWorkbench.Proofs.Pattern.RenderedSymbols

namespace VbaWorkbench.Pattern

/-- The groups that are opened after the first `a` ones and up to the first `b`. -/
def Numbers (a : Nat) (groups : List Nat) (b : Nat) : Prop :=
  groups = List.range' (a + 1) groups.length ∧ b = a + groups.length

namespace Numbers

variable {a b g : Nat} {gs hs : List Nat}

theorem nil (h : Numbers a [] b) : b = a :=
  h.2

theorem cons (h : Numbers a (g :: gs) b) : g = a + 1 ∧ Numbers (a + 1) gs b := by
  obtain ⟨hgs, hb⟩ := h
  rw [List.length_cons, List.range'_succ] at hgs
  obtain ⟨hg, hgs⟩ := List.cons.inj hgs
  refine ⟨hg, hgs, ?_⟩
  rw [hb, List.length_cons]
  omega

theorem append (h : Numbers a (gs ++ hs) b) : ∃ c, Numbers a gs c ∧ Numbers c hs b := by
  obtain ⟨hgs, hb⟩ := h
  rw [List.length_append] at hgs hb
  rw [← List.range'_append_1] at hgs
  obtain ⟨hleft, hright⟩ := List.append_inj hgs (by simp)
  refine ⟨a + gs.length, ⟨hleft, rfl⟩, ?_, by omega⟩
  rw [Nat.add_right_comm]
  exact hright

end Numbers

namespace Node

/-- The items that a node is as a branch. -/
def asItems : Node → List Node
  | concat nodes => nodes
  | empty => []
  | node => [node]

theorem ofItems_asItems {total : Nat} {node : Node} (h : node.Sound total) :
    ofItems node.unplaced.asItems = node.unplaced := by
  cases node with
  | concat nodes =>
    match nodes, h.1 with
    | _ :: _ :: _, _ => rfl
  | _ => rfl

theorem ofBranches_unplaced {branches : List Node} (h : 2 ≤ branches.length) :
    ofBranches (branches.map unplaced) = (alternate branches).unplaced := by
  match branches, h with
  | _ :: _ :: _, _ => simp only [ofBranches, unplaced, unplacedAll_eq, List.map_cons]

end Node

/-- The symbols of a node are read as the node in every context in which they can stand. -/
structure Rebuilds (total a : Nat) (node : Node) (b : Nat) : Prop where
  whole : Whole total a node.symbols b node.unplaced
  items : Context.branch.groups node = false → Items total a node.symbols b node.unplaced.asItems
  atom : Context.repeated.groups node = false → Atom total a node.symbols b node.unplaced

namespace Rebuilds

variable {total a b : Nat} {node : Node}

theorem grouped (h : Rebuilds total a node b) :
    Atom total a (groupedSymbols true node.symbols) b node.unplaced :=
  h.whole.group rfl fun _ => rfl

theorem repeatedBody (h : Rebuilds total a node b) :
    Atom total a (groupedSymbols (Context.repeated.groups node) node.symbols) b node.unplaced := by
  cases hg : Context.repeated.groups node with
  | true => exact h.grouped
  | false => exact h.atom hg

theorem item (h : Rebuilds total a node b) (hne : node.isEmpty = false) :
    Items total a (groupedSymbols (Context.item.groups node) node.symbols) b [node.unplaced] := by
  cases hg : Context.item.groups node with
  | true => exact h.grouped.items (by simpa using hne)
  | false =>
    -- Any other node is its own only item.
    cases node with
    | concat _ | alternate _ => cases hg
    | empty => cases hne
    | _ => exact h.items rfl

theorem branch (h : Rebuilds total a node b) (hsound : node.Sound total) :
    Branches total a (groupedSymbols (Context.branch.groups node) node.symbols) b
      [node.unplaced] := by
  cases hg : Context.branch.groups node with
  | true =>
    cases node with
    | alternate branches => exact (h.grouped.items rfl).branch
    | _ => cases hg
  | false =>
    have hitems := (h.items hg).branch
    rwa [Node.ofItems_asItems hsound] at hitems

/-- What is read as items is read as a node of them. -/
theorem of_items (hsound : node.Sound total) (hatom : Context.repeated.groups node = true)
    (h : Items total a node.symbols b node.unplaced.asItems) : Rebuilds total a node b where
  whole := by
    have hwhole := h.whole
    rwa [Node.ofItems_asItems hsound] at hwhole
  items _ := h
  atom ha := by
    rw [hatom] at ha
    cases ha

theorem of_atom (hone : node.unplaced.asItems = [node.unplaced]) (hne : node.isEmpty = false)
    (h : Atom total a node.symbols b node.unplaced) : Rebuilds total a node b where
  whole := (h.items (by simpa using hne)).whole
  items _ := by
    rw [hone]
    exact h.items (by simpa using hne)
  atom _ := h

end Rebuilds

namespace Node

variable {total : Nat}

mutual
/-- The symbols of a sound node, whose groups are numbered in order, are read as the node. -/
theorem rebuilds (node : Node) (h : node.AllSound total) {a b : Nat}
    (hnum : Numbers a node.groups b) : Rebuilds total a node b := by
  obtain ⟨hnode, hbody⟩ := allSound_iff.mp h
  match node with
  | .empty =>
    obtain rfl := hnum.nil
    exact .of_items trivial rfl (.nil total b)
  | char _ | any | charClass _ | lineStart | lineEnd | wordBoundary _ =>
    obtain rfl := hnum.nil
    exact .of_atom rfl rfl (Leads.atom total b _)
  | .group index body =>
    obtain ⟨rfl, hinner⟩ := hnum.cons
    exact .of_atom rfl rfl ((rebuilds body hbody hinner).whole.group rfl fun _ => rfl)
  | lookahead negated body =>
    exact .of_atom rfl rfl ((rebuilds body hbody hnum).whole.group rfl fun _ => rfl)
  | repeated min max greedy offset body =>
    exact .of_items hnode rfl ((rebuilds body hbody hnum).repeatedBody.repeated min max greedy)
  | concat nodes =>
    refine .of_items hnode rfl ?_
    rw [unplaced, asItems, unplacedAll_eq]
    exact rebuildsItems nodes hbody hnode.2 hnum
  | alternate branches =>
    have hne : branches ≠ [] := List.ne_nil_of_length_pos (Nat.lt_of_lt_of_le Nat.zero_lt_two hnode)
    have hwhole := (rebuildsBranches branches hbody hne hnum).whole
    rw [ofBranches_unplaced hnode] at hwhole
    exact ⟨hwhole, nofun, nofun⟩
  | backref n =>
    obtain rfl := hnum.nil
    exact .of_atom rfl rfl (((Atom.number b hnode.2).items rfl).whole.group rfl fun _ => rfl)

theorem rebuildsItems (nodes : List Node) (h : ∀ sub ∈ subtreesAll nodes, sub.Sound total)
    (hne : ∀ node ∈ nodes, node.isEmpty = false) {a b : Nat} (hnum : Numbers a (groupsAll nodes) b) :
    Items total a (itemSymbols nodes) b (nodes.map unplaced) := by
  match nodes with
  | [] =>
    obtain rfl := hnum.nil
    exact Items.nil total b
  | node :: nodes =>
    obtain ⟨hn, hns⟩ := List.forall_mem_append.mp h
    obtain ⟨c, hleft, hright⟩ := hnum.append
    exact ((rebuilds node hn hleft).item (hne node (by simp))).append
      (rebuildsItems nodes hns (fun n hn => hne n (by simp [hn])) hright)

theorem rebuildsBranches (branches : List Node) (h : ∀ sub ∈ subtreesAll branches, sub.Sound total)
    (hne : branches ≠ []) {a b : Nat} (hnum : Numbers a (groupsAll branches) b) :
    Branches total a (branchSymbols branches) b (branches.map unplaced) := by
  match branches with
  | [] => exact absurd rfl hne
  | [node] =>
    have hn := (List.forall_mem_append.mp h).1
    obtain ⟨c, hleft, hright⟩ := hnum.append
    obtain rfl := hright.nil
    exact (rebuilds node hn hleft).branch (allSound_iff.mp hn).1
  | node :: next :: nodes =>
    obtain ⟨hn, hns⟩ := List.forall_mem_append.mp h
    obtain ⟨c, hleft, hright⟩ := hnum.append
    exact ((rebuilds node hn hleft).branch (allSound_iff.mp hn).1).append
      (rebuildsBranches (next :: nodes) hns (by simp) hright)
end

end Node

/-- The symbols of a whole tree, wherever they stand, lead to the tree with all its groups. -/
theorem steps_symbols {total : Nat} {node : Node} (hsound : node.AllSound total)
    (hgroups : node.groups = List.range' 1 total) {ps : List PlacedSymbol}
    (hps : ps.map (·.symbol) = node.symbols) :
    ∃ s, ParseState.initial.steps total ps = .ok s ∧ s.groups = [] ∧ s.count = total ∧
      s.level.node.unplaced = node.unplaced := by
  have hnum : Numbers 0 node.groups total := by
    rw [hgroups]
    simp [Numbers]
  obtain ⟨level, hrun, hnode⟩ := (node.rebuilds hsound hnum).whole .empty []
  -- The run on symbols without places tells what the run on placed ones does, up to offsets.
  have hsteps := ParseState.run_eq total .initial ps
  have hinitial : ParseState.initial.unplaced = ⟨.empty, [], 0⟩ := rfl
  rw [hps, hinitial, hrun] at hsteps
  cases hs : ParseState.initial.steps total ps with
  | error e =>
    rw [hs] at hsteps
    cases hsteps
  | ok s =>
    rw [hs] at hsteps
    have hstate : ParseState.mk level [] total = s.unplaced := Except.ok.inj hsteps
    refine ⟨s, rfl, ?_, ?_, ?_⟩
    · exact List.map_eq_nil_iff.mp (congrArg ParseState.groups hstate).symm
    · exact (congrArg ParseState.count hstate).symm
    · rw [Level.unplaced_node, ← hnode rfl]
      exact congrArg Level.node (congrArg ParseState.level hstate).symm

/-- The canonical text of a pattern's tree is read as the same tree, but for the offsets of its
quantifiers, with the same groups and without warnings. -/
theorem parse_render {pattern : Text} {parsed : Parsed} (h : parse pattern = .ok parsed) :
    ∃ again, parse parsed.node.render = .ok again ∧ again.node.unplaced = parsed.node.unplaced ∧
      again.groups = parsed.groups ∧ again.warnings = [] := by
  obtain ⟨hgroups, hsound⟩ := parse_sound h
  rw [groupTotal_of_parse h] at hsound
  obtain ⟨ps, hps, hwarnings, hread⟩ := parsed.node.spells_render hsound Calm.nil 0
  have hend : ∀ offset, readSymbols offset [] = ⟨[], none⟩ := fun offset => by rw [readSymbols]
  rw [List.append_nil] at hread
  simp only [hend, List.append_nil] at hread
  obtain ⟨s, hsteps, hclosed, hcount, hnode⟩ := steps_symbols hsound hgroups hps
  -- Back references are read the same way only if the scan for groups finds as many as before.
  have htotal : groupTotal parsed.node.render = parsed.groups := by
    rw [groupTotal_eq 0 _ (by rw [hread]), hread, ← hcount, ParseState.steps_count hsteps]
    exact (Nat.zero_add _).symm
  refine ⟨⟨s.level.node, s.count, ps.flatMap (·.warnings)⟩, ?_, hnode, hcount, ?_⟩
  · simp only [parse, hread, htotal, hsteps, ParseState.finish, hclosed]
    rfl
  · exact List.flatMap_eq_nil_iff.mpr hwarnings

/-- A quantifier of a quantifier, a foreign anchor that is dropped, and a back reference whose number
would run into the digit behind it. -/
theorem parse_render_nested :
    let pattern := "(?:x+|[^\\d-])*?(b\\A)\\1(?:8)?\x7b".toList
    let text := "(?:x\x7b1,\x7d|[^\\d\\--\\-])\x7b0,\x7d?(b)(?:\\1)8\x7b0,1\x7d\\\x7b".toList
    ∃ parsed, parse pattern = .ok parsed ∧ parsed.node.render = text ∧
      ∃ again, parse text = .ok again ∧ again.node.unplaced = parsed.node.unplaced ∧
        again.groups = parsed.groups ∧ again.warnings = [] := by
  intro pattern text
  have hok : ((parse pattern).map (·.node.render)).toOption = some text := by decide +kernel
  cases hparse : parse pattern with
  | error e =>
    rw [hparse] at hok
    cases hok
  | ok parsed =>
    rw [hparse] at hok
    have htext : parsed.node.render = text := Option.some.inj hok
    have hagain := parse_render hparse
    rw [htext] at hagain
    exact ⟨parsed, rfl, htext, hagain⟩

end VbaWorkbench.Pattern
