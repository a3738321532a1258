import VbaWorkbench.Proofs.Pattern.CodePieces

namespace VbaWorkbench.Pattern

/-- The end of a lookahead body inside its own run: a positive lookahead keeps the writes of the
body, but none of its choices. -/
theorem leaveLookahead_eq {f : Footprint} {negated : Bool} {next : Nat} {c c' : Config}
    (hx : Config.Extends f { c with stack := .lookahead negated next c.pos :: c.stack } c') :
    ∃ c'', c''.slots = c'.slots ∧ c''.pc = next ∧ c''.pos = c.pos ∧ c.Extends f c'' ∧
      c''.fail = c.fail ∧
      c'.leaveLookahead = if negated then c.fail else .running c'' := by
  obtain ⟨es, hstack, hwithin, hunwind⟩ := hx
  have hinside : ∀ e ∈ es, (!e.isLookahead) = true := by
    intro e he
    cases e with
    | lookahead => exact absurd (hwithin _ he) (by simp [Entry.Within])
    | _ => rfl
  let writes := es.filter (!·.isChoice)
  have hwrites : ∀ e ∈ writes, e.isChoice = false ∧ e.isLookahead = false := by
    intro e he
    obtain ⟨hm, hp⟩ := List.mem_filter.mp he
    exact ⟨by simpa using hp, by simpa using hinside e hm⟩
  have hback : Config.backtrack c'.slots c'.marks (writes ++ c.stack) = c.fail := by
    rw [backtrack_append _ _ _ _ hwrites, unwind_writes, hunwind]
    rfl
  refine ⟨⟨next, c.pos, c'.slots, c'.marks, writes ++ c.stack⟩, rfl, rfl, rfl, ?_, hback, ?_⟩
  · exact ⟨writes, rfl, fun e he => hwithin e (List.mem_filter.mp he).1,
      (unwind_writes es _).trans hunwind⟩
  · unfold Config.leaveLookahead
    rw [hstack, List.takeWhile_append_of_pos hinside, List.dropWhile_append_of_pos hinside]
    simp only [List.takeWhile_cons, List.dropWhile_cons, Entry.isLookahead]
    simp only [Bool.not_true, Bool.false_eq_true, if_false, List.append_nil]
    cases negated with
    | true => exact hback
    | false => rfl

/-- The start of a group alone does not set it. -/
theorem captured_setSlot_start {c : Config} {index : Nat}
    (hstop : c.slots[2 * index + 1]? = some none)
    (value : Option Nat) (g : Nat) :
    Machine.captured? (c.setSlot (2 * index) value).slots g = Machine.captured? c.slots g := by
  have hright : (c.setSlot (2 * index) value).slots[2 * g + 1]? = c.slots[2 * g + 1]? := by
    simp [Config.setSlot, Array.getElem?_setIfInBounds_ne (show 2 * index ≠ 2 * g + 1 by omega)]
  by_cases hg : g = index
  · subst hg
    simp [Machine.captured?, hright, hstop]
  · refine captured_congr ?_ hright
    simp [Config.setSlot, Array.getElem?_setIfInBounds_ne (show 2 * index ≠ 2 * g by omega)]

theorem captured_setSlot_stop {c : Config} {index start : Nat}
    (hstart : c.slots[2 * index]? = some (some start)) (hlt : 2 * index + 1 < c.slots.size)
    (stop g : Nat) :
    Machine.captured? (c.setSlot (2 * index + 1) (some stop)).slots g =
      if g = index then some (start, stop) else Machine.captured? c.slots g := by
  have hleft : (c.setSlot (2 * index + 1) (some stop)).slots[2 * g]? = c.slots[2 * g]? := by
    simp [Config.setSlot, Array.getElem?_setIfInBounds_ne (show 2 * index + 1 ≠ 2 * g by omega)]
  by_cases hg : g = index
  · subst hg
    have hright : (c.setSlot (2 * g + 1) (some stop)).slots[2 * g + 1]? = some (some stop) := by
      simp [Config.setSlot, hlt]
    simp [Machine.captured?, hleft, hstart, hright]
  · rw [if_neg hg]
    refine captured_congr hleft ?_
    simp [Config.setSlot, Array.getElem?_setIfInBounds_ne (show 2 * index + 1 ≠ 2 * g + 1 by omega)]

section Pieces

variable {m : Machine} {body : Node}

theorem group_refined {index : Nat} (hb : body.Refined m)
    (hc : Consecutive (index :: body.groups)) : (Node.group index body).Refined m := by
  intro here hcode c s hstart hfresh
  have hindex : index ∉ body.groups := hc.cons.2
  obtain ⟨hleft, hright⟩ := hfresh index (by simp [Node.groups])
  have hbodycode : CodeAt m.program.insts (here.pc + 1)
      (body.code ⟨here.pc + 1, here.mark⟩ ++ [.save (2 * index + 1)]) := hcode.tail
  have hsave := hbodycode.right.head
  rw [Node.length_code] at hsave
  let f : Footprint := ⟨index :: body.groups, here.mark, here.mark + body.marks⟩
  let c₁ := (c.setSlot (2 * index) (some c.pos)).next
  have hstep : m.step c = .running c₁ := by
    simp only [Machine.step, hstart.pc, hcode.head]
    rfl
  have hx : c.Extends f c₁ := Config.setSlot_extends (f := f) (by simp [f]) (some c.pos) c
  have hshows : Shows c₁ s :=
    ⟨hstart.shows.pos, fun g => (captured_setSlot_start hright _ g).trans (hstart.shows.captures g)⟩
  have hstart₁ : c₁.slots[2 * index]? = some (some s.pos) := by
    have hlt := (Array.getElem?_eq_some_iff.mp hleft).1
    rw [← hstart.shows.pos]
    simp [c₁, Config.next, Config.setSlot, hlt]
  have hfresh₁ : c₁.Fresh body.groups := by
    have hx' : c.Extends ⟨[index], 0, 0⟩ c₁ :=
      Config.setSlot_extends (f := ⟨[index], 0, 0⟩) (by simp) (some c.pos) c
    refine Config.Fresh.extends (fun g hg => hfresh g (by simp [Node.groups, hg])) hx' ?_
    rintro g hg hg'
    exact hindex (List.mem_singleton.mp hg' ▸ hg)
  have hbody : Delivers m (here.pc + 1 + body.size) ⟨body.groups, here.mark, here.mark + body.marks⟩
      c₁ (.running c₁) (body.outcomes m s) :=
    hb ⟨here.pc + 1, here.mark⟩ hbodycode.left c₁ s
      ⟨by simp [c₁, Config.next, Config.setSlot, hstart.pc], hshows, hstart.marks⟩ hfresh₁
  have hways : (Node.group index body).outcomes m s =
      (body.outcomes m s).flatMap fun t => [t.capture index s.pos] :=
    List.map_eq_flatMap
  rw [hways]
  refine .of_reaches (.once hstep) (.rebase hx (Config.setSlot_fail _ _ c) ?_)
  have hle : Footprint.Le ⟨body.groups, here.mark, here.mark + body.marks⟩ f :=
    ⟨fun g hg => by simp [f, hg], Nat.le_refl _, Nat.le_refl _⟩
  refine .bind hle hbody ?_
  intro c₂ t _ hx₂ hpc hs
  -- The body cannot touch the slots of the group around it.
  have hstart₂ : c₂.slots[2 * index]? = some (some s.pos) := by
    rw [hx₂.frame.2.2.1 (2 * index) (by rwa [Nat.mul_div_cancel_left index (by omega)]), hstart₁]
  have hlt₂ : 2 * index + 1 < c₂.slots.size := by
    rw [hx₂.frame.1, hx.frame.1]
    exact (Array.getElem?_eq_some_iff.mp hright).1
  have hstep₂ : m.step c₂ = .running (c₂.setSlot (2 * index + 1) (some c₂.pos)).next := by
    simp only [Machine.step, hpc, hsave]
  have hin : (2 * index + 1) / 2 ∈ f.groups := by
    rw [show (2 * index + 1) / 2 = index by omega]
    simp [f]
  refine .single (.once hstep₂) ?_ ⟨hs.pos, fun g => ?_⟩
    (Config.setSlot_extends (f := f) hin (some c₂.pos) c₂) (Config.setSlot_fail _ _ c₂)
  · simp [Config.next, Config.setSlot, hpc, Node.size]
    omega
  · refine (captured_setSlot_stop hstart₂ hlt₂ c₂.pos g).trans ?_
    rw [hs.pos, hs.captures]
    rfl

theorem lookahead_refined {negated : Bool} (hb : body.Refined m) :
    (Node.lookahead negated body).Refined m := by
  intro here hcode c s hstart hfresh
  let next := here.pc + body.size + 2
  let f : Footprint := ⟨body.groups, here.mark, here.mark + body.marks⟩
  have hbodycode : CodeAt m.program.insts (here.pc + 1)
      (body.code ⟨here.pc + 1, here.mark⟩ ++ [.succeed]) := hcode.tail
  have hsucceed := hbodycode.right.head
  rw [Node.length_code] at hsucceed
  let c₁ : Config :=
    { c with pc := here.pc + 1, stack := .lookahead negated next c.pos :: c.stack }
  have hstep : m.step c = .running c₁ := by
    simp only [Machine.step, hstart.pc, hcode.head]
    rfl
  have hbody : Delivers m (here.pc + 1 + body.size) f c₁ (.running c₁) (body.outcomes m s) :=
    hb ⟨here.pc + 1, here.mark⟩ hbodycode.left c₁ s
      ⟨rfl, ⟨hstart.shows.pos, hstart.shows.captures⟩, hstart.marks⟩ hfresh
  have hexit : here.pc + (Node.lookahead negated body).size = next := rfl
  have hways : (Node.lookahead negated body).outcomes m s = s.look negated (body.outcomes m s) :=
    rfl
  rw [hexit, hways]
  refine .of_reaches (.once hstep) ?_
  generalize body.outcomes m s = ss at hbody
  cases hbody with
  | none _ hr =>
    cases negated with
    | true =>
      exact .single (show m.Reaches _ (.running { c with pc := next }) from hr) rfl
        ⟨hstart.shows.pos, hstart.shows.captures⟩ (.refl f c) rfl
    | false => exact .none _ hr
  | some _ c' t ts hr hpc hs hx _ =>
    obtain ⟨c'', hslots, hpc'', hpos, hx'', hfail, hleave⟩ := leaveLookahead_eq (c := c) hx
    have hstep' : m.step c' = c'.leaveLookahead := by
      simp only [Machine.step, hpc, hsucceed]
    rw [hleave] at hstep'
    have hr' := hr.trans (.once hstep')
    cases negated with
    | true => exact .none _ hr'
    | false =>
      exact .single hr' hpc'' ⟨hpos.trans hstart.shows.pos, fun g => hslots ▸ hs.captures g⟩
        hx'' hfail

theorem repeated_refined {min : Nat} {max : Option Nat} {greedy : Bool} {offset : Nat}
    (hb : body.Refined m) (hc : Consecutive body.groups) :
    (Node.repeated min max greedy offset body).Refined m := by
  intro here hcode c s hstart hfresh
  rw [Node.code_repeated] at hcode
  let rest : Place := ⟨here.pc + min * body.iterationSize, here.mark + min * body.marks⟩
  have hmarks : here.mark + (min * body.marks + optionalCount min max * (body.marks + 1)) ≤
      c.marks.size := hstart.marks
  have hroom : c.Roomy body.groups := hfresh.roomy
  have hrequired : Delivers m rest.pc ⟨body.groups, here.mark, rest.mark⟩ c (.running c)
      (Stand.times (body.once m) min s) :=
    copies_yields (Node.length_iterationCode body) (fun p hp => iteration_yields hb hc p hp) min
      here hcode.left c s ⟨hstart.pc, hstart.shows, by omega⟩ hroom
  have hoptional := hcode.right
  rw [length_copies _ _ _ (Node.length_iterationCode body)] at hoptional
  have hstop : rest.mark + optionalCount min max * (body.marks + 1) =
      here.mark + (min * body.marks + optionalCount min max * (body.marks + 1)) :=
    Nat.add_assoc _ _ _
  refine .bind (.marks (Nat.le_refl _) (Nat.add_le_add_left (Nat.le_add_right _ _) _)) hrequired ?_
  intro c' t _ hx hpc hs
  have hmarks' : rest.mark + optionalCount min max * (body.marks + 1) ≤ c'.marks.size := by
    rw [hstop, hx.frame.2.1]
    exact hmarks
  have hle : Footprint.Le
      ⟨body.groups, rest.mark, rest.mark + optionalCount min max * (body.marks + 1)⟩
      ⟨body.groups, here.mark, here.mark + (Node.repeated min max greedy offset body).marks⟩ :=
    .marks (Nat.le_add_right _ _) (Nat.le_of_eq hstop)
  rw [Node.size_repeated]
  cases max with
  | none =>
    have hone : optionalCount min none * (body.marks + 1) = body.marks + 1 := Nat.one_mul _
    rw [hone] at hmarks' hle
    have hloop := delivers_loop hb hc hoptional ⟨hpc, hs, hmarks'⟩ (hroom.extends hx)
    have hexit : here.pc + (min * body.iterationSize + optionalCount min none *
        (body.iterationSize + 3) + (none : Option Nat).isNone.toNat) =
          rest.pc + body.iterationSize + 4 := by
      simp [optionalCount, rest]
      omega
    rw [hexit]
    exact hloop.mono hle
  | some max =>
    have hcopies := delivers_optional hb hc (max - min) hoptional rfl
      ⟨hpc, hs, hmarks'⟩ (hroom.extends hx)
    have hexit : here.pc + (min * body.iterationSize + optionalCount min (some max) *
        (body.iterationSize + 3) + (some max).isNone.toNat) =
          rest.pc + (max - min) * (body.iterationSize + 3) := by
      simp [optionalCount, rest]
      omega
    rw [hexit]
    exact hcopies.mono hle

/-- Where a branch fails, another begins as if the first had not been tried. -/
theorem delivers_branch (hb : body.Refined m) {here : Place} {later exit : Nat} {rest : List Inst}
    (hcode : CodeAt m.program.insts here.pc
      (.split (here.pc + 1) later :: body.code ⟨here.pc + 1, here.mark⟩ ++ .jump exit :: rest))
    {f : Footprint} (hf : Footprint.Le ⟨body.groups, here.mark, here.mark + body.marks⟩ f)
    {c : Config} {s : Stand} (hstart : Starts here body.marks c s) (hfresh : c.Fresh body.groups)
    {ways : List Stand}
    (hlater : Delivers m exit f { c with pc := later } (.running { c with pc := later }) ways) :
    Delivers m exit f c (.running c) (body.outcomes m s ++ ways) := by
  have hbodycode : CodeAt m.program.insts (here.pc + 1)
      (body.code ⟨here.pc + 1, here.mark⟩ ++ .jump exit :: rest) := hcode.tail
  have hjump := hbodycode.right.head
  rw [Node.length_code] at hjump
  let c₁ : Config := { c with pc := here.pc + 1, stack := .choice later c.pos :: c.stack }
  have hstep : m.step c = .running c₁ := by
    simp only [Machine.step, hstart.pc, hcode.head]
    rfl
  have hfirst : Delivers m (here.pc + 1 + body.size)
      ⟨body.groups, here.mark, here.mark + body.marks⟩ c₁ (.running c₁) (body.outcomes m s) :=
    hb ⟨here.pc + 1, here.mark⟩ hbodycode.left c₁ s
      ⟨rfl, ⟨hstart.shows.pos, hstart.shows.captures⟩, hstart.marks⟩ hfresh
  have hback : ∀ c' : Config, c'.pc = here.pc + 1 + body.size →
      m.step c' = .running { c' with pc := exit } := by
    intro c' hpc
    simp only [Machine.step, hpc, hjump]
  have hleft : Delivers m exit f c₁ (.running c₁) (body.outcomes m s) :=
    (hfirst.jump hback).mono hf
  have hx : c.Extends f c₁ := ⟨[.choice later c.pos], rfl, by simp [Entry.Within], rfl⟩
  have hx' : c.Extends f { c with pc := later } := .refl f c
  have hrest : Delivers m exit f c c₁.fail ways := .rebase hx' rfl hlater
  exact .of_reaches (.once hstep) (hleft.append hx hrest)

end Pieces

namespace Node

mutual
/-- The code of a node yields what the node matches, in the same order. -/
theorem refined (m : Machine) (node : Node) (hc : Consecutive node.groups)
    (hb : node.Branched) : node.Refined m := by
  match node with
  | empty =>
    intro here _ c s hstart _
    exact delivers_stay hstart.shows hstart.pc
  | char d =>
    intro here hcode c s hstart _
    exact delivers_consume hstart.shows (by rw [hstart.pc]; rfl)
      (by simp only [Machine.step, hstart.pc, hcode.head])
  | any =>
    intro here hcode c s hstart _
    exact delivers_consume hstart.shows (by rw [hstart.pc]; rfl)
      (by simp only [Machine.step, hstart.pc, hcode.head])
  | charClass cls =>
    intro here hcode c s hstart _
    exact delivers_consume hstart.shows (by rw [hstart.pc]; rfl)
      (by simp only [Machine.step, hstart.pc, hcode.head])
  | lineStart =>
    intro here hcode c s hstart _
    exact delivers_require hstart.shows (by rw [hstart.pc]; rfl)
      (by simp only [Machine.step, hstart.pc, hcode.head, hstart.shows.pos])
  | lineEnd =>
    intro here hcode c s hstart _
    exact delivers_require hstart.shows (by rw [hstart.pc]; rfl)
      (by simp only [Machine.step, hstart.pc, hcode.head, hstart.shows.pos])
  | wordBoundary negated =>
    intro here hcode c s hstart _
    exact delivers_require hstart.shows (by rw [hstart.pc]; rfl)
      (by simp only [Machine.step, hstart.pc, hcode.head, hstart.shows.pos])
  | backref index =>
    intro here hcode c s hstart _
    exact delivers_backref hstart.shows (by rw [hstart.pc]; rfl) (hstart.pc ▸ hcode.head)
  | .group index body => exact group_refined (refined m body hc.cons.1 hb) hc
  | lookahead negated body => exact lookahead_refined (refined m body hc hb)
  | repeated min max greedy offset body => exact repeated_refined (refined m body hc hb) hc
  | concat nodes =>
    intro here hcode
    exact refined_all m nodes hc hb here hcode
  | alternate branches =>
    intro here hcode c s hstart hfresh
    exact refined_any m branches hc hb.2 hb.1 hcode rfl hstart hfresh

theorem refined_all (m : Machine) (nodes : List Node) (hc : Consecutive (groupsAll nodes))
    (hb : BranchedAll nodes) (here : Place)
    (hcode : CodeAt m.program.insts here.pc (codeAll here nodes)) :
    Yields m Config.Fresh (groupsAll nodes) here (sizeAll nodes) (marksAll nodes)
      (outcomesAll m nodes) := by
  match nodes with
  | [] =>
    intro c s hstart _
    exact delivers_stay hstart.shows hstart.pc
  | node :: nodes =>
    intro c s hstart hfresh
    obtain ⟨hcl, hcr, hne⟩ := hc.append
    have hmarks : here.mark + (node.marks + marksAll nodes) ≤ c.marks.size := hstart.marks
    have hfirst := refined m node hcl hb.1 here hcode.left c s
      ⟨hstart.pc, hstart.shows, by omega⟩ fun g hg => hfresh g (by simp [groupsAll, hg])
    have hright := hcode.right
    rw [length_code] at hright
    have hle : Footprint.Le ⟨node.groups, here.mark, here.mark + node.marks⟩
        ⟨groupsAll (node :: nodes), here.mark, here.mark + marksAll (node :: nodes)⟩ :=
      ⟨fun g hg => by simp [groupsAll, hg], Nat.le_refl _,
        Nat.add_le_add_left (Nat.le_add_right _ _) _⟩
    refine .bind hle hfirst ?_
    intro c' t _ hx hpc hs
    have hfresh' : c'.Fresh (groupsAll nodes) :=
      Config.Fresh.extends (fun g hg => hfresh g (by simp [groupsAll, hg])) hx
        fun g hg hg' => hne g hg' hg
    have hrest := refined_all m nodes hcr hb.2 ⟨here.pc + node.size, here.mark + node.marks⟩ hright
      c' t ⟨hpc, hs, by rw [hx.frame.2.1]; simp only; omega⟩ hfresh'
    have hexit : here.pc + sizeAll (node :: nodes) = here.pc + node.size + sizeAll nodes :=
      (Nat.add_assoc _ _ _).symm
    rw [hexit]
    exact hrest.mono ⟨fun g hg => by simp [groupsAll, hg], Nat.le_add_right _ _,
      Nat.le_of_eq (Nat.add_assoc _ _ _)⟩

/-- The branches of an alternation all leave for its end. -/
theorem refined_any (m : Machine) (branches : List Node) (hc : Consecutive (groupsAll branches))
    (hb : BranchedAll branches) (hne : branches ≠ []) {here : Place} {exit : Nat}
    (hcode : CodeAt m.program.insts here.pc (codeBranches here exit branches))
    (hexit : here.pc + (sizeAll branches + 2 * (branches.length - 1)) = exit) {c : Config}
    {s : Stand} (hstart : Starts here (marksAll branches) c s)
    (hfresh : c.Fresh (groupsAll branches)) :
    Delivers m exit ⟨groupsAll branches, here.mark, here.mark + marksAll branches⟩ c (.running c)
      (outcomesAny m branches s) := by
  match branches with
  | [node] =>
    have hgroups : groupsAll [node] = node.groups := List.append_nil _
    have hways : outcomesAny m [node] s = node.outcomes m s := List.append_nil _
    rw [hgroups] at hc hfresh ⊢
    rw [hways, ← hexit]
    exact refined m node hc hb.1 here hcode c s hstart hfresh
  | node :: next :: nodes =>
    obtain ⟨hcl, hcr, -⟩ := hc.append
    let later : Place := ⟨here.pc + node.size + 2, here.mark + node.marks⟩
    have hmarks : here.mark + (node.marks + marksAll (next :: nodes)) ≤ c.marks.size := hstart.marks
    have hlatercode := (CodeAt.tail hcode).right.tail
    rw [length_code] at hlatercode
    have hgl : ∀ g ∈ node.groups, g ∈ groupsAll (node :: next :: nodes) :=
      fun g hg => List.mem_append.mpr (.inl hg)
    have hgr : ∀ g ∈ groupsAll (next :: nodes), g ∈ groupsAll (node :: next :: nodes) :=
      fun g hg => List.mem_append.mpr (.inr hg)
    have hle : Footprint.Le ⟨node.groups, here.mark, here.mark + node.marks⟩
        ⟨groupsAll (node :: next :: nodes), here.mark,
          here.mark + marksAll (node :: next :: nodes)⟩ :=
      ⟨hgl, Nat.le_refl _, Nat.add_le_add_left (Nat.le_add_right _ _) _⟩
    have hlater : later.pc = here.pc + 1 + node.size + 1 := by
      simp only [later]
      omega
    have hexit' :
        later.pc + (sizeAll (next :: nodes) + 2 * ((next :: nodes).length - 1)) = exit := by
      rw [← hexit]
      simp only [later, sizeAll, List.length_cons]
      omega
    have hmarks' : later.mark + marksAll (next :: nodes) ≤ c.marks.size :=
      Nat.le_trans (Nat.le_of_eq (Nat.add_assoc _ _ _)) hmarks
    have hright := refined_any m (next :: nodes) hcr hb.2 (List.cons_ne_nil _ _)
      (hlater ▸ hlatercode) hexit' (c := { c with pc := later.pc }) (s := s)
      ⟨rfl, ⟨hstart.shows.pos, hstart.shows.captures⟩, hmarks'⟩ fun g hg => hfresh g (hgr g hg)
    exact delivers_branch (refined m node hcl hb.1) hcode hle
      ⟨hstart.pc, hstart.shows, by omega⟩ (fun g hg => hfresh g (hgl g hg))
      (hright.mono ⟨hgr, Nat.le_add_right _ _, Nat.le_of_eq (Nat.add_assoc _ _ _)⟩)
end

end Node
end VbaWorkbench.Pattern
