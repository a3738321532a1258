import VbaWorkbench.Proofs.Pattern.CodePlacement
import VbaWorkbench.Proofs.Pattern.Delivery
import VbaWorkbench.Proofs.Pattern.Numbering

namespace VbaWorkbench.Pattern

namespace Config

/-- The groups have slots. -/
def Roomy (c : Config) (groups : List Nat) : Prop :=
  ∀ g ∈ groups, 2 * g + 1 < c.slots.size

/-- The groups have slots, and nothing is in them. -/
def Fresh (c : Config) (groups : List Nat) : Prop :=
  ∀ g ∈ groups, c.slots[2 * g]? = some none ∧ c.slots[2 * g + 1]? = some none

theorem Fresh.roomy {c : Config} {groups : List Nat} (h : c.Fresh groups) : c.Roomy groups := by
  intro g hg
  exact (Array.getElem?_eq_some_iff.mp (h g hg).2).1

theorem Roomy.extends {f : Footprint} {c c' : Config} {groups : List Nat} (h : c.Roomy groups)
    (hx : c.Extends f c') : c'.Roomy groups := by
  intro g hg
  rw [hx.frame.1]
  exact h g hg

/-- A piece of code leaves the slots of other groups empty. -/
theorem Fresh.extends {f : Footprint} {c c' : Config} {groups : List Nat} (h : c.Fresh groups)
    (hx : c.Extends f c') (hd : ∀ g ∈ groups, g ∉ f.groups) : c'.Fresh groups := by
  intro g hg
  have hne := hd g hg
  rw [hx.frame.2.2.1 (2 * g) (by rwa [Nat.mul_div_cancel_left g (by omega)]),
    hx.frame.2.2.1 (2 * g + 1) (by rwa [show (2 * g + 1) / 2 = g by omega])]
  exact h g hg

end Config

/-- A piece of code that is placed at `here` and uses `marks` marks begins where the match
stands. -/
structure Starts (here : Place) (marks : Nat) (c : Config) (s : Stand) : Prop where
  pc : c.pc = here.pc
  shows : Shows c s
  marks : here.mark + marks ≤ c.marks.size

/-- A piece of code of some size yields these ways to match from every stand, if the slots of its
groups are `ready`. -/
def Yields (m : Machine) (ready : Config → List Nat → Prop) (groups : List Nat) (here : Place)
    (size marks : Nat) (ways : Stand → List Stand) : Prop :=
  ∀ c s, Starts here marks c s → ready c groups →
    Delivers m (here.pc + size) ⟨groups, here.mark, here.mark + marks⟩ c (.running c) (ways s)

section Steps

variable {m : Machine} {exit : Nat} {f : Footprint} {c : Config} {s : Stand}

theorem delivers_stay (hs : Shows c s) (hpc : c.pc = exit) :
    Delivers m exit f c (.running c) [s] :=
  .single (.refl _) hpc hs (.refl f c) rfl

theorem delivers_consume {p : Char → Bool} (hs : Shows c s) (hpc : c.pc + 1 = exit)
    (hstep : m.step c = m.consume p c) : Delivers m exit f c (.running c) (s.consume m p) := by
  unfold Machine.consume at hstep
  unfold Stand.consume
  rw [← hs.pos]
  split at hstep
  · rename_i hp
    rw [if_pos hp]
    exact .single (.once hstep) hpc ⟨rfl, hs.captures⟩ (.refl f c) rfl
  · rename_i hp
    rw [if_neg hp]
    exact .none _ (.once hstep)

theorem delivers_require {holds : Bool} (hs : Shows c s) (hpc : c.pc + 1 = exit)
    (hstep : m.step c = Machine.require holds c) :
    Delivers m exit f c (.running c) (s.require holds) := by
  unfold Machine.require at hstep
  unfold Stand.require
  cases holds with
  | true => exact .single (.once hstep) hpc ⟨hs.pos, hs.captures⟩ (.refl f c) rfl
  | false => exact .none _ (.once hstep)

theorem repeats_eq_echoes (m : Machine) (start pos n : Nat) :
    m.repeats start pos n = Stand.echoes m start pos n := by
  -- Both compare the characters at two positions, one pair after the other.
  have hechoes : ∀ a b n, Stand.echoes m a b n =
      (List.range n).all fun i => m.repeats (a + i) (b + i) 1 :=
    fun a b n => congrArg (List.range n).all (funext fun i => (Bool.and_true _).symm)
  have hrepeats : ∀ a b n,
      m.repeats a b (n + 1) = (m.repeats a b 1 && m.repeats (a + 1) (b + 1) n) :=
    fun a b n => congrArg (· && m.repeats (a + 1) (b + 1) n) (Bool.and_true _).symm
  induction n generalizing start pos with
  | zero => rfl
  | succ n ih =>
    have hnext : (fun i => m.repeats (start + 1 + i) (pos + 1 + i) 1) =
        (fun i => m.repeats (start + i) (pos + i) 1) ∘ Nat.succ := by
      funext i
      simp only [Function.comp_apply, Nat.succ_eq_add_one, Nat.add_assoc, Nat.add_comm 1]
    rw [hrepeats, ih, hechoes, hechoes, List.range_succ_eq_map, List.all_cons, List.all_map, hnext,
      Nat.add_zero, Nat.add_zero]

theorem delivers_backref {group : Nat} (hs : Shows c s) (hpc : c.pc + 1 = exit)
    (hinst : m.program.insts[c.pc]? = some (.backref group)) :
    Delivers m exit f c (.running c) (s.repeatGroup m group) := by
  unfold Stand.repeatGroup
  cases hcap : s.captures group with
  | none =>
    have hback : m.backref? group c = some c.pos := by
      simp only [Machine.backref?, hs.captures, hcap]
    have hstep : m.step c = .running { c with pc := c.pc + 1 } := by
      simp only [Machine.step, hinst, hback]
    exact .single (.once hstep) hpc ⟨hs.pos, hs.captures⟩ (.refl f c) rfl
  | some span =>
    obtain ⟨start, stop⟩ := span
    have hback : m.backref? group c = if Stand.echoes m start s.pos (stop - start) then
        some (s.pos + (stop - start)) else none := by
      simp only [Machine.backref?, hs.captures, hcap, hs.pos, repeats_eq_echoes]
    by_cases he : Stand.echoes m start s.pos (stop - start) = true
    · rw [if_pos he] at hback
      have hstep : m.step c =
          .running { c with pc := c.pc + 1, pos := s.pos + (stop - start) } := by
        simp only [Machine.step, hinst, hback]
      simp only [if_pos he]
      exact .single (.once hstep) hpc ⟨rfl, hs.captures⟩ (.refl f c) rfl
    · rw [if_neg he] at hback
      have hstep : m.step c = c.fail := by
        simp only [Machine.step, hinst, hback]
      simp only [if_neg he]
      exact .none _ (.once hstep)

end Steps

theorem captured_congr {slots slots' : Array (Option Nat)} {g : Nat}
    (hl : slots'[2 * g]? = slots[2 * g]?) (hr : slots'[2 * g + 1]? = slots[2 * g + 1]?) :
    Machine.captured? slots' g = Machine.captured? slots g := by
  simp only [Machine.captured?, hl, hr]

namespace Node

/-- Wherever its code is placed, a node yields its outcomes. -/
def Refined (m : Machine) (node : Node) : Prop :=
  ∀ here : Place, CodeAt m.program.insts here.pc (node.code here) →
    Yields m Config.Fresh node.groups here node.size node.marks (node.outcomes m)

end Node

section Iterations

variable {m : Machine} {body : Node}

/-- The slots that a reset empties are those of the groups inside the body. -/
theorem reset_clears {span : GroupSpan} (hc : Consecutive body.groups)
    (hspan : body.groupSpan? = some span) {c : Config} {s : Stand} (hs : Shows c s)
    (hroom : c.Roomy body.groups) :
    let c' := (c.clearSlots (2 * span.first) (2 * (span.last + 1 - span.first))).next
    Shows c' (s.clear body.groups) ∧ c'.Fresh body.groups ∧
      ∀ f : Footprint, f.groups = body.groups → c.Extends f c' := by
  have hmem := Node.mem_groups_iff hc hspan
  have hrange : ∀ k, 2 * span.first ≤ k → k < 2 * span.first + 2 * (span.last + 1 - span.first) →
      k / 2 ∈ body.groups := by
    intro k hl hr
    rw [hmem]
    omega
  have hin : ∀ g ∈ body.groups, ∀ k, k / 2 = g → k < c.slots.size →
      (c.clearSlots (2 * span.first) (2 * (span.last + 1 - span.first))).slots[k]? =
        some none := by
    intro g hg k hk hlt
    rw [hmem] at hg
    rw [Config.clearSlots_slots _ _ _ _ hlt, if_pos (by omega)]
  have hfresh : ∀ g ∈ body.groups, 2 * g + 1 < c.slots.size := hroom
  refine ⟨⟨?_, ?_⟩, ?_, ?_⟩
  · rw [Config.next, (Config.clearSlots_fields _ _ c).2.1]
    exact hs.pos
  · intro g
    by_cases hg : g ∈ body.groups
    · have hlt := hfresh g hg
      have hl := hin g hg (2 * g) (by omega) (by omega)
      simp [Machine.captured?, Config.next, hl, Stand.clear, hg]
    · have hx := Config.clearSlots_extends (f := ⟨body.groups, 0, 0⟩) _ _ hrange c
      simp only [Stand.clear, if_neg hg, ← hs.captures]
      exact captured_congr (hx.frame.2.2.1 _ (by rwa [Nat.mul_div_cancel_left g (by omega)]))
        (hx.frame.2.2.1 _ (by rwa [show (2 * g + 1) / 2 = g by omega]))
  · intro g hg
    have hlt := hfresh g hg
    exact ⟨hin g hg (2 * g) (by omega) (by omega), hin g hg (2 * g + 1) (by omega) hlt⟩
  · intro f hf
    exact Config.clearSlots_extends _ _ (fun k hl hr => hf ▸ hrange k hl hr) c

theorem iteration_yields (hb : body.Refined m) (hc : Consecutive body.groups) (here : Place)
    (hcode : CodeAt m.program.insts here.pc (body.iterationCode here)) :
    Yields m Config.Roomy body.groups here body.iterationSize body.marks (body.once m) := by
  intro c s hstart hroom
  unfold Node.iterationCode iteration at hcode
  unfold Node.iterationSize
  cases hspan : body.groupSpan? with
  | none =>
    rw [hspan] at hcode
    have hg := Node.groups_of_span_none hspan
    have hshows : Shows c (s.clear body.groups) :=
      ⟨hstart.shows.pos, by simpa [Stand.clear, hg] using hstart.shows.captures⟩
    exact hb here hcode c _ ⟨hstart.pc, hshows, hstart.marks⟩ (by simp [hg, Config.Fresh])
  | some span =>
    rw [hspan] at hcode
    obtain ⟨hshows, hfresh, hx⟩ := reset_clears hc hspan hstart.shows hroom
    have hstep : m.step c =
        .running (c.clearSlots (2 * span.first) (2 * (span.last + 1 - span.first))).next := by
      simp only [Machine.step, hstart.pc, hcode.head]
    have hfields := Config.clearSlots_fields (2 * (span.last + 1 - span.first)) (2 * span.first) c
    have hbody := hb _ hcode.tail _ _ ⟨by rw [Config.next, hfields.1, hstart.pc], hshows, by
      simpa [Config.next, hfields.2.2] using hstart.marks⟩ hfresh
    have hfail := Config.clearSlots_fail (2 * (span.last + 1 - span.first)) (2 * span.first) c
    refine .of_reaches (.once hstep) (.rebase (hx _ rfl) hfail ?_)
    unfold Node.once
    simpa [Nat.add_assoc, Nat.add_comm 1] using hbody

theorem copies_yields {groups : List Nat} {size marks : Nat} {piece : Place → List Inst}
    {ways : Stand → List Stand} (hlen : ∀ p, (piece p).length = size)
    (hpiece : ∀ p, CodeAt m.program.insts p.pc (piece p) →
      Yields m Config.Roomy groups p size marks ways) (n : Nat) (here : Place)
    (hcode : CodeAt m.program.insts here.pc (copies size marks piece n here)) :
    Yields m Config.Roomy groups here (n * size) (n * marks) (Stand.times ways n) := by
  induction n generalizing here with
  | zero =>
    intro c s hstart _
    exact delivers_stay hstart.shows (by simp [hstart.pc])
  | succ n ih =>
    intro c s hstart hroom
    have hmarks := hstart.marks
    rw [Nat.succ_mul] at hmarks
    have hstop : here.mark + (n + 1) * marks = here.mark + marks + n * marks := by
      rw [Nat.succ_mul]
      omega
    have hexit : here.pc + (n + 1) * size = here.pc + size + n * size := by
      rw [Nat.succ_mul]
      omega
    rw [hstop, hexit]
    have hfirst := hpiece here hcode.left c s ⟨hstart.pc, hstart.shows, by omega⟩ hroom
    have hright := hcode.right
    rw [hlen] at hright
    refine .bind (.marks (Nat.le_refl _) (Nat.le_add_right _ _)) hfirst ?_
    intro c' t _ hx hpc hs
    have hnext := ih ⟨here.pc + size, here.mark + marks⟩ hright c' t
      ⟨hpc, hs, by rw [hx.frame.2.1]; simp only; omega⟩ (hroom.extends hx)
    exact hnext.mono (.marks (Nat.le_add_right _ _) (Nat.le_refl _))

theorem filter_eq_require (p : Stand → Bool) (ss : List Stand) :
    ss.filter p = ss.flatMap fun t => t.require (p t) := by
  induction ss with
  | nil => rfl
  | cons s ss ih =>
    rw [List.flatMap_cons, List.filter_cons, ih, Stand.require]
    split <;> rfl

/-- Between its mark and its progress check an iteration has to consume something. -/
theorem guarded_yields (hb : body.Refined m) (hc : Consecutive body.groups) (here : Place)
    (hcode : CodeAt m.program.insts here.pc
      (guarded body.groupSpan? (fun p => body.code p) here)) :
    Yields m Config.Roomy body.groups here (body.iterationSize + 2) (body.marks + 1)
      (body.advance m) := by
  intro c s hstart hroom
  have hmarks := hstart.marks
  have hcode' : CodeAt m.program.insts (here.pc + 1)
      (body.iterationCode ⟨here.pc + 1, here.mark + 1⟩ ++ [.progress here.mark]) := hcode.tail
  let c₁ := (c.setMark here.mark).next
  have hstep : m.step c = .running c₁ := by
    simp only [Machine.step, hstart.pc, hcode.head]
    rfl
  have hin : here.mark ≤ here.mark ∧ here.mark < here.mark + (body.marks + 1) := by omega
  have hx : c.Extends ⟨body.groups, here.mark, here.mark + (body.marks + 1)⟩ c₁ :=
    Config.setMark_extends (f := ⟨body.groups, here.mark, _⟩) hin c
  have hmark : c₁.marks[here.mark]? = some s.pos := by
    have hlt : here.mark < c.marks.size := by omega
    rw [← hstart.shows.pos]
    simp [c₁, Config.next, Config.setMark, hlt]
  have hroom₁ : here.mark + 1 + body.marks ≤ c₁.marks.size := by
    rw [hx.frame.2.1]
    omega
  have hiter : Delivers m (here.pc + 1 + body.iterationSize)
      ⟨body.groups, here.mark + 1, here.mark + 1 + body.marks⟩ c₁ (.running c₁) (body.once m s) :=
    iteration_yields hb hc ⟨here.pc + 1, here.mark + 1⟩ hcode'.left c₁ s
      ⟨by simp [c₁, Config.next, Config.setMark, hstart.pc],
        ⟨hstart.shows.pos, hstart.shows.captures⟩, hroom₁⟩ (hroom.extends hx)
  have hstop : here.mark + 1 + body.marks ≤ here.mark + (body.marks + 1) := by omega
  have hcheck := hcode'.right.head
  rw [Node.length_iterationCode] at hcheck
  rw [Node.advance, filter_eq_require]
  refine .of_reaches (.once hstep) (.rebase hx (Config.setMark_fail here.mark c) ?_)
  refine .bind (.marks (Nat.le_succ _) hstop) hiter ?_
  intro c₂ t _ hx₂ hpc hs
  -- The body has marks of its own, so the mark of this iteration still says where it began.
  have hmark₂ : c₂.marks[here.mark]? = some s.pos := by
    rw [hx₂.frame.2.2.2 here.mark (.inl (Nat.lt_succ_self _)), hmark]
  refine delivers_require hs ?_ ?_
  · rw [hpc]
    omega
  · have hne : (some s.pos != some t.pos) = (t.pos != s.pos) := by
      rw [bne_comm]
      rfl
    simp only [Machine.step, hpc, hcheck, hmark₂, hs.pos, hne]

variable {greedy : Bool} {exit : Nat} {c : Config} {s : Stand}

/-- A choice between an iteration with all that follows it and leaving at once. -/
theorem delivers_choice (hb : body.Refined m) (hc : Consecutive body.groups) {here : Place}
    (hcode : CodeAt m.program.insts here.pc (body.choiceCode greedy exit here)) {f : Footprint}
    (hf : Footprint.Le ⟨body.groups, here.mark, here.mark + (body.marks + 1)⟩ f)
    (hstart : Starts here (body.marks + 1) c s) (hroom : c.Roomy body.groups)
    {k : Stand → List Stand}
    (hk : ∀ c' t, t ∈ body.advance m s → c.Extends f c' →
      c'.pc = here.pc + (body.iterationSize + 3) → Shows c' t →
        Delivers m exit f c' (.running c') (k t)) :
    Delivers m exit f c (.running c)
      (if greedy then (body.advance m s).flatMap k ++ [s]
        else s :: (body.advance m s).flatMap k) := by
  have hinst := hcode.head
  -- Both ways leave slots and marks as they are, so an iteration can begin on either.
  have hmore : ∀ c', c'.pc = here.pc + 1 → c'.pos = c.pos → c'.slots = c.slots →
      c'.marks = c.marks → c.Extends f c' →
        Delivers m exit f c' (.running c') ((body.advance m s).flatMap k) := by
    intro c' hpc hpos hslots hmarks hx
    have hiter := guarded_yields hb hc { here with pc := here.pc + 1 } hcode.tail c' s
      ⟨hpc, ⟨hpos.trans hstart.shows.pos, hslots ▸ hstart.shows.captures⟩, hmarks ▸ hstart.marks⟩
      (hroom.extends hx)
    refine .bind hf hiter ?_
    intro c'' t ht hx' hpc' hs
    exact hk c'' t ht (hx.trans (hx'.mono hf)) (by simp only [hpc']; omega) hs
  cases greedy with
  | true =>
    let c₁ : Config := { c with pc := here.pc + 1, stack := .choice exit c.pos :: c.stack }
    have hstep : m.step c = .running c₁ := by
      simp only [Machine.step, hstart.pc, hinst, branch]
      rfl
    have hx : c.Extends f c₁ := ⟨[.choice exit c.pos], rfl, by simp [Entry.Within], rfl⟩
    have hleave : Delivers m exit f c c₁.fail [s] :=
      .single (.refl _) rfl ⟨hstart.shows.pos, hstart.shows.captures⟩ (.refl f c) rfl
    exact .of_reaches (.once hstep) ((hmore c₁ rfl rfl rfl rfl hx).append hx hleave)
  | false =>
    let c₁ : Config := { c with pc := exit, stack := .choice (here.pc + 1) c.pos :: c.stack }
    let c₂ : Config := { c with pc := here.pc + 1 }
    have hstep : m.step c = .running c₁ := by
      simp only [Machine.step, hstart.pc, hinst, branch]
      rfl
    have hx : c.Extends f c₁ := ⟨[.choice (here.pc + 1) c.pos], rfl, by simp [Entry.Within], rfl⟩
    have hx₂ : c.Extends f c₂ := .refl f c
    have hrest : Delivers m exit f c c₁.fail ((body.advance m s).flatMap k) :=
      .rebase hx₂ rfl (hmore c₂ rfl rfl rfl rfl hx₂)
    exact .some _ c₁ s _ (.once hstep) rfl ⟨hstart.shows.pos, hstart.shows.captures⟩ hx hrest

/-- A number of optional iterations, all of which leave for the end of the last. -/
theorem delivers_optional (hb : body.Refined m) (hc : Consecutive body.groups) (n : Nat)
    {here : Place} (hcode : CodeAt m.program.insts here.pc
      (copies (body.iterationSize + 3) (body.marks + 1) (body.choiceCode greedy exit) n here))
    (hexit : exit = here.pc + n * (body.iterationSize + 3))
    (hstart : Starts here (n * (body.marks + 1)) c s) (hroom : c.Roomy body.groups) :
    Delivers m exit ⟨body.groups, here.mark, here.mark + n * (body.marks + 1)⟩ c (.running c)
      (Stand.upTo greedy (body.once m) n s) := by
  induction n generalizing here c s with
  | zero => exact delivers_stay hstart.shows (by rw [hstart.pc, hexit]; simp)
  | succ n ih =>
    have hmarks := hstart.marks
    rw [Nat.succ_mul] at hmarks
    have hstop : here.mark + (n + 1) * (body.marks + 1) =
        here.mark + (body.marks + 1) + n * (body.marks + 1) := by
      rw [Nat.succ_mul]
      omega
    have hexit' : exit = here.pc + (body.iterationSize + 3) + n * (body.iterationSize + 3) := by
      rw [hexit, Nat.succ_mul]
      omega
    have hright := hcode.right
    rw [Node.length_choiceCode] at hright
    rw [hstop]
    refine delivers_choice hb hc hcode.left (.marks (Nat.le_refl _) (Nat.le_add_right _ _))
      ⟨hstart.pc, hstart.shows, by omega⟩ hroom ?_
    intro c' t _ hx hpc hs
    have hmarks := hx.frame.2.1
    have hnext := ih hright hexit' ⟨hpc, hs, by rw [hmarks]; simp only; omega⟩ (hroom.extends hx)
    exact hnext.mono (.marks (Nat.le_add_right _ _) (Nat.le_refl _))

/-- Optional iterations without an upper bound, each of which leads back to the choice. -/
theorem delivers_loop (hb : body.Refined m) (hc : Consecutive body.groups) {here : Place}
    (hcode : CodeAt m.program.insts here.pc
      (body.choiceCode greedy (here.pc + body.iterationSize + 4) here ++ [.jump here.pc]))
    (hstart : Starts here (body.marks + 1) c s) (hroom : c.Roomy body.groups) :
    Delivers m (here.pc + body.iterationSize + 4)
      ⟨body.groups, here.mark, here.mark + (body.marks + 1)⟩ c (.running c)
      (Stand.upTo greedy (body.once m) (m.input.size - s.pos) s) := by
  have hjump := hcode.right.head
  rw [Node.length_choiceCode] at hjump
  -- Every iteration consumes something, so the induction is on what is left of the text.
  induction hleft : m.input.size - s.pos using Nat.strongRecOn generalizing c s with
  | _ left ih =>
    subst hleft
    rw [Stand.upTo_unbounded (Node.once_ahead m body)]
    refine delivers_choice hb hc hcode.left (.marks (Nat.le_refl _) (Nat.le_refl _)) hstart hroom ?_
    intro c' t ht hx hpc hs
    have hpos := Stand.ahead_of_progress (Node.once_ahead m body) ht
    have hback : m.step c' = .running { c' with pc := here.pc } := by
      simp only [Machine.step, hpc, hjump]
    have hx' : c'.Extends ⟨body.groups, here.mark, here.mark + (body.marks + 1)⟩
      { c' with pc := here.pc } := .refl _ c'
    refine .of_reaches (.once hback) (.rebase hx' rfl ?_)
    exact ih (m.input.size - t.pos) (by omega)
      ⟨rfl, ⟨hs.pos, hs.captures⟩, hx.frame.2.1 ▸ hstart.marks⟩ (hroom.extends hx) rfl

end Iterations
end VbaWorkbench.Pattern
