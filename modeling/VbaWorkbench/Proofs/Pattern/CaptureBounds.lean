import VbaWorkbench.Proofs.Pattern.Outcomes
import VbaWorkbench.Proofs.Pattern.Subtrees

namespace VbaWorkbench.Pattern

/-- A group stands inside a lookahead. -/
def Node.InLookahead (node : Node) (g : Nat) : Prop :=
  ∃ negated body, lookahead negated body ∈ node.subtrees ∧ g ∈ body.groups

/-- A span that was set on the way from one position to a later one. It may end behind the later one
only where somebody has looked ahead. -/
structure Machine.Spans (m : Machine) (looked : Prop) (before now start stop : Nat) : Prop where
  after : before ≤ start
  ordered : start ≤ stop
  inside : stop ≤ before ∨ stop ≤ m.input.size
  passed : looked ∨ stop ≤ now

/-- A match goes from one stand to another and sets and clears none but these groups. -/
structure Stand.Leads (m : Machine) (groups : List Nat) (looked : Nat → Prop) (s t : Stand) :
    Prop where
  ahead : Ahead m s t
  captures : ∀ g, t.captures g = s.captures g ∨
    g ∈ groups ∧ ∀ start stop, t.captures g = some (start, stop) →
      m.Spans (looked g) s.pos t.pos start stop

namespace Stand

variable {m : Machine} {groups groups' : List Nat} {looked : Nat → Prop} {s t u : Stand}

theorem Ahead.le (h : Ahead m s t) : s.pos ≤ t.pos := by
  unfold Ahead at h
  omega

namespace Leads

/-- Where no group is written. -/
theorem of_captures (ha : Ahead m s t) (h : t.captures = s.captures) : Leads m groups looked s t :=
  ⟨ha, fun g => .inl (congrFun h g)⟩

theorem refl (s : Stand) : Leads m groups looked s s :=
  .of_captures (.refl m s) rfl

theorem trans (h : Leads m groups looked s t) (h' : Leads m groups looked t u) :
    Leads m groups looked s u where
  ahead := h.ahead.trans h'.ahead
  captures := by
    intro g
    have hst := h.ahead.le
    have htu := h'.ahead.le
    rcases h'.captures g with hu | ⟨hg, hu⟩
    · rcases h.captures g with ht | ⟨hg, ht⟩
      · exact .inl (hu.trans ht)
      · refine .inr ⟨hg, fun start stop hc => ?_⟩
        have hspan := ht start stop (hu ▸ hc)
        exact ⟨hspan.after, hspan.ordered, hspan.inside,
          hspan.passed.imp_right (Nat.le_trans · htu)⟩
    · refine .inr ⟨hg, fun start stop hc => ?_⟩
      have hspan := hu start stop hc
      have hinside : stop ≤ s.pos ∨ stop ≤ m.input.size := by
        have := hspan.inside
        have := h.ahead
        unfold Ahead at this
        omega
      exact ⟨Nat.le_trans hst hspan.after, hspan.ordered, hinside, hspan.passed⟩

theorem mono (hg : ∀ g ∈ groups, g ∈ groups') (h : Leads m groups looked s t) :
    Leads m groups' looked s t :=
  ⟨h.ahead, fun g => (h.captures g).imp_right fun ⟨hm, hc⟩ => ⟨hg g hm, hc⟩⟩

/-- An iteration begins without the captures of earlier ones. -/
theorem of_clear (h : Leads m groups looked (s.clear groups) t) : Leads m groups looked s t where
  ahead := h.ahead
  captures := by
    intro g
    rcases h.captures g with hc | hc
    · by_cases hg : g ∈ groups
      · have hnone : t.captures g = none := hc.trans (if_pos hg)
        exact .inr ⟨hg, fun start stop hspan => by simp [hnone] at hspan⟩
      · exact .inl (hc.trans (if_neg hg))
    · exact .inr hc

/-- A group that is left spans what its body has consumed. -/
theorem capture (h : Leads m groups looked s t) (index : Nat) :
    Leads m (index :: groups) looked s (t.capture index s.pos) where
  ahead := h.ahead
  captures := by
    intro g
    have hst := h.ahead.le
    by_cases hg : g = index
    · refine .inr ⟨by simp [hg], fun start stop hc => ?_⟩
      obtain ⟨rfl, rfl⟩ : s.pos = start ∧ t.pos = stop := by simpa [Stand.capture, hg] using hc
      have hinside : t.pos ≤ s.pos ∨ t.pos ≤ m.input.size := by
        have := h.ahead
        unfold Ahead at this
        omega
      exact ⟨Nat.le_refl _, hst, hinside, .inr (Nat.le_refl _)⟩
    · have hsame : (t.capture index s.pos).captures g = t.captures g := if_neg hg
      rw [hsame]
      exact (h.captures g).imp_right fun ⟨hm, hc⟩ => ⟨List.mem_cons_of_mem _ hm, hc⟩

/-- The captures of a lookahead stay where it has looked. -/
theorem look (hl : ∀ g ∈ groups, looked g) (h : Leads m groups looked s t) :
    Leads m groups looked s { t with pos := s.pos } where
  ahead := .inl rfl
  captures := by
    intro g
    refine (h.captures g).imp_right fun ⟨hm, hc⟩ => ⟨hm, fun start stop hspan => ?_⟩
    have hold := hc start stop hspan
    exact ⟨hold.after, hold.ordered, hold.inside, .inl (hl g hm)⟩

end Leads

theorem leads_of_consume {p : Char → Bool} (h : t ∈ s.consume m p) : Leads m groups looked s t := by
  refine .of_captures (ahead_of_consume h) ?_
  unfold consume at h
  split at h
  · obtain rfl := List.mem_singleton.mp h
    rfl
  · simp at h

theorem leads_of_require {holds : Bool} (h : t ∈ s.require holds) : Leads m groups looked s t := by
  unfold require at h
  split at h
  · obtain rfl := List.mem_singleton.mp h
    exact .refl t
  · simp at h

theorem leads_of_repeatGroup {group : Nat} (h : t ∈ s.repeatGroup m group) :
    Leads m groups looked s t := by
  refine .of_captures (ahead_of_repeatGroup h) ?_
  unfold repeatGroup at h
  split at h
  · obtain rfl := List.mem_singleton.mp h
    rfl
  · split at h
    · obtain rfl := List.mem_singleton.mp h
      rfl
    · simp at h

theorem leads_of_look {negated : Bool} {inside : List Stand} (hl : ∀ g ∈ groups, looked g)
    (hi : ∀ u ∈ inside, Leads m groups looked s u) (h : t ∈ s.look negated inside) :
    Leads m groups looked s t := by
  unfold Stand.look at h
  split at h
  · obtain rfl := List.mem_singleton.mp h
    exact (hi _ List.mem_cons_self).look hl
  · obtain rfl := List.mem_singleton.mp h
    exact .refl t
  · simp at h

end Stand

namespace Node

mutual
/-- A node sets none but its own groups, between where it begins and where it ends. -/
theorem outcomes_leads (m : Machine) (node : Node) {looked : Nat → Prop}
    (hl : ∀ negated body, lookahead negated body ∈ node.subtrees → ∀ g ∈ body.groups, looked g)
    (s t : Stand) (h : t ∈ node.outcomes m s) : Stand.Leads m node.groups looked s t := by
  match node with
  | empty =>
    obtain rfl := List.mem_singleton.mp h
    exact .refl t
  | char _ | any | charClass _ => exact Stand.leads_of_consume h
  | lineStart | lineEnd | wordBoundary _ => exact Stand.leads_of_require h
  | backref _ => exact Stand.leads_of_repeatGroup h
  | .group index body =>
    obtain ⟨u, hu, rfl⟩ := List.mem_map.mp h
    have hbody := outcomes_leads m body (fun n b hb => hl n b (List.mem_cons_of_mem _ hb)) s u hu
    exact hbody.capture index
  | lookahead negated body =>
    have hb := outcomes_leads m body (fun n b hb => hl n b (List.mem_cons_of_mem _ hb)) s
    exact Stand.leads_of_look (hl negated body List.mem_cons_self) hb h
  | repeated min max greedy offset body =>
    have hb : ∀ u t, t ∈ body.outcomes m (u.clear body.groups) →
        Stand.Leads m body.groups looked s u → Stand.Leads m body.groups looked s t := by
      intro u t ht hu
      have hbody := outcomes_leads m body (fun n b hb => hl n b (List.mem_cons_of_mem _ hb)) _ t ht
      exact hu.trans hbody.of_clear
    obtain ⟨u, hu, ht⟩ := List.mem_flatMap.mp h
    exact Stand.upTo_keeps hb _ u t ht (Stand.times_keeps hb min s u hu (.refl s))
  | concat nodes =>
    exact outcomesAll_leads m nodes (fun n b hb => hl n b (List.mem_cons_of_mem _ hb)) s t h
  | alternate branches =>
    exact outcomesAny_leads m branches (fun n b hb => hl n b (List.mem_cons_of_mem _ hb)) s t h

theorem outcomesAll_leads (m : Machine) (nodes : List Node) {looked : Nat → Prop}
    (hl : ∀ negated body, lookahead negated body ∈ subtreesAll nodes → ∀ g ∈ body.groups, looked g)
    (s t : Stand) (h : t ∈ outcomesAll m nodes s) :
    Stand.Leads m (groupsAll nodes) looked s t := by
  match nodes with
  | [] =>
    obtain rfl := List.mem_singleton.mp h
    exact .refl t
  | node :: nodes =>
    obtain ⟨u, hu, ht⟩ := List.mem_flatMap.mp h
    have hfirst := outcomes_leads m node (fun n b hb => hl n b (List.mem_append_left _ hb)) s u hu
    have hrest :=
      outcomesAll_leads m nodes (fun n b hb => hl n b (List.mem_append_right _ hb)) u t ht
    exact (hfirst.mono fun _ => List.mem_append_left _).trans
      (hrest.mono fun _ => List.mem_append_right _)

theorem outcomesAny_leads (m : Machine) (branches : List Node) {looked : Nat → Prop}
    (hl : ∀ negated body, lookahead negated body ∈ subtreesAll branches →
      ∀ g ∈ body.groups, looked g)
    (s t : Stand) (h : t ∈ outcomesAny m branches s) :
    Stand.Leads m (groupsAll branches) looked s t := by
  match branches with
  | [] => simp [outcomesAny] at h
  | node :: nodes =>
    rcases List.mem_append.mp h with h | h
    · have hfirst := outcomes_leads m node (fun n b hb => hl n b (List.mem_append_left _ hb)) s t h
      exact hfirst.mono fun _ => List.mem_append_left _
    · have hrest :=
        outcomesAny_leads m nodes (fun n b hb => hl n b (List.mem_append_right _ hb)) s t h
      exact hrest.mono fun _ => List.mem_append_right _
end

/-- A match that begins at a position of the text ends at one, and so does every group in it. -/
theorem outcome_inside {m : Machine} {node : Node} {start : Nat} {t : Stand}
    (hs : start ≤ m.input.size) (h : t ∈ node.outcomes m (.initial start)) :
    start ≤ t.pos ∧ t.pos ≤ m.input.size ∧ ∀ g a b, t.captures g = some (a, b) →
      start ≤ a ∧ a ≤ b ∧ b ≤ m.input.size ∧ (¬ node.InLookahead g → b ≤ t.pos) := by
  have hleads := outcomes_leads m node
    (show ∀ negated body, lookahead negated body ∈ node.subtrees → ∀ g ∈ body.groups,
      node.InLookahead g from fun negated body hb g hg => ⟨negated, body, hb, hg⟩) _ t h
  have hpos := hleads.ahead
  unfold Stand.Ahead at hpos
  simp only [Stand.initial] at hpos
  refine ⟨by omega, by omega, fun g a b hc => ?_⟩
  rcases hleads.captures g with hnone | ⟨-, hspan⟩
  · rw [hnone] at hc
    cases hc
  · obtain ⟨hafter, hordered, hinside, hpassed⟩ := hspan a b hc
    simp only [Stand.initial] at hafter hinside
    exact ⟨hafter, hordered, by omega, hpassed.resolve_left⟩

end Node
end VbaWorkbench.Pattern
