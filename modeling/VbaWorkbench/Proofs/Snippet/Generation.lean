import VbaWorkbench.Proofs.Lookup
import VbaWorkbench.Proofs.Results
import VbaWorkbench.Snippet.Document

namespace VbaWorkbench.Snippet

namespace Fragment

mutual
/-- The text of a fragment if every marker on the branches taken finds its value, and every
conditional its flag. -/
def render? (values : Values) : Fragment → Option Text
  | text t => some t
  | value name => (values.lookup name).map Resolved.render
  | conditional flag negated chosen other =>
    match values.lookup flag with
    | some (.flag b) => if b != negated then renderAll? values chosen else renderAll? values other
    | _ => none

def renderAll? (values : Values) : List Fragment → Option Text
  | [] => some []
  | f :: fs => (f.render? values).bind fun t => (renderAll? values fs).map (t ++ ·)
end

end Fragment

/-- Every placeholder of the template has a value, and a flag if it is a condition. -/
def Template.Covered (t : Template) (values : Fragment.Values) : Prop :=
  ∀ name p, t.placeholder? name = some p →
    ∃ r, values.lookup name = some r ∧ (p.kind = .boolean → ∃ b, r = .flag b)

namespace Fragment

-- By induction on the fragments: what refers to placeholders of the right kinds is rendered whole.
mutual
theorem render?_eq {t : Template} {values : Values} (hvalues : t.Covered values) :
    (f : Fragment) → f.flaw? t = none → f.render? values = some (f.render values)
  | text u, _ => by rw [render?, render]
  | value name, h => by
    cases hp : t.placeholder? name with
    | none => simp [flaw?, hp] at h
    | some p =>
      obtain ⟨r, hr, -⟩ := hvalues name p hp
      rw [render?, render, hr]
      rfl
  | conditional flag negated chosen other, h => by
    cases hp : t.placeholder? flag with
    | none => simp [flaw?, hp] at h
    | some p =>
      obtain ⟨r, hr, hflag⟩ := hvalues flag p hp
      rw [flaw?, hp] at h
      dsimp only at h
      by_cases hkind : p.kind = .boolean
      · rw [if_pos hkind, Option.or_eq_none_iff] at h
        obtain ⟨b, rfl⟩ := hflag hkind
        have hset : (values.lookup flag == some (.flag true)) = b := by
          rw [hr]
          cases b <;> rfl
        rw [render?, render, hset, hr]
        dsimp only
        split
        · exact renderAll?_eq hvalues chosen h.1
        · exact renderAll?_eq hvalues other h.2
      · rw [if_neg hkind] at h
        cases h

theorem renderAll?_eq {t : Template} {values : Values} (hvalues : t.Covered values) :
    (fs : List Fragment) → firstFlaw? t fs = none → renderAll? values fs = some (renderAll values fs)
  | [], _ => by rw [renderAll?, renderAll]
  | f :: fs, h => by
    rw [firstFlaw?, Option.or_eq_none_iff] at h
    rw [renderAll?, renderAll, render?_eq hvalues f h.1, renderAll?_eq hvalues fs h.2]
    rfl
end

end Fragment

namespace Placeholder

theorem resolve_boolean {p : Placeholder} {v : Value} {r : Resolved} (hkind : p.kind = .boolean)
    (h : p.resolve v = .ok r) : ∃ b, r = .flag b := by
  rw [resolve, hkind] at h
  cases v with
  | text u =>
    simp only [resolveBoolean] at h
    split at h
    · exact ⟨true, (Except.ok.inj h).symm⟩
    · split at h
      · exact ⟨false, (Except.ok.inj h).symm⟩
      · cases h
  | integer n => cases h
  | boolean b => exact ⟨b, (Except.ok.inj h).symm⟩

/-- The caller's value for the placeholder, or else its default. -/
def given? (parameters : Parameters) (p : Placeholder) : Option Value :=
  (parameters.lookup p.name).or p.default

/-- The placeholder is given a value that it takes. -/
def Suited (parameters : Parameters) (p : Placeholder) : Prop :=
  ∃ v r, p.given? parameters = some v ∧ p.resolve v = .ok r

theorem resolve_default {p : Placeholder} {v : Value} (h : p.flaw? = none)
    (hv : p.default = some v) : ∃ r, p.resolve v = .ok r := by
  cases hr : p.resolve v with
  | ok r => exact ⟨r, rfl⟩
  | error c =>
    rw [flaw?, hv, Option.map_some, hr] at h
    split at h
    · cases h
    · split at h <;> cases h

theorem flaw?_of_firstFlaw? {seen : List Text} {ps : List Placeholder}
    (h : firstFlaw? seen ps = none) : ∀ p ∈ ps, p.flaw? = none := by
  induction ps generalizing seen with
  | nil => simp
  | cons q ps ih =>
    rw [firstFlaw?] at h
    split at h
    · cases h
    · obtain ⟨hq, hps⟩ := Option.or_eq_none_iff.mp h
      exact List.forall_mem_cons.mpr ⟨hq, ih hps⟩

end Placeholder

section Resolve

variable {parameters : Parameters} {ps : List Placeholder}

/-- Resolving goes through the placeholders in order, up to the first one that has no value or does
not take the one it has. -/
theorem resolveAll_cases (parameters : Parameters) (ps : List Placeholder) :
    (∃ values, resolveAll parameters ps = .ok values ∧ ∀ p ∈ ps, p.Suited parameters) ∨
    ∃ before p after, ps = before ++ p :: after ∧ (∀ q ∈ before, q.Suited parameters) ∧
      ((p.given? parameters = none ∧ resolveAll parameters ps = .error (.missing p.name)) ∨
        ∃ v c, p.given? parameters = some v ∧ p.resolve v = .error c ∧
          resolveAll parameters ps = .error (.invalidValue p.name c)) := by
  induction ps with
  | nil => exact .inl ⟨[], rfl, by simp⟩
  | cons p ps ih =>
    cases hgiven : p.given? parameters with
    | none =>
      refine .inr ⟨[], p, ps, rfl, by simp, .inl ⟨hgiven, ?_⟩⟩
      rw [resolveAll, show (parameters.lookup p.name).or p.default = none from hgiven]
    | some v =>
      have hvalue : (parameters.lookup p.name).or p.default = some v := hgiven
      cases hr : p.resolve v with
      | error c =>
        refine .inr ⟨[], p, ps, rfl, by simp, .inr ⟨v, c, hgiven, hr, ?_⟩⟩
        simp only [resolveAll, hvalue, hr]
      | ok r =>
        have hstep : resolveAll parameters (p :: ps) =
            (resolveAll parameters ps).map ((p.name, r) :: ·) := by
          simp only [resolveAll, hvalue, hr]
        have hsuited : p.Suited parameters := ⟨v, r, hgiven, hr⟩
        rw [hstep]
        rcases ih with ⟨values, hok, hall⟩ | ⟨before, q, after, hps, hbefore, herror⟩
        · rw [hok]
          exact .inl ⟨_, rfl, List.forall_mem_cons.mpr ⟨hsuited, hall⟩⟩
        · refine .inr ⟨p :: before, q, after, by rw [hps]; rfl,
            List.forall_mem_cons.mpr ⟨hsuited, hbefore⟩, ?_⟩
          rcases herror with ⟨hnone, he⟩ | ⟨v', c, hv', hr', he⟩
          · rw [he]
            exact .inl ⟨hnone, rfl⟩
          · rw [he]
            exact .inr ⟨v', c, hv', hr', rfl⟩

/-- The value under a name is that of the first placeholder with the name. -/
theorem lookup_of_resolveAll {values : Fragment.Values} (h : resolveAll parameters ps = .ok values)
    {name : Text} {p : Placeholder} (hp : ps.find? (·.name == name) = some p) :
    ∃ v r, p.resolve v = .ok r ∧ values.lookup name = some r := by
  induction ps generalizing values with
  | nil => cases hp
  | cons q ps ih =>
    rw [resolveAll] at h
    split at h
    · cases h
    · rename_i v _
      split at h
      · cases h
      · rename_i r hr
        obtain ⟨rest, hrest, rfl⟩ := ok_of_map h
        rw [List.find?_cons] at hp
        rw [List.lookup_cons, BEq.comm]
        cases hname : q.name == name with
        | true =>
          rw [hname] at hp
          obtain rfl := Option.some.inj hp
          exact ⟨v, r, hr, rfl⟩
        | false =>
          rw [hname] at hp
          exact ih hrest hp

/-- Only the values under the names of placeholders matter. -/
theorem resolveAll_congr {parameters' : Parameters}
    (h : ∀ p ∈ ps, parameters'.lookup p.name = parameters.lookup p.name) :
    resolveAll parameters' ps = resolveAll parameters ps := by
  induction ps with
  | nil => rfl
  | cons p ps ih =>
    obtain ⟨hp, hps⟩ := List.forall_mem_cons.mp h
    rw [resolveAll, resolveAll, hp, ih hps]

end Resolve

theorem Template.covered_of_resolveAll {t : Template} {parameters : Parameters}
    {values : Fragment.Values} (h : resolveAll parameters t.placeholders = .ok values) :
    t.Covered values := by
  intro name p hp
  obtain ⟨v, r, hr, hlookup⟩ := lookup_of_resolveAll h hp
  exact ⟨r, hlookup, fun hkind => Placeholder.resolve_boolean hkind hr⟩

/-- What is checked before a template is used. -/
theorem Template.prepare_ok {t : Template} {fs : List Fragment} (h : t.prepare = .ok fs) :
    (∀ p ∈ t.placeholders, p.flaw? = none) ∧ Fragment.firstFlaw? t fs = none := by
  rw [prepare] at h
  split at h
  · cases h
  · rename_i hplaceholders
    split at h
    · cases h
    · split at h
      · cases h
      · rename_i hfragments
        obtain rfl := Except.ok.inj h
        exact ⟨Placeholder.flaw?_of_firstFlaw? hplaceholders, hfragments⟩

namespace Registry

/-- The templates of a registry are all prepared, in order and under ids of their own. -/
theorem prepareAll_ok {seen : List Text} {ts : List Template} {prepared : List Prepared}
    (h : prepareAll seen ts = .ok prepared) :
    (∀ p ∈ prepared, p.template.prepare = .ok p.fragments ∧ p.template.id ∉ seen) ∧
      Keyed (·.template.id) prepared := by
  induction ts generalizing seen prepared with
  | nil =>
    obtain rfl := Except.ok.inj h
    exact ⟨by simp, List.Pairwise.nil⟩
  | cons t ts ih =>
    change (if t.id ∈ seen then _ else _) = _ at h
    split at h
    · cases h
    · rename_i hid
      split at h
      · cases h
      · rename_i fs hfs
        obtain ⟨rest, hrest, rfl⟩ := ok_of_map h
        obtain ⟨hall, hkeyed⟩ := ih hrest
        refine ⟨List.forall_mem_cons.mpr ⟨⟨hfs, hid⟩, fun p hp => ?_⟩,
          List.pairwise_cons.mpr ⟨fun p hp he => ?_, hkeyed⟩⟩
        · obtain ⟨hp, hseen⟩ := hall p hp
          exact ⟨hp, fun hmem => hseen (List.mem_cons_of_mem _ hmem)⟩
        · have hid' : t.id = p.template.id := he
          exact (hall p hp).2 (hid' ▸ List.mem_cons_self)

theorem ofText_ok {text : Text} {r : Registry} (h : ofText text = .ok r) :
    (∀ p ∈ r.prepared, p.template.prepare = .ok p.fragments) ∧
      Keyed (·.template.id) r.prepared := by
  rw [ofText] at h
  split at h
  · cases h
  · rename_i ts _
    obtain ⟨prepared, hall, rfl⟩ := ok_of_map h
    obtain ⟨hprepared, hkeyed⟩ := prepareAll_ok hall
    exact ⟨fun p hp => (hprepared p hp).1, hkeyed⟩

end Registry

/-- What may come of a template with a caller's parameters: the first placeholder in order that has
no value, or that does not take the value the caller gives it, or else a text for which every marker
on the branches taken found its value and every conditional its flag. -/
inductive Template.Gives (t : Template) (parameters : Parameters) :
    Except GenerationError Text → Prop
  | missing {before after : List Placeholder} {p : Placeholder}
      (placeholders : t.placeholders = before ++ p :: after)
      (suited : ∀ q ∈ before, q.Suited parameters)
      (absent : parameters.lookup p.name = none) (noDefault : p.default = none) :
      t.Gives parameters (.error (.missing p.name))
  | invalid {before after : List Placeholder} {p : Placeholder} {v : Value} {c : Constraint}
      (placeholders : t.placeholders = before ++ p :: after)
      (suited : ∀ q ∈ before, q.Suited parameters)
      (supplied : parameters.lookup p.name = some v) (refused : p.resolve v = .error c) :
      t.Gives parameters (.error (.invalidValue p.name c))
  | text {fragments : List Fragment} {values : Fragment.Values} {out : Text}
      (prepared : t.prepare = .ok fragments)
      (suited : ∀ p ∈ t.placeholders, p.Suited parameters)
      (resolved : resolveAll parameters t.placeholders = .ok values)
      (rendered : Fragment.renderAll? values fragments = some out) :
      t.Gives parameters (.ok out)

/-- A template that was prepared leaves nothing to chance. -/
theorem Template.gives_of_prepare {t : Template} {fs : List Fragment} (h : t.prepare = .ok fs)
    (parameters : Parameters) :
    t.Gives parameters
      ((resolveAll parameters t.placeholders).map fun values => Fragment.renderAll values fs) := by
  obtain ⟨hsound, hfragments⟩ := Template.prepare_ok h
  rcases resolveAll_cases parameters t.placeholders with
    ⟨values, hok, hall⟩ | ⟨before, p, after, hsplit, hbefore, ⟨hnone, he⟩ | ⟨v, c, hv, hr, he⟩⟩
  · rw [hok]
    exact .text h hall hok (Fragment.renderAll?_eq (covered_of_resolveAll hok) fs hfragments)
  · obtain ⟨habsent, hdefault⟩ := Option.or_eq_none_iff.mp hnone
    rw [he]
    exact .missing hsplit hbefore habsent hdefault
  · rw [he]
    refine .invalid hsplit hbefore ?_ hr
    cases hlookup : parameters.lookup p.name with
    | some u =>
      rw [Placeholder.given?, hlookup] at hv
      exact hv
    | none =>
      -- A default was tried when the template was prepared.
      rw [Placeholder.given?, hlookup, Option.none_or] at hv
      have hp : p ∈ t.placeholders := by
        rw [hsplit]
        simp
      obtain ⟨r, hr'⟩ := Placeholder.resolve_default (hsound p hp) hv
      rw [hr'] at hr
      cases hr

/-- Every template of a registry that was read gives a whole text or reports the first placeholder
that keeps it from doing so, and what the caller says about other names changes nothing. -/
theorem generate_gives {text : Text} {r : Registry} (h : Registry.ofText text = .ok r)
    {t : Template} (ht : t ∈ r.templates) (parameters : Parameters) :
    t.Gives parameters (r.generate t.id parameters) ∧
    ∀ parameters' : Parameters,
      (∀ p ∈ t.placeholders, parameters'.lookup p.name = parameters.lookup p.name) →
        r.generate t.id parameters' = r.generate t.id parameters := by
  obtain ⟨hprepared, hkeyed⟩ := Registry.ofText_ok h
  obtain ⟨p, hp, rfl⟩ := List.mem_map.mp ht
  have hfind : r.find? p.template.id = some p := hkeyed.find?_eq_some.mpr ⟨hp, rfl⟩
  have hgenerate : ∀ parameters, r.generate p.template.id parameters =
      (resolveAll parameters p.template.placeholders).map fun values =>
        Fragment.renderAll values p.fragments := by
    intro parameters
    rw [Registry.generate, hfind]
  constructor
  · rw [hgenerate]
    exact Template.gives_of_prepare (hprepared p hp) parameters
  · intro parameters' hsame
    rw [hgenerate, hgenerate, resolveAll_congr hsame]

theorem generate_gives_greeting :
    let body := "\x7b\x7b#if loud\x7d\x7d\x7b\x7bwho\x7d\x7d!\x7b\x7belse\x7d\x7d.\x7b\x7b/if\x7d\x7d"
    let text := "- id: greet\n  version: 1\n  placeholders:\n  - name: who\n    kind: identifier\n" ++
      "    default: you\n  - name: loud\n    kind: boolean\n  body: \"" ++ body ++ "\"\n"
    let t : Template := ⟨"greet".toList, "1".toList, [],
      [⟨"who".toList, .identifier, some (.text "you".toList), [], none, none⟩,
        ⟨"loud".toList, .boolean, none, [], none, none⟩], body.toList⟩
    ∃ r, Registry.ofText text.toList = .ok r ∧ t ∈ r.templates ∧
      t.Gives [] (.error (.missing "loud".toList)) ∧
      t.Gives [("loud".toList, .text "TRUE".toList)] (.ok "you!".toList) ∧
      r.generate "greet".toList
          [("other".toList, .integer 1), ("loud".toList, .text "TRUE".toList)] =
        r.generate "greet".toList [("loud".toList, .text "TRUE".toList)] := by
  intro body text t
  have hread : ((Registry.ofText text.toList).toOption.map fun r =>
      (r.templates, r.generate t.id [],
        r.generate t.id [("loud".toList, .text "TRUE".toList)])) =
      some ([t], .error (.missing "loud".toList), .ok "you!".toList) := by
    decide +kernel
  obtain ⟨r, hr, hall⟩ := Option.map_eq_some_iff.mp hread
  obtain ⟨htemplates, hall⟩ := Prod.mk.inj hall
  obtain ⟨hmissing, hdone⟩ := Prod.mk.inj hall
  have hok := ok_of_toOption hr
  have hmem : t ∈ r.templates := by
    rw [htemplates]
    exact List.mem_singleton.mpr rfl
  refine ⟨r, hok, hmem, hmissing ▸ (generate_gives hok hmem []).1,
    hdone ▸ (generate_gives hok hmem _).1, (generate_gives hok hmem _).2 _ ?_⟩
  decide

end VbaWorkbench.Snippet
