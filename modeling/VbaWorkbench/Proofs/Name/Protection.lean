import VbaWorkbench.Proofs.Name.Renames

namespace VbaWorkbench

namespace Declaration

/-- The declaration as if no mention had said anything of its type. -/
def untyped (d : Declaration) : Declaration :=
  { d with tag := none, conflicting := false }

theorem any_untyped (ds : List Declaration) (k : Text) :
    (ds.map untyped).any (·.key == k) = ds.any (·.key == k) := by
  rw [List.any_map]
  rfl

/-- Apart from types, a mention says something new only about a name without a declaration. -/
theorem untyped_record (m : Mention) (ds : List Declaration) :
    (record m ds).map untyped =
      if (ds.map untyped).any (·.key == m.key) then ds.map untyped
      else ds.map untyped ++ [(ofMention m).untyped] := by
  rw [any_untyped]
  induction ds with
  | nil => rfl
  | cons d ds ih =>
    rw [record_cons, List.any_cons]
    by_cases hk : d.key = m.key
    · rw [if_pos hk, beq_iff_eq.mpr hk, Bool.true_or, if_pos rfl]
      rfl
    · rw [if_neg hk, List.map_cons, ih, beq_eq_false_iff_ne.mpr hk, Bool.false_or, List.map_cons]
      split <;> rfl

theorem untyped_foldl_record (ms : List Mention) {ds ds' : List Declaration}
    (h : ds.map untyped = ds'.map untyped) :
    (ms.foldl (fun ds m => record m ds) ds).map untyped =
      (ms.foldl (fun ds m => record m ds) ds').map untyped := by
  induction ms generalizing ds ds' with
  | nil => exact h
  | cons m ms ih =>
    apply ih
    rw [untyped_record, untyped_record, h]

/-- Apart from types, a later mention of a name says nothing. -/
theorem untyped_ofMentions {before after : List Mention} {m : Mention}
    (h : ∃ n ∈ before, n.key = m.key) :
    (ofMentions (before ++ m :: after)).map untyped =
      (ofMentions (before ++ after)).map untyped := by
  have hany : (ofMentions before).any (·.key == m.key) = true := by
    obtain ⟨n, hn, hkey⟩ := h
    obtain ⟨d, hd, hdn⟩ := exists_of_mention hn
    exact List.any_eq_true.mpr ⟨d, hd, beq_iff_eq.mpr (hdn.trans hkey)⟩
  have hrecord : (record m (ofMentions before)).map untyped = (ofMentions before).map untyped := by
    rw [untyped_record, any_untyped, hany, if_pos rfl]
  rw [ofMentions, ofMentions, List.foldl_append, List.foldl_append, List.foldl_cons]
  exact untyped_foldl_record after hrecord

end Declaration

theorem Rename.proposed_untyped {style : NameStyle} (h : style ≠ .hungarian) (d : Declaration) :
    proposed? style d.untyped = proposed? style d := by
  have hstyled : d.untyped.styled? style = d.styled? style := by
    cases style with
    | hungarian => exact absurd rfl h
    | preserve | camel | pascal => rfl
  simp only [proposed?, hstyled, h, and_false, if_false]
  rfl

namespace RenamePlan

theorem ofDeclarations_untyped {style : NameStyle} (h : style ≠ .hungarian)
    (ds : List Declaration) :
    ofDeclarations style (ds.map Declaration.untyped) = ofDeclarations style ds := by
  have hproposals : (ds.map Declaration.untyped).filterMap (Rename.proposed? style) =
      ds.filterMap (Rename.proposed? style) := by
    rw [List.filterMap_map]
    exact List.filterMap_congr fun d _ => Rename.proposed_untyped h d
  have hfree : ∀ proposals, Rename.isFree (ds.map Declaration.untyped) proposals =
      Rename.isFree ds proposals := by
    intro proposals
    funext r
    rw [Rename.isFree, Rename.isFree, Declaration.any_untyped]
  rw [ofDeclarations, ofDeclarations, hproposals, hfree]

/-- The plan keeps what the mention stands for: the letters of a member, which may change their
case, and the name of an event handler. -/
structure Spares (plan : RenamePlan) (m : Mention) : Prop where
  member : m.role = .member → ∀ name, Name.key name = Name.key m.name →
    Name.key (plan.spelled name) = Name.key name
  procedure : m.role = .procedure → '_' ∈ m.name → ∀ name, Name.key name = Name.key m.name →
    plan.renamed? name = none

theorem spares_of_renames {plan : RenamePlan} {m : Mention}
    (htargets : ∀ r ∈ plan.renames, TypeSuffix.Absent r.target)
    (hmember : m.role = .member →
      ∀ r ∈ plan.renames, r.key = Name.key m.name → r.targetKey = r.key)
    (hprocedure : m.role = .procedure → '_' ∈ m.name →
      ∀ r ∈ plan.renames, r.key ≠ Name.key m.name) : plan.Spares m where
  member := by
    intro hrole name hname
    rcases spelled_cases htargets name with hsame | ⟨r, hr, hkey, hspelled⟩
    · rw [hsame]
    · rw [hspelled, hmember hrole r hr (hkey.trans hname), hkey]
  procedure := by
    intro hrole hunderscore name hname
    refine renamed?_eq_none.mpr fun r hr => ?_
    rw [hname]
    exact hprocedure hrole hunderscore r hr

/-- A rename is proposed for a name in the role of its first mention, and under a type tag only if
every mention has that role. -/
theorem role_of_proposes {style : NameStyle} {ms : List Mention} {m : Mention} {d : Declaration}
    {r : Rename} (hm : m ∈ ms) (hd : d ∈ Declaration.ofMentions ms) (hkey : d.key = m.key)
    (hr : Rename.Proposes style d r)
    (hfirst : style = .camel ∨ style = .pascal →
      (ms.find? (·.key == m.key)).map (·.role) = some m.role) : d.role = m.role := by
  obtain ⟨first, later, hms, rfl⟩ := Declaration.mentions_of_mem hd
  rw [hkey] at hms
  rw [Declaration.foldl_merge_role]
  have hfind : ms.find? (·.key == m.key) = some first := by
    rw [← List.head?_filter, hms, List.head?_cons]
  rw [hfind, Option.map_some, Option.some.injEq] at hfirst
  cases style with
  | camel => exact hfirst (.inl rfl)
  | pascal => exact hfirst (.inr rfl)
  | preserve =>
    have htarget := hr.target
    rw [Rename.styled_preserve] at htarget
    cases htarget
  | hungarian =>
    -- A later mention in another role is a conflict, and a conflict stops the rename.
    by_contra hne
    have hmem : m ∈ first :: later := by
      rw [← hms]
      exact List.mem_filter.mpr ⟨hm, beq_self_eq_true m.key⟩
    rcases List.mem_cons.mp hmem with rfl | hmem
    · exact hne rfl
    · have hconflict : (later.foldl Declaration.merge (.ofMention first)).conflicting = true :=
        Declaration.conflicting_of_role_ne hmem (Ne.symm hne)
      rw [hr.agreed rfl] at hconflict
      cases hconflict

/-- The role of a name's first mention decides what the plan protects, and under a type tag any
later role as well. Without tags a later mention of a name makes no difference to the plan. -/
theorem first_mention_protects (style : NameStyle) (source : Text) :
    let mentions := Mention.ofLines (Line.ofTokens (tokenize source))
    let plan := ofLines style (Line.ofTokens (tokenize source))
    (∀ m ∈ mentions,
      (style = .camel ∨ style = .pascal →
        (mentions.find? (·.key == m.key)).map (·.role) = some m.role) →
      plan.Spares m) ∧
    (style ≠ .hungarian → ∀ before m after, mentions = before ++ m :: after →
      (∃ n ∈ before, n.key = m.key) →
      plan = ofDeclarations style (Declaration.ofMentions (before ++ after))) := by
  intro mentions plan
  have hplan : plan = ofDeclarations style (Declaration.ofMentions mentions) :=
    ofLines_eq style _
  have htargets : ∀ r ∈ plan.renames, TypeSuffix.Absent r.target := fun r hr => absent_target hr
  constructor
  · intro m hm hfirst
    have hkey : Name.key m.name = m.key := Mention.key_name hm
    have hrole : ∀ r ∈ plan.renames, r.key = Name.key m.name →
        ∃ d, Rename.Proposes style d r ∧ d.key = m.key ∧ d.role = m.role := by
      intro r hr hrm
      rw [hplan] at hr
      obtain ⟨d, hd, hproposes⟩ := proposes_of_mem hr
      have hdm : d.key = m.key := hproposes.key.symm.trans (hrm.trans hkey)
      exact ⟨d, hproposes, hdm, role_of_proposes hm hd hdm hproposes hfirst⟩
    refine spares_of_renames htargets ?_ ?_
    · intro hmember r hr hrm
      obtain ⟨d, hproposes, -, hd⟩ := hrole r hr hrm
      rw [hproposes.member (hd.trans hmember), hproposes.key]
    · intro hprocedure hunderscore r hr hrm
      obtain ⟨d, hproposes, hdm, hd⟩ := hrole r hr hrm
      have hkept : '_' ∈ Text.lowercase d.name := by
        have hlower : '_' ∈ m.key := Text.underscore_mem_lowercase.mpr hunderscore
        rwa [← hdm] at hlower
      exact hproposes.procedure (hd.trans hprocedure) (Text.underscore_mem_lowercase.mp hkept)
  · intro hstyle before m after hms hearlier
    rw [hplan, ← ofDeclarations_untyped hstyle, hms, Declaration.untyped_ofMentions hearlier,
      ofDeclarations_untyped hstyle]

/-- A field and an event handler that are first mentioned as variables are renamed, as if they were
nothing else. -/
theorem first_mention_protects_handler :
    let source := ("Private x_pos As Long\nPrivate Type Point\n  x_pos As Long\nEnd Type\n" ++
      "Sub Button_Click(on_click)\nEnd Sub\nSub on_click()\nEnd Sub").toList
    let mentions := Mention.ofLines (Line.ofTokens (tokenize source))
    let plan := fun style => ofLines style (Line.ofTokens (tokenize source))
    let field : Mention := ⟨"x_pos".toList, .member, some "lng".toList⟩
    let handler : Mention := ⟨"on_click".toList, .procedure, none⟩
    let button : Mention := ⟨"Button_Click".toList, .procedure, none⟩
    (field ∈ mentions ∧ ¬(plan .pascal).Spares field ∧ (plan .hungarian).Spares field) ∧
      (handler ∈ mentions ∧ ¬(plan .pascal).Spares handler ∧ (plan .hungarian).Spares handler) ∧
      (button ∈ mentions ∧ (plan .pascal).Spares button) ∧
      plan .pascal = ofDeclarations .pascal
        (Declaration.ofMentions (mentions.take 2 ++ mentions.drop 3)) := by
  intro source mentions plan field handler button
  have hplan := fun style => first_mention_protects style source
  let read : List Mention := [⟨"x_pos".toList, .variable, some "lng".toList⟩,
    ⟨"Point".toList, .typeName, none⟩, field, button, ⟨"on_click".toList, .variable, none⟩, handler]
  have hread : mentions = read := by decide +kernel
  have hpascal : plan .pascal = ofDeclarations .pascal (Declaration.ofMentions read) := by
    rw [← hread]
    exact ofLines_eq .pascal _
  have hfield : field ∈ mentions := by simp [hread, read]
  have hhandler : handler ∈ mentions := by simp [hread, read]
  have hbutton : button ∈ mentions := by simp [hread, read]
  refine ⟨⟨hfield, ?_, (hplan .hungarian).1 field hfield (by simp)⟩,
    ⟨hhandler, ?_, (hplan .hungarian).1 handler hhandler (by simp)⟩,
    ⟨hbutton, (hplan .pascal).1 button hbutton fun _ => ?_⟩,
    (hplan .pascal).2 (by decide) (mentions.take 2) field (mentions.drop 3) ?_ ?_⟩
  · intro h
    have hkey := h.member rfl field.name rfl
    rw [hpascal] at hkey
    revert hkey
    decide +kernel
  · intro h
    have hnone := h.procedure rfl (by decide) handler.name rfl
    rw [hpascal] at hnone
    revert hnone
    decide +kernel
  · change (mentions.find? (·.key == button.key)).map (·.role) = some button.role
    rw [hread]
    decide +kernel
  · change mentions = _
    rw [hread]
    rfl
  · rw [hread]
    decide +kernel

end RenamePlan
end VbaWorkbench
