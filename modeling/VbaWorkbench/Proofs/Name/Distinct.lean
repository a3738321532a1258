import VbaWorkbench.Proofs.Name.Renames

namespace VbaWorkbench.RenamePlan

section Collisions

variable {style : NameStyle} {ds ds' : List Declaration} {r s : Rename}

/-- No two renames lead to the same name. -/
theorem eq_of_targetKey_eq (hr : r ∈ (ofDeclarations style ds).renames)
    (hs : s ∈ (ofDeclarations style ds).renames) (h : r.targetKey = s.targetKey) : r = s := by
  let proposals := ds.filterMap (Rename.proposed? style)
  obtain ⟨hr, hfree⟩ := List.mem_filter.mp hr
  obtain ⟨hs, -⟩ := List.mem_filter.mp hs
  have hcount := of_decide_eq_true (Bool.and_eq_true_iff.mp hfree).1
  have hrk : r ∈ proposals.filter (·.targetKey == r.targetKey) :=
    List.mem_filter.mpr ⟨hr, beq_self_eq_true r.targetKey⟩
  have hsk : s ∈ proposals.filter (·.targetKey == r.targetKey) :=
    List.mem_filter.mpr ⟨hs, beq_iff_eq.mpr h.symm⟩
  obtain ⟨x, hx⟩ := List.length_eq_one_iff.mp
    (Nat.le_antisymm hcount (List.length_pos_of_mem hrk))
  rw [hx] at hrk hsk
  rw [List.mem_singleton.mp hrk, List.mem_singleton.mp hsk]

/-- A rename that leads to a declared name only changes that name's letter case. -/
theorem targetKey_eq_key (hr : r ∈ (ofDeclarations style ds).renames) {d : Declaration}
    (hd : d ∈ ds) (h : d.key = r.targetKey) : r.targetKey = r.key := by
  have hfree := (Bool.and_eq_true_iff.mp (List.mem_filter.mp hr).2).2
  rcases Bool.or_eq_true_iff.mp hfree with hkey | hnone
  · exact beq_iff_eq.mp hkey
  · have hany : ds.any (·.key == r.targetKey) = true :=
      List.any_eq_true.mpr ⟨d, hd, beq_iff_eq.mpr h⟩
    rw [hany] at hnone
    cases hnone

/-- Of two declared names both may be renamed, or one of them, or none: each time they stay apart. -/
theorem key_spelled_ne (htargets : ∀ r ∈ (ofDeclarations style ds).renames,
      TypeSuffix.Absent r.target) {a b : Text} (ha : ∃ d ∈ ds, d.key = Name.key a)
    (hb : ∃ d ∈ ds, d.key = Name.key b) (hne : Name.key a ≠ Name.key b) :
    Name.key ((ofDeclarations style ds).spelled a) ≠
      Name.key ((ofDeclarations style ds).spelled b) := by
  obtain ⟨d, hd, hda⟩ := ha
  obtain ⟨e, he, heb⟩ := hb
  rcases spelled_cases htargets a with hkept | ⟨r, hr, hra, hspelled⟩
  · rcases spelled_cases htargets b with hkept' | ⟨s, hs, hsb, hspelled'⟩
    · rwa [hkept, hkept']
    · -- A target that is a declared name is a case change of that name alone.
      rw [hkept, hspelled']
      intro h
      exact hne (h.trans ((targetKey_eq_key hs hd (hda.trans h)).trans hsb))
  · rcases spelled_cases htargets b with hkept | ⟨s, hs, hsb, hspelled'⟩
    · rw [hspelled, hkept]
      intro h
      exact hne (hra.symm.trans ((targetKey_eq_key hr he (heb.trans h.symm)).symm.trans h))
    · rw [hspelled, hspelled']
      intro h
      obtain rfl := eq_of_targetKey_eq hr hs h
      exact hne (hra.symm.trans hsb)

/-- In another order the same declarations have the same renames. -/
theorem renames_perm (hp : ds.Perm ds') :
    (ofDeclarations style ds).renames.Perm (ofDeclarations style ds').renames := by
  have hproposals := hp.filterMap (Rename.proposed? style)
  have hfree : Rename.isFree ds (ds.filterMap (Rename.proposed? style)) =
      Rename.isFree ds' (ds'.filterMap (Rename.proposed? style)) := by
    funext r
    rw [Rename.isFree, Rename.isFree, (hproposals.filter _).length_eq, hp.any_eq]
  rw [ofDeclarations, ofDeclarations, hfree]
  exact hproposals.filter _

theorem renamed?_perm (h : Keyed Declaration.key ds) (hp : ds.Perm ds') (name : Text) :
    (ofDeclarations style ds).renamed? name = (ofDeclarations style ds').renamed? name := by
  rw [renamed?_eq, renamed?_eq, (keyed_renames h).find?_perm (renames_perm hp)]

end Collisions

theorem exists_declaration {source : Text} {name : Text}
    (h : Mention.Declares (Mention.ofLines (Line.ofTokens (tokenize source))) name) :
    ∃ d ∈ Declaration.ofMentions (Mention.ofLines (Line.ofTokens (tokenize source))),
      d.key = Name.key name := by
  obtain ⟨m, hm, hkey⟩ := h
  obtain ⟨d, hd, hdm⟩ := Declaration.exists_of_mention hm
  exact ⟨d, hd, hdm.trans ((Mention.key_name hm).symm.trans hkey)⟩

/-- Names that are declared apart are still apart after the plan, and the plan does not depend on
the order of the declarations. -/
theorem spelled_apart (style : NameStyle) (source : Text) :
    let mentions := Mention.ofLines (Line.ofTokens (tokenize source))
    let plan := ofLines style (Line.ofTokens (tokenize source))
    (∀ a b, Mention.Declares mentions a → Mention.Declares mentions b → Name.key a ≠ Name.key b →
      Name.key (plan.spelled a) ≠ Name.key (plan.spelled b)) ∧
    ∀ ds, ds.Perm (Declaration.ofMentions mentions) →
      (ofDeclarations style ds).renames.Perm plan.renames ∧
      ∀ name, (ofDeclarations style ds).renamed? name = plan.renamed? name := by
  intro mentions plan
  have hplan : plan = ofDeclarations style (Declaration.ofMentions mentions) :=
    ofLines_eq style _
  have htargets : ∀ r ∈ plan.renames, TypeSuffix.Absent r.target := fun r hr => absent_target hr
  rw [hplan] at htargets ⊢
  constructor
  · intro a b ha hb hne
    exact key_spelled_ne htargets (exists_declaration ha) (exists_declaration hb) hne
  · intro ds hp
    have hkeyed := (Declaration.keyed_ofMentions mentions).perm hp.symm
    exact ⟨renames_perm hp, renamed?_perm hkeyed hp⟩

/-- The first two names keep their spelling, for the first would be taken for the second. -/
theorem spelled_apart_rowCount :
    let tokens := tokenize "Dim row_count\nDim RowCount\nDim other_one".toList
    let mentions := Mention.ofLines (Line.ofTokens tokens)
    let plan := ofLines .pascal (Line.ofTokens tokens)
    Mention.Declares mentions "row_count".toList ∧ Mention.Declares mentions "ROWCOUNT".toList ∧
      Name.key "row_count".toList ≠ Name.key "ROWCOUNT".toList ∧
      Name.key (plan.spelled "row_count".toList) ≠ Name.key (plan.spelled "ROWCOUNT".toList) ∧
      (ofDeclarations .pascal (Declaration.ofMentions mentions).reverse).renamed?
        "Other_One&".toList = some "OtherOne&".toList := by
  intro tokens mentions plan
  have hspelled := spelled_apart .pascal "Dim row_count\nDim RowCount\nDim other_one".toList
  let read : List Mention := [⟨"row_count".toList, .variable, none⟩,
    ⟨"RowCount".toList, .variable, none⟩, ⟨"other_one".toList, .variable, none⟩]
  have hread : mentions = read := by decide +kernel
  have hplan : plan = ofDeclarations .pascal (Declaration.ofMentions read) := by
    rw [← hread]
    exact ofLines_eq .pascal _
  have hrow : Mention.Declares mentions "row_count".toList := by
    rw [hread]
    decide +kernel
  have hcount : Mention.Declares mentions "ROWCOUNT".toList := by
    rw [hread]
    decide +kernel
  have hne : Name.key "row_count".toList ≠ Name.key "ROWCOUNT".toList := by decide +kernel
  have hother : plan.renamed? "Other_One&".toList = some "OtherOne&".toList := by
    rw [hplan]
    decide +kernel
  refine ⟨hrow, hcount, hne, hspelled.1 _ _ hrow hcount hne, ?_⟩
  rw [(hspelled.2 _ (List.reverse_perm _)).2]
  exact hother

end VbaWorkbench.RenamePlan
