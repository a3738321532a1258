import VbaWorkbench.Name.Plan
import VbaWorkbench.Proofs.Character.Mapping
import VbaWorkbench.Proofs.Name.Declared

namespace VbaWorkbench

open TypeSuffix (Absent)

/-- What all spellings of a name have in common. Letter case and a type suffix do not count. -/
def Name.key (name : Text) : Text :=
  Text.lowercase (TypeSuffix.strip name)

/-- A declared name has no suffix to lose. -/
theorem Mention.key_name {source : Text} {m : Mention}
    (h : m ∈ ofLines (Line.ofTokens (tokenize source))) : Name.key m.name = m.key := by
  rw [Name.key, TypeSuffix.strip_of_absent (isName_of_mem h).absent, key]

/-- Some spelling of the name is among the mentions. -/
def Mention.Declares (ms : List Mention) (name : Text) : Prop :=
  ∃ m ∈ ms, Name.key m.name = Name.key name

instance (ms : List Mention) (name : Text) : Decidable (Mention.Declares ms name) :=
  List.decidableBEx (fun m : Mention => Name.key m.name = Name.key name) ms

theorem Text.lowercase_ne_nil (c : Char) (t : Text) : Text.lowercase (c :: t) ≠ [] := by
  obtain ⟨s, heq, hs⟩ := Text.lowercaseAfter_cons [] c t
  rw [Text.lowercase, heq]
  rcases hs with rfl | ⟨-, rfl⟩
  · exact List.append_ne_nil_of_left_ne_nil (Character.lower_ne_nil c) _
  · exact List.cons_ne_nil _ _

namespace Declaration

variable {style : NameStyle} {d : Declaration} {target : Text}

theorem given_tag (h : ∀ tag ∈ d.tag, TypeTag.Given tag) :
    TypeTag.Given (d.tag.getD "var".toList) := by
  cases htag : d.tag with
  | none => exact TypeTag.given_default
  | some tag => exact h tag htag

/-- What holds of all characters of names and tags, and is kept by case mappings, holds of those of
new spellings. -/
theorem forall_styled {P : Char → Prop} (hkept : Name.CaseKept P) (hname : ∀ c ∈ d.name, P c)
    (htag : ∀ c ∈ d.tag.getD "var".toList, P c) (h : d.styled? style = some target) :
    ∀ c ∈ target, P c := by
  have hwords := Name.forall_mem_words hname
  unfold styled? at h
  dsimp only at h
  split at h
  · cases h
  split at h
  · cases h
  · exact Option.some.inj h ▸ hkept.camel hwords
  · exact Option.some.inj h ▸ hkept.pascal hwords
  · exact Option.some.inj h ▸ hkept.hungarian htag hwords
  · exact Option.some.inj h ▸ hkept.pascal hwords

theorem styled_ne_nil (htag : d.tag.getD "var".toList ≠ []) (h : d.styled? style = some target) :
    target ≠ [] := by
  unfold styled? at h
  dsimp only at h
  split at h
  · cases h
  rename_i hwords
  obtain ⟨w, ws, heq⟩ := List.exists_cons_of_ne_nil (by simpa using hwords)
  have hw := Name.ne_nil_of_mem_wordsAfter (heq ▸ List.mem_cons_self : w ∈ Name.words d.name)
  obtain ⟨c, w, rfl⟩ := List.exists_cons_of_ne_nil hw
  have hpascal : Name.pascal ((c :: w) :: ws) ≠ [] := by
    simp [Name.pascal, Name.capitalize, Character.upper_ne_nil]
  rw [heq] at h
  split at h
  · cases h
  · rw [← Option.some.inj h]
    exact List.append_ne_nil_of_left_ne_nil (Text.lowercase_ne_nil c w) _
  · exact Option.some.inj h ▸ hpascal
  · rw [← Option.some.inj h, Name.hungarian_eq]
    exact List.append_ne_nil_of_left_ne_nil htag _
  · exact Option.some.inj h ▸ hpascal

end Declaration

namespace Rename

/-- All that holds of a proposed rename. -/
structure Proposes (style : NameStyle) (d : Declaration) (r : Rename) : Prop where
  key : r.key = d.key
  target : d.styled? style = some r.target
  changed : r.target ≠ d.name
  legal : Keyword.isKeyword r.target = false
  procedure : d.role = .procedure → '_' ∉ d.name
  member : d.role = .member → r.targetKey = d.key
  agreed : style = .hungarian → d.conflicting = false

theorem proposes {style : NameStyle} {d : Declaration} {r : Rename}
    (h : proposed? style d = some r) : Proposes style d r := by
  unfold proposed? at h
  split at h
  · cases h
  rename_i hprocedure
  split at h
  · cases h
  rename_i hagreed
  split at h
  · cases h
  rename_i target htarget
  split at h
  · cases h
  rename_i hlegal
  split at h
  · cases h
  rename_i hmember
  obtain rfl := Option.some.inj h
  obtain ⟨hchanged, hlegal⟩ := not_or.mp hlegal
  exact {
    key := rfl
    target := htarget
    changed := hchanged
    legal := Bool.eq_false_iff.mpr hlegal
    procedure := fun hrole hunderscore => hprocedure ⟨hrole, hunderscore⟩
    member := fun hrole => not_not.mp fun hkey => hmember ⟨hrole, hkey⟩
    agreed := fun hstyle => Bool.eq_false_iff.mpr fun hc => hagreed ⟨hc, hstyle⟩ }

theorem styled_preserve (d : Declaration) : d.styled? .preserve = none := by
  unfold Declaration.styled?
  dsimp only
  split <;> rfl

theorem proposed_preserve (d : Declaration) : proposed? .preserve d = none := by
  refine Option.eq_none_iff_forall_ne_some.mpr fun r h => ?_
  have htarget := (proposes h).target
  rw [styled_preserve] at htarget
  cases htarget

end Rename

namespace RenamePlan

section Declarations

variable {style : NameStyle} {ds : List Declaration}

theorem proposes_of_mem {r : Rename} (h : r ∈ (ofDeclarations style ds).renames) :
    ∃ d ∈ ds, Rename.Proposes style d r := by
  obtain ⟨d, hd, hr⟩ := List.mem_filterMap.mp (List.mem_filter.mp h).1
  exact ⟨d, hd, Rename.proposes hr⟩

theorem keyed_renames (h : Keyed Declaration.key ds) :
    Keyed Rename.key (ofDeclarations style ds).renames := by
  refine List.Pairwise.filter _ (List.pairwise_filterMap.mpr (h.imp ?_))
  intro d e hne r hr s hs
  rwa [(Rename.proposes hr).key, (Rename.proposes hs).key]

end Declarations

/-- Where nothing is to be renamed, no declaration proposes anything. -/
theorem ofLines_eq (style : NameStyle) (lines : List Line) :
    ofLines style lines =
      ofDeclarations style (Declaration.ofMentions (Mention.ofLines lines)) := by
  cases style with
  | preserve =>
    have hnone : ∀ ds : List Declaration, ds.filterMap (Rename.proposed? .preserve) = [] :=
      fun ds => List.filterMap_eq_nil_iff.mpr fun d _ => Rename.proposed_preserve d
    rw [ofLines, ofDeclarations, hnone]
    rfl
  | camel | pascal | hungarian => rfl

/-- What a source declares are names, with the tags of types and suffixes. -/
theorem declared_of_mem {source : Text} {d : Declaration}
    (h : d ∈ Declaration.ofMentions (Mention.ofLines (Line.ofTokens (tokenize source)))) :
    d.name.IsName ∧ ∀ tag ∈ d.tag, TypeTag.Given tag := by
  obtain ⟨first, later, hms, rfl⟩ := Declaration.mentions_of_mem h
  have hmem : ∀ m ∈ first :: later, m ∈ Mention.ofLines (Line.ofTokens (tokenize source)) :=
    fun m hm => (List.mem_filter.mp (hms ▸ hm)).1
  refine ⟨?_, fun tag htag => ?_⟩
  · rw [Declaration.foldl_merge_name]
    exact Mention.isName_of_mem (hmem first List.mem_cons_self)
  · rcases Declaration.tag_of_foldl_merge htag with htag | ⟨m, hm, htag⟩
    · exact (Mention.readFrom_ofLines (hmem first List.mem_cons_self)).tag tag htag
    · exact (Mention.readFrom_ofLines (hmem m (List.mem_cons_of_mem _ hm))).tag tag htag

section Targets

variable {style : NameStyle} {source : Text} {r : Rename}

theorem forall_target {P : Char → Prop} (hkept : Name.CaseKept P)
    (hname : ∀ {name : Text}, name.IsName → ∀ c ∈ name, P c)
    (htag : ∀ {tag}, TypeTag.Given tag → ∀ c ∈ tag, P c)
    (h : r ∈ (ofLines style (Line.ofTokens (tokenize source))).renames) : ∀ c ∈ r.target, P c := by
  rw [ofLines_eq] at h
  obtain ⟨d, hd, hr⟩ := proposes_of_mem h
  obtain ⟨hdeclared, hgiven⟩ := declared_of_mem hd
  exact Declaration.forall_styled hkept (hname hdeclared)
    (htag (Declaration.given_tag hgiven)) hr.target

theorem absent_target (h : r ∈ (ofLines style (Line.ofTokens (tokenize source))).renames) :
    Absent r.target :=
  forall_target Name.caseKept_isSuffix Text.IsName.absent TypeTag.Given.absent h

theorem target_ne_nil (h : r ∈ (ofLines style (Line.ofTokens (tokenize source))).renames) :
    r.target ≠ [] := by
  rw [ofLines_eq] at h
  obtain ⟨d, hd, hr⟩ := proposes_of_mem h
  obtain ⟨-, hgiven⟩ := declared_of_mem hd
  refine Declaration.styled_ne_nil (fun hnil => ?_) hr.target
  have hlength := (Declaration.given_tag hgiven).small.1
  rw [hnil] at hlength
  cases hlength

end Targets

/-- How a name is spelled after the plan. -/
def spelled (plan : RenamePlan) (name : Text) : Text :=
  (plan.renamed? name).getD name

section Spelling

variable {plan : RenamePlan} {name : Text}

theorem renamed?_eq (plan : RenamePlan) (name : Text) :
    plan.renamed? name = (plan.renames.find? (·.key == Name.key name)).map
      fun r => r.target ++ name.drop (TypeSuffix.strip name).length :=
  rfl

theorem renamed?_eq_none :
    plan.renamed? name = none ↔ ∀ r ∈ plan.renames, r.key ≠ Name.key name := by
  rw [renamed?_eq, Option.map_eq_none_iff, List.find?_eq_none]
  simp only [beq_iff_eq, ne_eq]

theorem spelled_of_none (h : plan.renamed? name = none) : plan.spelled name = name := by
  rw [spelled, h]
  rfl

/-- A name is left alone, or it gets the target of a rename and keeps its suffix. -/
theorem spelled_cases (htargets : ∀ r ∈ plan.renames, Absent r.target) (name : Text) :
    plan.spelled name = name ∨
      ∃ r ∈ plan.renames, r.key = Name.key name ∧ Name.key (plan.spelled name) = r.targetKey := by
  cases hfind : plan.renames.find? (·.key == Name.key name) with
  | none =>
    exact .inl (spelled_of_none (by rw [renamed?_eq, hfind]; rfl))
  | some r =>
    have hr := List.mem_of_find?_eq_some hfind
    have hkey : r.key = Name.key name := by simpa using List.find?_some hfind
    refine .inr ⟨r, hr, hkey, ?_⟩
    rw [spelled, renamed?_eq, hfind, Option.map_some, Option.getD_some, Name.key,
      TypeSuffix.strip_rebased (htargets r hr), Rename.targetKey]

end Spelling

end RenamePlan
end VbaWorkbench
