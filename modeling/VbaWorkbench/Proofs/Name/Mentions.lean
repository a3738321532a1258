import VbaWorkbench.Name.Declaration
import VbaWorkbench.Proofs.Line.Tokens
import VbaWorkbench.Proofs.Token.Names

namespace VbaWorkbench.Mention

open TypeTag (Given)

/-- The name is an identifier among the tokens, and the tag is one of a type or suffix. -/
structure ReadFrom (tokens : List Token) (m : Mention) : Prop where
  name : ∃ t ∈ tokens, t.kind = .identifier ∧ m.name = TypeSuffix.strip t.text
  tag : ∀ tag ∈ m.tag, Given tag

theorem ReadFrom.mono {tokens more : List Token} {m : Mention} (h : ReadFrom tokens m)
    (hsub : tokens ⊆ more) : ReadFrom more m := by
  obtain ⟨t, ht, hname⟩ := h.name
  exact ⟨⟨t, hsub ht, hname⟩, h.tag⟩

theorem readFrom_ofToken {role : NameRole} {tag : Option Text} {t : Token} {m : Mention}
    {tokens : List Token} (h : ofToken? role tag t = some m) (ht : t ∈ tokens)
    (htag : ∀ word ∈ tag, Given word) : ReadFrom tokens m := by
  rw [ofToken?] at h
  split at h
  · rename_i hk
    obtain rfl := Option.some.inj h
    exact ⟨⟨t, ht, hk, rfl⟩, htag⟩
  · cases h

theorem given_none : ∀ word ∈ (none : Option Text), Given word :=
  fun _ h => nomatch h

/-- A name without a tag that is read from the first of the tokens. -/
theorem readFrom_head {role : NameRole} {tokens : List Token} {m : Mention}
    (h : tokens.head?.bind (ofToken? role none) = some m) : ReadFrom tokens m := by
  obtain ⟨t, ht, hm⟩ := Option.bind_eq_some_iff.mp h
  exact readFrom_ofToken hm (List.mem_of_head? ht) given_none

theorem readFrom_ofDeclarator {declarator : List Token} {m : Mention}
    (h : ofDeclarator? declarator = some m) : ReadFrom declarator m := by
  obtain ⟨t, ht, hm⟩ := Option.bind_eq_some_iff.mp h
  exact readFrom_ofToken hm (List.mem_of_head? ht) fun _ htag =>
    TypeTag.given_ofDeclarator htag

theorem subset_of_mem_commaParts {depth : Nat} {words part : List Token}
    (h : part ∈ commaParts depth words) : part ⊆ words := by
  induction words generalizing depth part with
  | nil =>
    rw [List.mem_singleton.mp h]
    exact List.nil_subset _
  | cons t rest ih =>
    intro u hu
    have hgrown : ∀ depth, part ∈ (commaParts depth rest).modifyHead (t :: ·) → u ∈ t :: rest := by
      intro depth h
      rcases mem_of_mem_modifyHead h hu with rfl | ⟨first, hfirst, hu⟩
      · exact List.mem_cons_self
      · exact List.mem_cons_of_mem _ (ih hfirst hu)
    rw [commaParts] at h
    split at h
    · exact hgrown _ h
    split at h
    · exact hgrown _ h
    split at h
    · rcases List.mem_cons.mp h with rfl | h
      · cases hu
      · exact List.mem_cons_of_mem _ (ih h hu)
    · exact hgrown _ h

theorem subset_of_enclosed {depth : Nat} {words inside : List Token}
    (h : enclosed? depth words = some inside) : inside ⊆ words := by
  induction words generalizing depth inside with
  | nil => cases h
  | cons t rest ih =>
    have hgrown : ∀ depth, (enclosed? depth rest).map (t :: ·) = some inside →
        inside ⊆ t :: rest := by
      intro depth h
      obtain ⟨more, hmore, rfl⟩ := Option.map_eq_some_iff.mp h
      exact List.cons_subset_cons t (ih hmore)
    unfold enclosed? at h
    split at h
    · exact hgrown _ h
    split at h
    · split at h
      · obtain rfl := Option.some.inj h
        exact List.nil_subset _
      · exact hgrown _ h
    · exact hgrown _ h

/-- Whatever is skipped at the front of a part, its name comes from the words. -/
theorem readFrom_part (skip : List Token → List Token) (hskip : ∀ part, skip part ⊆ part)
    {depth : Nat} {words : List Token} {m : Mention}
    (h : m ∈ (commaParts depth words).filterMap fun part => ofDeclarator? (skip part)) :
    ReadFrom words m := by
  obtain ⟨part, hpart, hm⟩ := List.mem_filterMap.mp h
  exact (readFrom_ofDeclarator hm).mono
    (List.Subset.trans (hskip part) (subset_of_mem_commaParts hpart))

theorem readFrom_ofDeclarators {words : List Token} {m : Mention} (h : m ∈ ofDeclarators words) :
    ReadFrom words m := by
  refine readFrom_part _ (fun part => ?_) h
  split
  · split
    · exact List.subset_cons_self _ _
    · exact List.Subset.refl _
  · exact List.nil_subset _

theorem readFrom_ofProcedure {words : List Token} {m : Mention} (h : m ∈ ofProcedure words) :
    ReadFrom words m := by
  unfold ofProcedure at h
  split at h
  · cases h
  rename_i procedure hprocedure
  split at h
  · rw [List.mem_singleton.mp h]
    exact readFrom_head hprocedure
  · rename_i inside hinside
    rcases List.mem_cons.mp h with rfl | h
    · exact readFrom_head hprocedure
    · have hparameter : ReadFrom inside m :=
        readFrom_part (·.dropWhile isParameterModifier) (fun _ => List.dropWhile_subset _) h
      refine hparameter.mono (List.Subset.trans (subset_of_enclosed hinside) ?_)
      exact List.Subset.trans (List.tail_sublist _).subset (List.dropWhile_subset _)

theorem readFrom_ofMember {body : Body} {words : List Token} {m : Mention}
    (h : m ∈ (ofMember body words).1) : ReadFrom words m := by
  unfold ofMember at h
  split at h
  · cases h
  split at h
  · cases h
  · refine readFrom_ofToken (Option.mem_toList.mp h) List.mem_cons_self ?_
    cases body with
    | type => exact fun _ htag => TypeTag.given_ofDeclarator htag
    | enum => exact given_none

theorem readFrom_ofDeclaration {words : List Token} {m : Mention}
    (h : m ∈ (ofDeclaration words).1) : ReadFrom words m := by
  have hrest : words.dropWhile Token.isModifier ⊆ words := List.dropWhile_subset _
  unfold ofDeclaration at h
  split at h
  · cases h
  rename_i lead rest hlead
  rw [hlead] at hrest
  have htail : rest ⊆ words := List.Subset.trans (List.subset_cons_self _ _) hrest
  split at h
  · exact (readFrom_ofDeclarators h).mono htail
  split at h
  · refine (readFrom_ofDeclarators h).mono (List.Subset.trans ?_ htail)
    split
    · exact (List.tail_sublist _).subset
    · exact List.Subset.refl _
  split at h
  · exact (readFrom_ofProcedure h).mono htail
  split at h
  · split at h
    · exact (readFrom_ofProcedure h).mono (List.Subset.trans (List.tail_sublist _).subset htail)
    · cases h
  split at h
  · split at h
    · rename_i name hname
      rw [List.mem_singleton.mp h]
      exact (readFrom_head hname).mono htail
    · cases h
  split at h
  · exact (readFrom_ofDeclarators h).mono hrest
  · cases h

theorem readFrom_ofStatement {body : Option Body} {words : List Token} {m : Mention}
    (h : m ∈ (ofStatement body words).1) : ReadFrom words m := by
  unfold ofStatement at h
  split at h
  · cases h
  · exact readFrom_ofMember h
  · exact readFrom_ofDeclaration h

theorem words_subset (statement : List Token) :
    withoutLineNumber (significant statement) ⊆ statement := by
  have hwithout : withoutLineNumber (significant statement) ⊆ significant statement := by
    cases significant statement with
    | nil => exact List.Subset.refl _
    | cons t rest =>
      rw [withoutLineNumber]
      split
      · exact List.subset_cons_self _ _
      · exact List.Subset.refl _
  exact List.Subset.trans hwithout List.filter_sublist.subset

/-- Whichever body is open, a statement's names are read from the statement. -/
theorem readFrom_ofStatements {body : Option Body} {statements : List (List Token)} {m : Mention}
    (h : m ∈ ofStatements body statements) : ∃ statement ∈ statements, ReadFrom statement m := by
  induction statements generalizing body with
  | nil => cases h
  | cons statement statements ih =>
    rw [ofStatements] at h
    rcases List.mem_append.mp h with h | h
    · exact ⟨statement, List.mem_cons_self,
        (readFrom_ofStatement h).mono (words_subset statement)⟩
    · obtain ⟨other, hother, hm⟩ := ih h
      exact ⟨other, List.mem_cons_of_mem _ hother, hm⟩

theorem readFrom_ofLines {tokens : List Token} {m : Mention}
    (h : m ∈ ofLines (Line.ofTokens tokens)) : ReadFrom tokens m := by
  obtain ⟨statement, hstatement, hm⟩ := readFrom_ofStatements h
  obtain ⟨line, hline, hstatement⟩ := List.mem_flatMap.mp hstatement
  exact hm.mono fun t ht => Line.mem_of_mem_tokens hline (Line.mem_of_mem_statements hstatement ht)

/-- The names that a source declares are names, without a type suffix. -/
theorem isName_of_mem {source : Text} {m : Mention}
    (h : m ∈ ofLines (Line.ofTokens (tokenize source))) : m.name.IsName := by
  obtain ⟨t, ht, hk, hname⟩ := (readFrom_ofLines h).name
  rw [hname]
  exact isName_of_mem_tokenize ht hk

end VbaWorkbench.Mention
