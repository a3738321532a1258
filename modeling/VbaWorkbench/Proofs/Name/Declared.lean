import VbaWorkbench.Proofs.Lookup
import VbaWorkbench.Proofs.Name.Mentions

namespace VbaWorkbench

/-- Mentions with this key in common mention the same name. -/
def Mention.key (m : Mention) : Text :=
  Text.lowercase m.name

namespace Declaration

/-- The declaration of a name that has been mentioned once. -/
def ofMention (m : Mention) : Declaration :=
  ⟨m.name, m.role, m.tag, false⟩

@[simp] theorem key_ofMention (m : Mention) : (ofMention m).key = m.key :=
  rfl

@[simp] theorem key_merge (d : Declaration) (m : Mention) : (d.merge m).key = d.key :=
  rfl

theorem record_nil (m : Mention) : record m [] = [ofMention m] :=
  rfl

theorem record_cons (m : Mention) (d : Declaration) (ds : List Declaration) :
    record m (d :: ds) = if d.key = m.key then d.merge m :: ds else d :: record m ds :=
  rfl

theorem key_of_mem_record {m : Mention} {ds : List Declaration} {d : Declaration}
    (h : d ∈ record m ds) : d.key = m.key ∨ ∃ e ∈ ds, e.key = d.key := by
  induction ds with
  | nil =>
    rw [List.mem_singleton.mp h]
    exact .inl rfl
  | cons e ds ih =>
    rw [record_cons] at h
    split at h
    · rcases List.mem_cons.mp h with rfl | h
      · exact .inr ⟨e, List.mem_cons_self, rfl⟩
      · exact .inr ⟨d, List.mem_cons_of_mem _ h, rfl⟩
    · rcases List.mem_cons.mp h with rfl | h
      · exact .inr ⟨d, List.mem_cons_self, rfl⟩
      · exact (ih h).imp_right fun ⟨e, he, hkey⟩ => ⟨e, List.mem_cons_of_mem _ he, hkey⟩

theorem keyed_record (m : Mention) {ds : List Declaration} (h : Keyed key ds) :
    Keyed key (record m ds) := by
  induction ds with
  | nil => exact List.pairwise_singleton _ _
  | cons e ds ih =>
    obtain ⟨he, hds⟩ := List.pairwise_cons.mp h
    rw [record_cons]
    split
    · exact List.pairwise_cons.mpr ⟨he, hds⟩
    · rename_i hne
      refine List.pairwise_cons.mpr ⟨fun d hd => ?_, ih hds⟩
      rcases key_of_mem_record hd with hkey | ⟨f, hf, hkey⟩
      · rwa [hkey]
      · rw [← hkey]
        exact he f hf

/-- Each name is declared once. -/
theorem keyed_ofMentions (ms : List Mention) : Keyed key (ofMentions ms) :=
  List.foldlRecOn ms _ List.Pairwise.nil fun _ h m _ => keyed_record m h

/-- What is known of a name after one more mention of it. -/
def mention (d : Option Declaration) (m : Mention) : Option Declaration :=
  some (d.elim (ofMention m) (·.merge m))

theorem find?_record (m : Mention) (ds : List Declaration) (k : Text) :
    (record m ds).find? (·.key == k) =
      if m.key = k then mention (ds.find? (·.key == k)) m else ds.find? (·.key == k) := by
  induction ds with
  | nil =>
    rw [record_nil]
    by_cases hk : m.key = k
    · rw [if_pos hk]
      exact List.find?_cons_of_pos (by simpa using hk)
    · rw [if_neg hk]
      exact List.find?_cons_of_neg (by simpa using hk)
  | cons e ds ih =>
    rw [record_cons]
    by_cases he : e.key = k
    · rw [List.find?_cons_of_pos (by simpa using he)]
      split
      · rename_i hm
        rw [if_pos (hm.symm.trans he)]
        exact List.find?_cons_of_pos (by simpa using he)
      · rename_i hm
        rw [if_neg fun hk => hm (he.trans hk.symm)]
        exact List.find?_cons_of_pos (by simpa using he)
    · rw [List.find?_cons_of_neg (by simpa using he)]
      split
      · rename_i hm
        rw [if_neg fun hk => he (hm.trans hk)]
        exact List.find?_cons_of_neg (by simpa using he)
      · rw [List.find?_cons_of_neg (by simpa using he), ih]

/-- A declaration is made of the mentions of its own name. -/
theorem find?_ofMentions (ms : List Mention) (k : Text) :
    (ofMentions ms).find? (·.key == k) = (ms.filter (·.key == k)).foldl mention none := by
  have hfold : ∀ ds : List Declaration, (ms.foldl (fun ds m => record m ds) ds).find? (·.key == k) =
      (ms.filter (·.key == k)).foldl mention (ds.find? (·.key == k)) := by
    induction ms with
    | nil => exact fun _ => rfl
    | cons m ms ih =>
      intro ds
      rw [List.foldl_cons, ih, find?_record]
      by_cases hk : m.key = k
      · rw [if_pos hk, List.filter_cons_of_pos (by simpa using hk), List.foldl_cons]
      · rw [if_neg hk, List.filter_cons_of_neg (by simpa using hk)]
  exact hfold []

theorem foldl_mention (d : Declaration) (ms : List Mention) :
    ms.foldl mention (some d) = some (ms.foldl merge d) := by
  induction ms generalizing d with
  | nil => rfl
  | cons m ms ih => exact ih (d.merge m)

/-- A declared name has a first mention, and the later ones are merged into it. -/
theorem mentions_of_mem {ms : List Mention} {d : Declaration} (h : d ∈ ofMentions ms) :
    ∃ first later, ms.filter (·.key == d.key) = first :: later ∧
      d = later.foldl merge (ofMention first) := by
  have hfind := (keyed_ofMentions ms).find?_eq_some.mpr ⟨h, rfl⟩
  rw [find?_ofMentions] at hfind
  cases hms : ms.filter (·.key == d.key) with
  | nil =>
    rw [hms] at hfind
    cases hfind
  | cons first later =>
    rw [hms, List.foldl_cons] at hfind
    exact ⟨first, later, rfl, (Option.some.inj ((foldl_mention _ later).symm.trans hfind)).symm⟩

theorem exists_of_mention {ms : List Mention} {m : Mention} (h : m ∈ ms) :
    ∃ d ∈ ofMentions ms, d.key = m.key := by
  have hm : m ∈ ms.filter (·.key == m.key) := List.mem_filter.mpr ⟨h, beq_self_eq_true _⟩
  cases hms : ms.filter (·.key == m.key) with
  | nil =>
    rw [hms] at hm
    cases hm
  | cons first later =>
    have hfind := find?_ofMentions ms m.key
    rw [hms, List.foldl_cons] at hfind
    exact ⟨_, (keyed_ofMentions ms).find?_eq_some.mp (hfind.trans (foldl_mention _ later))⟩

section Merging

variable (d : Declaration) (ms : List Mention)

@[simp] theorem foldl_merge_name : (ms.foldl merge d).name = d.name :=
  List.foldlRecOn (motive := fun e : Declaration => e.name = d.name) ms merge rfl fun _ h _ _ => h

@[simp] theorem foldl_merge_role : (ms.foldl merge d).role = d.role :=
  List.foldlRecOn (motive := fun e : Declaration => e.role = d.role) ms merge rfl fun _ h _ _ => h

variable {d ms}

theorem tag_of_foldl_merge {tag : Text} (h : tag ∈ (ms.foldl merge d).tag) :
    tag ∈ d.tag ∨ ∃ m ∈ ms, tag ∈ m.tag := by
  induction ms generalizing d with
  | nil => exact .inl h
  | cons m ms ih =>
    rcases ih h with h | ⟨n, hn, h⟩
    · rcases Option.or_eq_some_iff.mp h with h | ⟨-, h⟩
      · exact .inl h
      · exact .inr ⟨m, List.mem_cons_self, h⟩
    · exact .inr ⟨n, List.mem_cons_of_mem _ hn, h⟩

theorem conflicting_foldl_merge (h : d.conflicting = true) :
    (ms.foldl merge d).conflicting = true := by
  induction ms generalizing d with
  | nil => exact h
  | cons m ms ih =>
    have hmerge : (d.merge m).conflicting = true := by
      simp only [merge, h, Bool.true_or]
    exact ih hmerge

/-- A mention in another role than the first is a conflict. -/
theorem conflicting_of_role_ne {m : Mention} (hm : m ∈ ms) (h : m.role ≠ d.role) :
    (ms.foldl merge d).conflicting = true := by
  induction ms generalizing d with
  | nil => cases hm
  | cons n ms ih =>
    rcases List.mem_cons.mp hm with rfl | hm
    · have hmerge : (d.merge m).conflicting = true := by
        simp [merge, Ne.symm h]
      rw [List.foldl_cons]
      exact conflicting_foldl_merge hmerge
    · exact ih hm h

end Merging

end Declaration
end VbaWorkbench
