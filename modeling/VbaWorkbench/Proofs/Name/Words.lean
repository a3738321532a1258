import VbaWorkbench.Name.Words

namespace VbaWorkbench.Name

section Words

variable {current t : Text}

/-- The words of a name are the name without its underscores. -/
theorem flatten_wordsAfter (current t : Text) :
    (wordsAfter current t).flatten = current.reverse ++ t.filter (· ≠ '_') := by
  fun_induction wordsAfter current t with
  | case1 current h => simp_all
  | case2 current h => simp
  | case3 current rest h ih => simp_all
  | case4 current rest h ih => simp_all
  | case5 current c rest h hbegins ih => simp_all
  | case6 current c rest h hbegins ih => simp_all

theorem flatten_words (name : Text) : (words name).flatten = name.filter (· ≠ '_') :=
  flatten_wordsAfter [] name

theorem flatten_words_of_not_mem {name : Text} (h : '_' ∉ name) : (words name).flatten = name := by
  rw [flatten_words, List.filter_eq_self]
  exact fun c hc => decide_eq_true fun heq => h (heq ▸ hc)

theorem ne_nil_of_mem_wordsAfter {w : Text} (h : w ∈ wordsAfter current t) : w ≠ [] := by
  fun_induction wordsAfter current t with
  | case1 current hc => cases h
  | case2 current hc => simp_all
  | case3 current rest hc ih => exact ih h
  | case4 current rest hc ih =>
    rcases List.mem_cons.mp h with rfl | h
    · simpa using hc
    · exact ih h
  | case5 current c rest hc hbegins ih =>
    rcases List.mem_cons.mp h with rfl | h
    · cases current with
      | nil => cases hbegins
      | cons d current => simp
    · exact ih h
  | case6 current c rest hc hbegins ih => exact ih h

/-- The first word goes on with what has been read of it. -/
theorem wordsAfter_of_ne_nil (h : current ≠ []) (t : Text) :
    ∃ w ws, wordsAfter current t = (current.reverse ++ w) :: ws := by
  fun_induction wordsAfter current t with
  | case1 current hc => simp_all
  | case2 current hc => exact ⟨[], [], by rw [List.append_nil]⟩
  | case3 current rest hc ih => simp_all
  | case4 current rest hc ih => exact ⟨[], _, by rw [List.append_nil]⟩
  | case5 current c rest hc hbegins ih => exact ⟨[], _, by rw [List.append_nil]⟩
  | case6 current c rest hc hbegins ih =>
    obtain ⟨w, ws, hw⟩ := ih (List.cons_ne_nil c current)
    exact ⟨c :: w, ws, by rw [hw, List.reverse_cons, List.append_assoc, List.singleton_append]⟩

theorem words_cons {c : Char} (hc : c ≠ '_') (t : Text) :
    ∃ w ws, words (c :: t) = (c :: w) :: ws := by
  obtain ⟨w, ws, hw⟩ := wordsAfter_of_ne_nil (List.cons_ne_nil c []) t
  refine ⟨w, ws, ?_⟩
  rw [words, wordsAfter, if_neg hc]
  exact hw

theorem mem_of_mem_words {name w : Text} {c : Char} (hw : w ∈ words name) (hc : c ∈ w) :
    c ∈ name ∧ c ≠ '_' := by
  have hmem : c ∈ (words name).flatten := List.mem_flatten.mpr ⟨w, hw, hc⟩
  rw [flatten_words] at hmem
  simpa using hmem

theorem forall_mem_words {P : Char → Prop} {name : Text} (h : ∀ c ∈ name, P c) :
    ∀ w ∈ words name, ∀ c ∈ w, P c :=
  fun _ hw c hc => h c (mem_of_mem_words hw hc).1

end Words

/-- The words that come after the tag of a name. -/
def untagged (tag : Text) : List Text → List Text
  | first :: second :: rest =>
    if Text.sameAscii first tag then second :: rest else first :: second :: rest
  | words => words

theorem hungarian_eq (tag : Text) (ws : List Text) :
    hungarian tag ws = tag ++ pascal (untagged tag ws) := by
  match ws with
  | [] => rfl
  | [_] => rfl
  | first :: second :: rest =>
    rw [hungarian, untagged]
    split <;> rfl

theorem untagged_of_not_same {tag w : Text} (h : ¬ Text.sameAscii w tag = true) (ws : List Text) :
    untagged tag (w :: ws) = w :: ws := by
  cases ws with
  | nil => rfl
  | cons v ws => rw [untagged, if_neg h]

theorem untagged_subset (tag : Text) (ws : List Text) : untagged tag ws ⊆ ws := by
  unfold untagged
  split
  · split
    · exact List.subset_cons_self _ _
    · exact List.Subset.refl _
  · exact List.Subset.refl _

theorem pascal_cons (w : Text) (ws : List Text) : pascal (w :: ws) = capitalize w ++ pascal ws :=
  List.flatMap_cons

end VbaWorkbench.Name
