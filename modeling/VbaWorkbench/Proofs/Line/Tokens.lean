import VbaWorkbench.Line.Basic

namespace VbaWorkbench

/-- Where a step puts an element in the first of several lists, it is not new in any other. -/
theorem mem_of_mem_modifyHead {α : Type} {x y : α} {pieces : List (List α)} {piece : List α}
    (hpiece : piece ∈ pieces.modifyHead (x :: ·)) (hy : y ∈ piece) :
    y = x ∨ ∃ piece ∈ pieces, y ∈ piece := by
  cases pieces with
  | nil => cases hpiece
  | cons first rest =>
    rcases List.mem_cons.mp hpiece with rfl | hpiece
    · rcases List.mem_cons.mp hy with rfl | hy
      · exact .inl rfl
      · exact .inr ⟨first, List.mem_cons_self, hy⟩
    · exact .inr ⟨piece, List.mem_cons_of_mem _ hpiece, hy⟩

/-- The pieces have the elements of the list that it is not cut at. -/
theorem mem_of_mem_splitOnP {α : Type} {p : α → Bool} {xs piece : List α} {y : α}
    (hpiece : piece ∈ xs.splitOnP p) (hy : y ∈ piece) : y ∈ xs ∧ p y = false := by
  induction xs generalizing piece with
  | nil =>
    rw [List.splitOnP_nil] at hpiece
    rw [List.mem_singleton.mp hpiece] at hy
    cases hy
  | cons x xs ih =>
    rw [List.splitOnP_cons_eq_if_modifyHead] at hpiece
    split at hpiece
    · rcases List.mem_cons.mp hpiece with rfl | hpiece
      · cases hy
      · exact (ih hpiece hy).imp_left (List.mem_cons_of_mem _)
    · rename_i hx
      rcases mem_of_mem_modifyHead hpiece hy with rfl | ⟨first, hfirst, hy⟩
      · exact ⟨List.mem_cons_self, Bool.eq_false_iff.mpr hx⟩
      · exact (ih hfirst hy).imp_left (List.mem_cons_of_mem _)

namespace Line

theorem mem_of_mem_tokens {tokens : List Token} {line : Line} {t : Token}
    (hline : line ∈ ofTokens tokens) (ht : t ∈ line.tokens) : t ∈ tokens := by
  induction tokens generalizing line with
  | nil => cases hline
  | cons s tokens ih =>
    rw [ofTokens] at hline
    have hpush : line ∈ push s (ofTokens tokens) → t ∈ s :: tokens := by
      intro hline
      cases hlines : ofTokens tokens with
      | nil =>
        rw [hlines, push] at hline
        rw [List.mem_singleton.mp hline] at ht
        rw [List.mem_singleton.mp ht]
        exact List.mem_cons_self
      | cons first rest =>
        rw [hlines, push] at hline
        rcases List.mem_cons.mp hline with rfl | hline
        · rcases List.mem_cons.mp ht with rfl | ht
          · exact List.mem_cons_self
          · exact List.mem_cons_of_mem _ (ih (by rw [hlines]; exact List.mem_cons_self) ht)
        · exact List.mem_cons_of_mem _
            (ih (by rw [hlines]; exact List.mem_cons_of_mem _ hline) ht)
    have hrest : ∀ nl, line ∈ (⟨[], nl⟩ : Line) :: ofTokens tokens → t ∈ s :: tokens := by
      intro nl hline
      rcases List.mem_cons.mp hline with rfl | hline
      · cases ht
      · exact List.mem_cons_of_mem _ (ih hline ht)
    split at hline
    · exact hrest _ hline
    · exact hrest _ hline
    · exact hpush hline

theorem mem_of_mem_statements {line : Line} {statement : List Token} {t : Token}
    (hs : statement ∈ line.statements) (ht : t ∈ statement) : t ∈ line.tokens :=
  (mem_of_mem_splitOnP hs ht).1

end Line
end VbaWorkbench
