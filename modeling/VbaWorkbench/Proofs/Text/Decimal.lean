import VbaWorkbench.Text.Digits

namespace VbaWorkbench.Text

theorem digitValue_of_isDigit {c : Char} (h : c.isDigit = true) :
    digitValue c = c.toNat - '0'.toNat := by
  rw [digitValue, if_pos h]

theorem isDigit_of_mem_ofNat {n : Nat} {c : Char} (h : c ∈ ofNat n) : c.isDigit = true :=
  Nat.isDigit_of_mem_toDigits (by decide) (by decide) h

theorem ofNat_ne_nil (n : Nat) : ofNat n ≠ [] :=
  Nat.toDigits_ne_nil

/-- A number is read from its digits. -/
@[simp] theorem digitsValue_ofNat (n : Nat) : digitsValue 10 (ofNat n) = n := by
  have hfold : ∀ (t : Text) (k : Nat), (∀ c ∈ t, c.isDigit = true) →
      t.foldl (fun n d => n * 10 + digitValue d) k = Nat.ofDigitChars 10 t k := by
    intro t
    induction t with
    | nil => intro k _; rfl
    | cons c t ih =>
      intro k ht
      rw [List.foldl_cons, ih _ fun d hd => ht d (by simp [hd]), Nat.ofDigitChars_cons,
        digitValue_of_isDigit (ht c (by simp)), Nat.mul_comm]
  rw [digitsValue, hfold _ _ fun c hc => isDigit_of_mem_ofNat hc]
  exact Nat.ofDigitChars_ten_toDigits

theorem takeWhile_digits {ds : Text} (hds : ∀ d ∈ ds, d.isDigit = true) {c : Char}
    (hc : c.isDigit = false) (rest : Text) :
    (ds ++ c :: rest).takeWhile Char.isDigit = ds := by
  rw [List.takeWhile_append_of_pos hds, List.takeWhile_cons, if_neg (by simp [hc]),
    List.append_nil]

/-- Only zero begins with a zero. -/
theorem head_ofNat {n : Nat} (h : 1 ≤ n) : ∃ c ds, ofNat n = c :: ds ∧ '1' ≤ c ∧ c ≤ '9' := by
  induction n using Nat.strongRecOn with
  | ind n ih =>
    have hdigits : ofNat n = if n < 10 then [n.digitChar] else ofNat (n / 10) ++ [(n % 10).digitChar] :=
      Nat.toDigits_eq_if (by decide)
    rcases Nat.lt_or_ge n 10 with hlt | hge
    · refine ⟨n.digitChar, [], by rw [hdigits, if_pos hlt], ?_⟩
      have hdigit : ∀ k < 10, 1 ≤ k → '1' ≤ k.digitChar ∧ k.digitChar ≤ '9' := by decide
      exact hdigit n hlt h
    · obtain ⟨c, ds, hc, hrange⟩ := ih (n / 10) (by omega) (by omega)
      refine ⟨c, ds ++ [(n % 10).digitChar], ?_, hrange⟩
      rw [hdigits, if_neg (by omega), hc, List.cons_append]

end VbaWorkbench.Text
