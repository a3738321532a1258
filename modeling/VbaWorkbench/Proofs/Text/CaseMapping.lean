import VbaWorkbench.Text.Lowercase

namespace VbaWorkbench

namespace Character

theorem toNat_ofNat (n : Nat) : (Char.ofNat n).toNat = n ∨ (Char.ofNat n).toNat = 0 := by
  by_cases h : n.isValidChar
  · have hn : Char.ofNat n = Char.ofNatAux n h := dif_pos h
    exact .inl (by rw [hn]; rfl)
  · have hn : Char.ofNat n = Char.ofNatAux 0 (.inl (by decide)) := dif_neg h
    exact .inr (by rw [hn]; rfl)

theorem code_of_ofNat {code : Nat} {c : Char} (h : Char.ofNat code = c) (hc : c.toNat ≠ 0) :
    code = c.toNat := by
  subst h
  exact (toNat_ofNat code).resolve_right hc |>.symm

/-- What holds of the ASCII letters and digits, looked at one by one. -/
theorem forall_plain {P : Char → Prop} {c : Char}
    (h : ∀ code < 128, (Char.ofNat code).isAlphanum = true → P (Char.ofNat code))
    (hc : c.isAlphanum = true) : P c := by
  have hlow : c.toNat < 128 := by
    have hbelow : ∀ {last : Char}, c.val ≤ last.val → last.toNat < 128 → c.toNat < 128 :=
      fun hle hlast => Nat.lt_of_le_of_lt hle hlast
    rcases (Bool.or_eq_true _ _).mp hc with hletter | hdigit
    · rcases (Bool.or_eq_true _ _).mp hletter with hcapital | hsmall
      · exact hbelow (of_decide_eq_true hcapital).2 (by decide)
      · exact hbelow (of_decide_eq_true ((Bool.and_eq_true _ _).mp hsmall).2) (by decide)
    · exact hbelow (of_decide_eq_true ((Bool.and_eq_true _ _).mp hdigit).2) (by decide)
  have hcode := h c.toNat hlow
  rw [Char.ofNat_toNat] at hcode
  exact hcode hc

theorem le_shifted {bound : Nat} {shifts : List Shift}
    (h : ∀ s ∈ shifts, (bound : Int) ≤ s.run.first + s.offset) (code : Nat) :
    shifted shifts code = code ∨ bound ≤ shifted shifts code := by
  induction shifts with
  | nil => exact .inl rfl
  | cons s shifts ih =>
    obtain ⟨hs, hshifts⟩ := List.forall_mem_cons.mp h
    rw [shifted]
    split
    · exact .inl rfl
    · split
      · right
        omega
      · exact ih hshifts

/-- A character of a mapping that is lower than all that the tables map to is the character that was
mapped. -/
theorem eq_of_mem_mapped {bound : Nat} {shifts : List Shift} {expansions : List (Nat × List Nat)}
    (hshifts : ∀ s ∈ shifts, (bound : Int) ≤ s.run.first + s.offset)
    (hexpansions : ∀ e ∈ expansions, ∀ code ∈ e.2, bound ≤ code) {c d : Char}
    (h : d ∈ mapped shifts expansions c) (hlow : d.toNat < bound) (hpos : d.toNat ≠ 0) : d = c := by
  have hcode : ∀ code, bound ≤ code → d ≠ Char.ofNat code := by
    intro code hle heq
    have hd := code_of_ofNat heq.symm hpos
    omega
  unfold mapped at h
  split at h
  · rename_i codes hcodes
    obtain ⟨code, hmem, hd⟩ := List.mem_map.mp h
    obtain ⟨before, after, hsplit, -⟩ := List.lookup_eq_some_iff.mp hcodes
    have hentry : (c.toNat, codes) ∈ expansions := by simp [hsplit]
    exact absurd hd.symm (hcode code (hexpansions _ hentry code hmem))
  · have hd := List.mem_singleton.mp h
    rcases le_shifted hshifts c.toNat with heq | hle
    · rwa [heq, Char.ofNat_toNat] at hd
    · exact absurd hd (hcode _ hle)

theorem eq_of_mem_lower {c d : Char} (h : d ∈ lower c) (hlow : d.toNat < 0x61)
    (hpos : d.toNat ≠ 0) : d = c :=
  eq_of_mem_mapped (by decide +kernel) (by decide) h hlow hpos

theorem eq_of_mem_upper {c d : Char} (h : d ∈ upper c) (hlow : d.toNat < 0x41)
    (hpos : d.toNat ≠ 0) : d = c :=
  eq_of_mem_mapped (by decide +kernel) (by decide +kernel) h hlow hpos

end Character

namespace Text

/-- A sigma at the end of its word is the one character with a lower case of its own there. -/
theorem lowercaseAfter_cons (before : Text) (c : Char) (t : Text) :
    ∃ s, lowercaseAfter before (c :: t) = s ++ lowercaseAfter (c :: before) t ∧
      (s = Character.lower c ∨ c = 'Σ' ∧ s = ['ς']) := by
  refine ⟨_, rfl, ?_⟩
  split
  · rename_i hc
    subst hc
    split
    · exact .inr ⟨rfl, rfl⟩
    · exact .inl (by decide)
  · exact .inl rfl

theorem mem_of_mem_lowercaseAfter {before t : Text} {d : Char} (h : d ∈ lowercaseAfter before t)
    (hlow : d.toNat < 0x61) (hpos : d.toNat ≠ 0) : d ∈ t := by
  induction t generalizing before with
  | nil => cases h
  | cons c t ih =>
    obtain ⟨s, heq, hs⟩ := lowercaseAfter_cons before c t
    rw [heq] at h
    rcases List.mem_append.mp h with h | h
    · rcases hs with rfl | ⟨-, rfl⟩
      · rw [Character.eq_of_mem_lower h hlow hpos]
        exact List.mem_cons_self
      · rw [List.mem_singleton.mp h] at hlow
        exact absurd hlow (by decide)
    · exact List.mem_cons_of_mem _ (ih h)

/-- Lower case adds no character below the small letters. -/
theorem mem_of_mem_lowercase {t : Text} {d : Char} (h : d ∈ lowercase t) (hlow : d.toNat < 0x61)
    (hpos : d.toNat ≠ 0) : d ∈ t :=
  mem_of_mem_lowercaseAfter h hlow hpos

theorem underscore_mem_lowercaseAfter {before t : Text} (h : '_' ∈ t) :
    '_' ∈ lowercaseAfter before t := by
  induction t generalizing before with
  | nil => cases h
  | cons c t ih =>
    rw [lowercaseAfter, List.mem_append]
    rcases List.mem_cons.mp h with rfl | h
    · have hlower : '_' ∈ Character.lower '_' := by decide
      rw [if_neg (by decide)]
      exact .inl hlower
    · exact .inr (ih h)

/-- Names that differ in case only have underscores or have none together. -/
theorem underscore_mem_lowercase {t : Text} : '_' ∈ lowercase t ↔ '_' ∈ t :=
  ⟨fun h => mem_of_mem_lowercase h (by decide) (by decide), underscore_mem_lowercaseAfter⟩

end Text

end VbaWorkbench
