import VbaWorkbench.Proofs.Pattern.SameReading
import VbaWorkbench.Proofs.Text.Slices

namespace VbaWorkbench.Pattern

/-- A symbol and the foreign constructs in it, without the places. -/
def PlacedSymbol.content (p : PlacedSymbol) : Symbol × List ForeignConstruct :=
  (p.symbol, p.warnings.map (·.construct))

/-- Reading `t` from byte `offset` on gives the symbols `ps` and comes to the text `rest` at byte
`stop`. -/
inductive Reads : (offset : Nat) → (t : Text) → (ps : List PlacedSymbol) → (stop : Nat) →
    (rest : Text) → Prop where
  | nil (offset : Nat) (t : Text) : Reads offset t [] offset t
  | cons {offset stop : Nat} {c : Char} {t rest : Text} {r : Reading Symbol} {ps : List PlacedSymbol}
      (symbol : readSymbol offset c t = .ok r)
      (more : Reads (offset + Text.byteLength (c :: t.take (r.length - 1))) (t.drop (r.length - 1))
        ps stop rest) :
      Reads offset (c :: t) (⟨r.value, offset, r.warnings⟩ :: ps) stop rest

namespace Reads

variable {offset stop : Nat} {t rest : Text} {ps : List PlacedSymbol}

theorem readSymbols_eq (h : Reads offset t ps stop rest) :
    readSymbols offset t =
      let more := readSymbols stop rest
      ⟨ps ++ more.symbols, more.flaw⟩ := by
  induction h with
  | nil => rfl
  | cons symbol _ ih =>
    rw [readSymbols, symbol]
    dsimp only
    rw [ih]
    rfl

/-- Every symbol of a text is reached. -/
theorem exists_of_mem {p : PlacedSymbol} (h : p ∈ (readSymbols offset t).symbols) :
    ∃ ps c rest r, Reads offset t ps p.offset (c :: rest) ∧
      readSymbol p.offset c rest = .ok r ∧ p = ⟨r.value, p.offset, r.warnings⟩ := by
  fun_induction readSymbols offset t with
  | case1 => cases h
  | case2 => cases h
  | case3 offset c rest r hr n more ih =>
    rcases List.mem_cons.mp h with rfl | h
    · exact ⟨[], c, rest, r, .nil offset _, hr, rfl⟩
    · obtain ⟨ps, c', rest', r', hreads, hr', hp⟩ := ih h
      exact ⟨_, c', rest', r', .cons hr hreads, hr', hp⟩

/-- What has been read up to a place is read again if the text goes on otherwise from there, as long
as a group or an escape begins there before and after. -/
theorem elsewhere (h : Reads offset t ps stop rest) (hrest : Opens rest) :
    ∃ before, t = before ++ rest ∧ stop = offset + Text.byteLength before ∧
      ∀ other, Opens other → ∃ ps', Reads offset (before ++ other) ps' stop other ∧
        ps'.map (·.content) = ps.map (·.content) := by
  induction h with
  | nil offset t => exact ⟨[], rfl, rfl, fun other _ => ⟨[], .nil offset other, rfl⟩⟩
  | @cons offset stop c t rest r ps symbol _ ih =>
    obtain ⟨before, hbefore, hstop, hother⟩ := ih hrest
    have htext : t = t.take (r.length - 1) ++ before ++ rest := by
      rw [List.append_assoc, ← hbefore, List.take_append_drop]
    -- The text goes on, so the symbol has all its characters.
    have hlength : (t.take (r.length - 1)).length = r.length - 1 := by
      obtain ⟨d, more, rfl, -⟩ := hrest.exists_cons
      have := congrArg List.length hbefore
      simp only [List.length_drop, List.length_append, List.length_cons] at this
      rw [List.length_take]
      omega
    refine ⟨c :: t.take (r.length - 1) ++ before, ?_, ?_, ?_⟩
    · rw [List.cons_append, List.cons_append, ← htext]
    · rw [hstop, Text.byteLength_append, Nat.add_assoc]
    · intro other hopens
      obtain ⟨ps', hreads, hcontent⟩ := hother other hopens
      have halike : Alike (r.length - 1) t (t.take (r.length - 1) ++ (before ++ other)) := by
        refine .inr ⟨t.take (r.length - 1) ++ before, rest, other, htext, ?_, ?_, hrest, hopens⟩
        · rw [List.append_assoc]
        · rw [List.length_append, hlength]
          exact Nat.le_add_right _ _
      have hread : Rereads
          (readSymbol offset c (t.take (r.length - 1) ++ (before ++ other))) r :=
        readSymbol_alike symbol halike
      obtain ⟨r', hr', hagree⟩ := hread
      refine ⟨⟨r'.value, offset, r'.warnings⟩ :: ps', ?_, ?_⟩
      · rw [List.append_assoc, List.cons_append]
        refine .cons hr' ?_
        rw [hagree.length, List.take_left' hlength, List.drop_left' hlength]
        exact hreads
      · rw [List.map_cons, List.map_cons, hcontent]
        exact congrArg (· :: _) (Prod.ext hagree.value hagree.constructs)

end Reads

/-- A text without a flaw is read alike wherever it stands. -/
theorem readSymbols_moved {offset : Nat} {t : Text} (offset' : Nat)
    (h : (readSymbols offset t).flaw = none) :
    (readSymbols offset' t).flaw = none ∧
      (readSymbols offset' t).symbols.map (·.content) =
        (readSymbols offset t).symbols.map (·.content) := by
  fun_induction readSymbols offset t generalizing offset' with
  | case1 =>
    rw [readSymbols]
    exact ⟨rfl, rfl⟩
  | case2 => cases h
  | case3 offset c rest r hr n more ih =>
    have hread : Rereads (readSymbol offset' c rest) r := readSymbol_alike hr (.refl _ rest)
    obtain ⟨r', hr', hagree⟩ := hread
    have hn : r'.length - 1 = n := by rw [hagree.length]
    obtain ⟨hflaw, hcontent⟩ := ih (offset' + Text.byteLength (c :: rest.take n)) h
    rw [readSymbols, hr']
    dsimp only
    rw [hn]
    refine ⟨hflaw, ?_⟩
    rw [List.map_cons, List.map_cons, hcontent]
    exact congrArg (· :: _) (Prod.ext hagree.value hagree.constructs)

end VbaWorkbench.Pattern
