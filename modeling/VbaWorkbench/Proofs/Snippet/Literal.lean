import VbaWorkbench.Proofs.Token.LetterCase
import VbaWorkbench.Proofs.Token.LineCuts
import VbaWorkbench.Snippet.Placeholder

namespace VbaWorkbench

namespace Snippet

/-- The text that the inside of a string literal stands for. -/
def undoubled : Text → Text
  | '"' :: '"' :: t => '"' :: undoubled t
  | c :: t => c :: undoubled t
  | [] => []

theorem doubleQuotes_quote (t : Text) : doubleQuotes ('"' :: t) = '"' :: '"' :: doubleQuotes t :=
  rfl

theorem doubleQuotes_cons {c : Char} (h : c ≠ '"') (t : Text) :
    doubleQuotes (c :: t) = c :: doubleQuotes t := by
  rw [doubleQuotes, List.flatMap_cons, if_neg h]
  rfl

theorem undoubled_cons {c : Char} (h : c ≠ '"') (t : Text) :
    undoubled (c :: t) = c :: undoubled t := by
  rw [undoubled]
  rintro _ rfl _
  exact h rfl

@[simp] theorem undoubled_doubleQuotes (t : Text) : undoubled (doubleQuotes t) = t := by
  induction t with
  | nil => rfl
  | cons c t ih =>
    by_cases hc : c = '"'
    · rw [hc, doubleQuotes_quote, undoubled, ih]
    · rw [doubleQuotes_cons hc, undoubled_cons hc, ih]

theorem count_doubleQuotes (t : Text) : (doubleQuotes t).count '"' = 2 * t.count '"' := by
  induction t with
  | nil => rfl
  | cons c t ih =>
    by_cases hc : c = '"'
    · rw [hc, doubleQuotes_quote, List.count_cons_self, List.count_cons_self, ih,
        List.count_cons_self]
      omega
    · rw [doubleQuotes_cons hc, List.count_cons_of_ne hc, ih, List.count_cons_of_ne hc]

/-- Doubled quotes are read as the inside of a literal, up to the quote that closes it. -/
theorem quoted_doubleQuotes {t next : Text} (ht : t.any Text.isLineBreak = false)
    (hnext : next.head? ≠ some '"') :
    Reach.quoted (doubleQuotes t ++ '"' :: next) = (doubleQuotes t).length + 1 := by
  induction t with
  | nil => exact Reach.quoted_cons_of_not_doubled (fun h => hnext h.2)
  | cons c t ih =>
    obtain ⟨hbreak, ht⟩ := Bool.or_eq_false_iff.mp ht
    by_cases hc : c = '"'
    · rw [hc, doubleQuotes_quote, List.cons_append, List.cons_append, Reach.quoted, ih ht]
      rfl
    · rw [doubleQuotes_cons hc, List.cons_append,
        Reach.quoted_cons_of_not_doubled (fun h => hc h.1), if_neg hc, hbreak, ih ht]
      rfl

namespace Placeholder

theorem resolveString_ok {v : Value} {t : Text} (h : resolveString v = .ok (.text t)) :
    t = doubleQuotes v.display ∧ v.display.any Text.isLineBreak = false := by
  have hrest : (if v.display.any Text.isLineBreak then .error .singleLine
      else .ok (.text (doubleQuotes v.display)) : Except Constraint Resolved) = .ok (.text t) := by
    cases v with
    | text u => exact h
    | integer n => exact h
    | boolean b => cases h
  split at hrest
  · cases hrest
  · rename_i hbreak
    exact ⟨(Resolved.text.inj (Except.ok.inj hrest)).symm, by simpa using hbreak⟩

theorem resolveIdentifier_ok {v : Value} {t : Text} (h : resolveIdentifier v = .ok (.text t)) :
    isIdentifier t = true ∧ Keyword.isKeyword t = false := by
  cases v with
  | text u =>
    rw [resolveIdentifier] at h
    split at h
    · rename_i hu
      obtain rfl := Resolved.text.inj (Except.ok.inj h)
      simpa using hu
    · cases h
  | integer n => cases h
  | boolean b => cases h

end Placeholder

end Snippet

/-- A closed literal at the front of a source is its first token and no unterminated string. -/
theorem tokenize_literal {t next : Text} (ht : t.any Text.isLineBreak = false)
    (hnext : next.head? ≠ some '"') :
    let literal : Token := ⟨⟨.stringLiteral, '"' :: Snippet.doubleQuotes t ++ ['"']⟩, 0⟩
    (tokenize (literal.text ++ next)).head? = some literal ∧
      0 ∉ unterminatedStrings (tokenize (literal.text ++ next)) := by
  intro literal
  have hread : literal.toLexeme.ReadsIn .initial next := by
    have hquoted := Snippet.quoted_doubleQuotes ht hnext
    rw [← List.singleton_append, ← List.append_assoc] at hquoted
    have hlength : (Snippet.doubleQuotes t ++ ['"']).length =
        (Snippet.doubleQuotes t).length + 1 := List.length_append
    exact readsIn_quote.mpr ⟨rfl, hquoted.trans hlength.symm⟩
  have htokens : tokenize (literal.text ++ next) =
      literal :: Token.place (Text.byteLength literal.text)
        (scanFrom (ScanState.initial.next literal.kind) next ++ [⟨.endOfInput, []⟩]) := by
    rw [tokenize, scanFrom_of_readsIn hread, List.cons_append, Token.place, Nat.zero_add]
  have hclosed : literal.isUnterminated = false := by
    have hcount : literal.text.count '"' = 2 * t.count '"' + 2 := by
      show ('"' :: (Snippet.doubleQuotes t ++ ['"'])).count '"' = _
      rw [List.count_cons_self, List.count_append, Snippet.count_doubleQuotes]
      rfl
    simp only [Token.isUnterminated, hcount, Bool.and_eq_false_iff, beq_eq_false_iff_ne]
    omega
  refine ⟨by rw [htokens]; rfl, ?_⟩
  rw [htokens, unterminatedStrings, List.filter_cons_of_neg (by simp [hclosed])]
  intro hmem
  obtain ⟨later, hlater, hstart⟩ := List.mem_map.mp hmem
  have hpos := Token.le_start_of_mem_place (List.mem_filter.mp hlater).1
  rw [hstart] at hpos
  have hquote : 0 < '"'.utf8Size := by decide
  simp only [literal, List.cons_append, Text.byteLength] at hpos
  omega

/-- `Rem` is a keyword, in any ASCII case. -/
theorem isKeyword_of_sameAscii_rem {word : Text} (h : Text.sameAscii word "rem".toList = true) :
    Keyword.isKeyword word = true := by
  have hlower : Text.lowerAscii word = Text.lowerAscii "rem".toList := eq_of_beq h
  rw [← isKeyword_lowerAscii, hlower]
  decide

/-- A name that is no keyword is one token. -/
theorem tokenize_identifier {t : Text} (ht : isIdentifier t = true)
    (hk : Keyword.isKeyword t = false) :
    tokenize t = [⟨⟨.identifier, t⟩, 0⟩, ⟨⟨.endOfInput, []⟩, Text.byteLength t⟩] := by
  cases t with
  | nil => cases ht
  | cons c rest =>
    have hread : Shape.read c rest = (.word, rest.length) := eq_of_beq ht
    have hremark : beginsRemark .initial .word (c :: rest.take rest.length) = false := by
      rw [List.take_length, Bool.eq_false_iff]
      intro hr
      simp only [beginsRemark, Bool.and_eq_true] at hr
      rw [isKeyword_of_sameAscii_rem hr.2] at hk
      cases hk
    have hlexeme : Lexeme.ofWord (c :: rest) [] = [⟨.identifier, c :: rest⟩] := by
      simp [Lexeme.ofWord, hk]
    have hstep := scanStep_code hread hremark
    rw [List.take_length, List.drop_length, Lexeme.ofShape, hlexeme] at hstep
    rw [tokenize, scanFrom_cons, hstep, List.drop_length, scanFrom_nil]
    simp [Token.place]

namespace Snippet

/-- What a string placeholder puts between quotes is read as one closed literal that stands for the
value, whatever follows that is no quote. What an identifier placeholder puts is read as one name. -/
theorem resolve_tokenize {p : Placeholder} {v : Value} {t : Text}
    (h : p.resolve v = .ok (.text t)) :
    (p.kind = .string → undoubled t = v.display ∧ ∀ next : Text, next.head? ≠ some '"' →
      let literal : Token := ⟨⟨.stringLiteral, '"' :: t ++ ['"']⟩, 0⟩
      (tokenize (literal.text ++ next)).head? = some literal ∧
        0 ∉ unterminatedStrings (tokenize (literal.text ++ next))) ∧
    (p.kind = .identifier →
      tokenize t = [⟨⟨.identifier, t⟩, 0⟩, ⟨⟨.endOfInput, []⟩, Text.byteLength t⟩]) := by
  rw [Placeholder.resolve] at h
  constructor
  · intro hkind
    rw [hkind] at h
    obtain ⟨rfl, hbreak⟩ := Placeholder.resolveString_ok h
    exact ⟨undoubled_doubleQuotes _, fun next hnext => tokenize_literal hbreak hnext⟩
  · intro hkind
    rw [hkind] at h
    obtain ⟨ht, hk⟩ := Placeholder.resolveIdentifier_ok h
    exact tokenize_identifier ht hk

theorem resolve_tokenize_quotes :
    let caption : Placeholder := ⟨"caption".toList, .string, none, [], none, none⟩
    let v : Value := .text "\"é\"".toList
    let t : Text := "\"\"é\"\"".toList
    let name : Placeholder := ⟨"name".toList, .identifier, none, [], none, none⟩
    (caption.resolve v = .ok (.text t) ∧ caption.kind = .string ∧ undoubled t = v.display ∧
      "é\"".toList.head? ≠ some '"' ∧
      (tokenize ("\"\"\"é\"\"\"".toList ++ "é\"".toList)).head? =
        some ⟨⟨.stringLiteral, "\"\"\"é\"\"\"".toList⟩, 0⟩ ∧
      0 ∉ unterminatedStrings (tokenize ("\"\"\"é\"\"\"".toList ++ "é\"".toList))) ∧
    (name.resolve (.text "Rem!".toList) = .ok (.text "Rem!".toList) ∧ name.kind = .identifier ∧
      tokenize "Rem!".toList =
        [⟨⟨.identifier, "Rem!".toList⟩, 0⟩, ⟨⟨.endOfInput, []⟩, 4⟩]) := by
  intro caption v t name
  have hcaption : caption.resolve v = .ok (.text t) := by decide
  have hname : name.resolve (.text "Rem!".toList) = .ok (.text "Rem!".toList) := by
    decide +kernel
  have hnext : "é\"".toList.head? ≠ some '"' := by decide
  obtain ⟨hvalue, hliteral⟩ := (resolve_tokenize hcaption).1 rfl
  exact ⟨⟨hcaption, rfl, hvalue, hnext, hliteral _ hnext⟩, hname, rfl,
    (resolve_tokenize hname).2 rfl⟩

end Snippet

end VbaWorkbench
