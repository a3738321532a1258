import VbaWorkbench.Block.Statement
import VbaWorkbench.Proofs.Token.LetterCase

namespace VbaWorkbench

namespace Text

/-- What stands before the first space. -/
def firstWord (t : Text) : Text :=
  t.takeWhile (· ≠ ' ')

theorem firstWord_append {t : Text} (h : ' ' ∉ t) (u : Text) :
    firstWord (t ++ u) = t ++ firstWord u := by
  apply List.takeWhile_append_of_pos
  intro c hc
  have hne : c ≠ ' ' := fun he => h (he ▸ hc)
  simpa using hne

/-- Texts that are the same but for the case of letters have their spaces at the same places. -/
theorem absent_of_sameAscii {t u : Text} (h : sameAscii t u = true) (hu : ' ' ∉ u) : ' ' ∉ t := by
  intro ht
  have hlower : ' ' ∈ lowerAscii u := by
    rw [← beq_iff_eq.mp h]
    exact List.mem_map.mpr ⟨' ', ht, rfl⟩
  obtain ⟨c, hc, hspace⟩ := List.mem_map.mp hlower
  exact hu ((toLower_eq_iff (d := ' ') (by decide) c).mp hspace ▸ hc)

end Text

namespace Token

variable {t : Token} {word : String}

theorem sameAscii_of_isKeyword (h : t.isKeyword word = true) :
    t.kind = .keyword ∧ Text.sameAscii t.text word.toList = true := by
  simpa [isKeyword] using h

theorem absent_of_isKeyword (h : t.isKeyword word = true) (hword : ' ' ∉ word.toList) :
    ' ' ∉ t.text :=
  Text.absent_of_sameAscii (sameAscii_of_isKeyword h).2 hword

end Token

namespace Statement

/-- The statement is reported at the keyword, by a construct that begins with it. -/
structure ReportedAt (s : Statement) (t : Token) : Prop where
  keyword : t.kind = .keyword
  start : t.start = s.offset
  word : Text.firstWord s.construct = t.text

section Reports

variable {t : Token} {word : String} {role : Role}

theorem reportedAt_one (h : t.isKeyword word = true) (hword : ' ' ∉ word.toList) :
    ReportedAt ⟨role, t.text, t.start⟩ t :=
  ⟨(Token.sameAscii_of_isKeyword h).1, rfl, by
    simpa [Text.firstWord] using Text.firstWord_append (Token.absent_of_isKeyword h hword) []⟩

theorem reportedAt_two (h : t.isKeyword word = true) (hword : ' ' ∉ word.toList) (u : Token) :
    ReportedAt ⟨role, twoWords t u, t.start⟩ t :=
  ⟨(Token.sameAscii_of_isKeyword h).1, rfl, by
    simpa [Text.firstWord, twoWords] using
      Text.firstWord_append (Token.absent_of_isKeyword h hword) (' ' :: u.text)⟩

end Reports

/-- The word opens blocks of this kind, in any case. -/
def Opens (word : Text) (kind : BlockKind) : Prop :=
  Text.sameAscii word (Text.firstWord kind.opening.toList) = true

theorem opens_of_isKeyword {t : Token} {word : String} {kind : BlockKind}
    (h : t.isKeyword word = true)
    (hkind : Text.lowerAscii (Text.firstWord kind.opening.toList) = Text.lowerAscii word.toList) :
    Opens t.text kind := by
  obtain ⟨-, hsame⟩ := Token.sameAscii_of_isKeyword h
  rw [Opens, Text.sameAscii, hkind]
  exact hsame

/-- What a statement does, seen from the keyword at which it is reported. -/
inductive Led (s : Statement) (t : Token) : Prop
  | opener (kind : BlockKind) (role : s.role = .opener kind) (opens : Opens t.text kind)
      (reported : s.ReportedAt t)
  | closer (kind : BlockKind) (count : Nat) (role : s.role = .closer kind count)
      (reported : s.ReportedAt t)
  | clause (kind : BlockKind) (role : s.role = .clause kind) (reported : s.ReportedAt t)
  | none (role : s.role = .plain ∨ s.role = .singleLineIf)

theorem led_of_declares {lead : Token} {rest : List Token} {kind : BlockKind}
    (h : declares? lead rest = some kind) :
    Led ⟨.opener kind, lead.text, lead.start⟩ lead := by
  have hled : ∀ word : String, lead.isKeyword word = true → ' ' ∉ word.toList →
      Text.lowerAscii (Text.firstWord kind.opening.toList) = Text.lowerAscii word.toList →
        Led ⟨.opener kind, lead.text, lead.start⟩ lead := by
    intro word hword hspace hopening
    exact .opener kind rfl (opens_of_isKeyword hword hopening) (reportedAt_one hword hspace)
  unfold declares? at h
  dsimp only at h
  split at h
  · obtain rfl := Option.some.inj h
    exact hled "sub" ‹_› (by decide) (by decide)
  split at h
  · obtain rfl := Option.some.inj h
    exact hled "function" ‹_› (by decide) (by decide)
  split at h
  · split at h
    · obtain rfl := Option.some.inj h
      exact hled "property" ‹_› (by decide) (by decide)
    · cases h
  split at h
  · obtain rfl := Option.some.inj h
    exact hled "type" (Bool.and_eq_true_iff.mp ‹_›).1 (by decide) (by decide)
  split at h
  · obtain rfl := Option.some.inj h
    exact hled "enum" (Bool.and_eq_true_iff.mp ‹_›).1 (by decide) (by decide)
  · cases h

theorem led_of_loop {first : Token} {kind : BlockKind} (h : named? loops first = some kind) :
    Led ⟨.opener kind, first.text, first.start⟩ first := by
  obtain ⟨entry, hfind, rfl⟩ := Option.map_eq_some_iff.mp h
  have hword : first.isKeyword entry.1 = true := by simpa using List.find?_some hfind
  have htable : ∀ entry ∈ loops, ' ' ∉ entry.1.toList ∧
      Text.lowerAscii (Text.firstWord entry.2.opening.toList) = Text.lowerAscii entry.1.toList := by
    decide
  obtain ⟨hspace, hopening⟩ := htable entry (List.mem_of_find?_eq_some hfind)
  exact .opener entry.2 rfl (opens_of_isKeyword hword hopening) (reportedAt_one hword hspace)

theorem led_ofIf {first : Token} (h : first.isKeyword "if" = true) (rest : List Token)
    (codeFollows : Bool) : Led (ofIf first rest codeFollows) first := by
  unfold ofIf
  split
  · exact .none (.inl rfl)
  · split
    · exact .opener .ifThen rfl (opens_of_isKeyword h (by decide)) (reportedAt_one h (by decide))
    · exact .none (.inr rfl)

/-- A statement that declares nothing is reported at its first word. -/
theorem led_ofKeyword (first : Token) (rest : List Token) (codeFollows : Bool) :
    Led (ofKeyword first rest codeFollows) first := by
  unfold ofKeyword
  dsimp only
  split
  · exact led_ofIf ‹_› rest codeFollows
  split
  · rename_i hword
    rcases Bool.or_eq_true_iff.mp hword with hword | hword
    · exact .clause .ifThen rfl (reportedAt_one hword (by decide))
    · exact .clause .ifThen rfl (reportedAt_one hword (by decide))
  split
  · exact .clause .selectCase rfl (reportedAt_one ‹_› (by decide))
  split
  · rename_i hword
    split
    · exact .opener .selectCase rfl (opens_of_isKeyword hword (by decide))
        (reportedAt_two hword (by decide) _)
    · exact .none (.inl rfl)
  split
  · exact .closer .forLoop _ rfl (reportedAt_one ‹_› (by decide))
  split
  · exact .closer .doLoop 1 rfl (reportedAt_one ‹_› (by decide))
  split
  · exact .closer .whileLoop 1 rfl (reportedAt_one ‹_› (by decide))
  split
  · rename_i hword
    split
    · exact .none (.inl rfl)
    · split
      · exact .closer _ 1 rfl (reportedAt_two hword (by decide) _)
      · exact .none (.inl rfl)
  split
  · exact led_of_loop ‹_›
  · exact .none (.inl rfl)

/-- The words of a statement from the keyword on that may declare something. -/
def leading (words : List Token) : List Token :=
  (withoutLineNumber (significant words)).dropWhile Token.isModifier

/-- A statement that does something to the blocks is reported at the first of its words behind the
line number and the modifiers. Only an opener has modifiers. -/
theorem exists_led (words : List Token) (codeFollows : Bool)
    (h : (ofTokens words codeFollows).role ≠ .plain) :
    ∃ t, (leading words).head? = some t ∧ Led (ofTokens words codeFollows) t ∧
      ((∀ kind, (ofTokens words codeFollows).role ≠ .opener kind) →
        (withoutLineNumber (significant words)).head? = some t) := by
  unfold leading
  unfold ofTokens at h ⊢
  split
  · rename_i hnil
    simp [hnil] at h
  · rename_i first rest hwords
    simp only [hwords] at h ⊢
    split
    · rename_i hlead
      simp [hlead] at h
    · rename_i lead following hlead
      simp only [hlead] at h ⊢
      split
      · rename_i kind hdeclares
        exact ⟨lead, rfl, led_of_declares hdeclares, fun hopener => absurd rfl (hopener kind)⟩
      · rename_i hdeclares
        simp only [hdeclares] at h
        split
        · rename_i hplain
          rw [if_pos hplain] at h
          exact absurd rfl h
        · rename_i hbare
          have hmodifier : ¬first.isModifier = true := by
            intro hmodifier
            simp [hmodifier] at hbare
          rw [List.dropWhile_cons_of_neg hmodifier] at hlead
          obtain ⟨rfl, rfl⟩ := List.cons.inj hlead
          exact ⟨first, rfl, led_ofKeyword first rest codeFollows, fun _ => rfl⟩

end Statement
end VbaWorkbench
