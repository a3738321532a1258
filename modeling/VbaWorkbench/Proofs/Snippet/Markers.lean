import VbaWorkbench.Proofs.Text.CaseMapping
import VbaWorkbench.Snippet.Marker

namespace VbaWorkbench.Snippet

/-- Letters, digits and underscores make up names. -/
def isNamePart (c : Char) : Bool :=
  c.isAlphanum || c == '_'

/-- A letter, and parts of names after it. -/
def IsName (t : Text) : Prop :=
  ∃ c rest, t = c :: rest ∧ c.isAlpha = true ∧ ∀ d ∈ rest, isNamePart d = true

def IsSpace (t : Text) : Prop :=
  ∀ c ∈ t, Character.isWhiteSpace c = true

namespace Marker

/-- What a marker has between its braces, without the space at both ends. -/
inductive Says : Marker → Text → Prop
  | value {name : Text} : IsName name → name ≠ "else".toList → Says (.value name) name
  | opening {tag : Tag} {space flag : Text} : space ≠ [] → IsSpace space → IsName flag →
      Says (.opening tag flag) ('#' :: (tag.word.toList ++ (space ++ flag)))
  | otherwise : Says .otherwise "else".toList
  | closing (tag : Tag) : Says (.closing tag) ('/' :: tag.word.toList)

/-- The marker is written so. -/
def Written (m : Marker) (t : Text) : Prop :=
  ∃ left inside right, t = "\x7b\x7b".toList ++ (left ++ (inside ++ (right ++ "\x7d\x7d".toList))) ∧
    IsSpace left ∧ m.Says inside ∧ IsSpace right

end Marker

section Characters

variable {c : Char}

theorem not_whiteSpace_of_isNamePart (h : isNamePart c = true) :
    Character.isWhiteSpace c = false := by
  rcases Bool.or_eq_true_iff.mp h with h | h
  · exact Character.forall_plain (P := fun c => Character.isWhiteSpace c = false)
      (by decide +kernel) h
  · rw [beq_iff_eq.mp h]
    decide

theorem isNamePart_of_isAlpha (h : c.isAlpha = true) : isNamePart c = true := by
  rw [isNamePart, Bool.or_eq_true]
  exact .inl (Bool.or_eq_true_iff.mpr (.inl h))

/-- The character cannot go on with a name. -/
theorem not_isNamePart_of_whiteSpace (h : Character.isWhiteSpace c = true) :
    isNamePart c = false := by
  cases hpart : isNamePart c with
  | false => rfl
  | true =>
    rw [not_whiteSpace_of_isNamePart hpart] at h
    cases h

end Characters

section Reading

variable {t rest name space word : Text}

theorem after?_append (word rest : Text) : after? word (word ++ rest) = some rest := by
  simp [after?]

theorem after?_eq_some (h : after? word t = some rest) : t = word ++ rest := by
  unfold after? at h
  split at h
  · rename_i hprefix
    obtain ⟨more, rfl⟩ := List.isPrefixOf_iff_prefix.mp hprefix
    rw [← Option.some.inj h, List.drop_left]
  · cases h

theorem skipSpace_append (hspace : IsSpace space)
    (hrest : ∀ c ∈ rest.head?, Character.isWhiteSpace c = false) :
    skipSpace (space ++ rest) = rest := by
  rw [skipSpace, List.dropWhile_append_of_pos hspace]
  cases rest with
  | nil => rfl
  | cons c rest => exact List.dropWhile_cons_of_neg (by simp [hrest c rfl])

/-- Whatever the text, what is skipped is space. -/
theorem exists_skipped (t : Text) : ∃ space, t = space ++ skipSpace t ∧ IsSpace space := by
  exact ⟨t.takeWhile Character.isWhiteSpace, List.takeWhile_append_dropWhile.symm,
    List.all_eq_true.mp List.all_takeWhile⟩

theorem name?_append (hname : IsName name) (hrest : ∀ c ∈ rest.head?, isNamePart c = false) :
    name? (name ++ rest) = some (name, rest) := by
  obtain ⟨c, parts, rfl, hc, hparts⟩ := hname
  have htake : rest.takeWhile isNamePart = [] := by
    cases rest with
    | nil => rfl
    | cons d rest => exact List.takeWhile_cons_of_neg (by simp [hrest d rfl])
  have hdrop : rest.dropWhile isNamePart = rest := by
    cases rest with
    | nil => rfl
    | cons d rest => exact List.dropWhile_cons_of_neg (by simp [hrest d rfl])
  have hread : name? (c :: (parts ++ rest)) =
      if c.isAlpha then some (c :: (parts ++ rest).takeWhile isNamePart,
        (parts ++ rest).dropWhile isNamePart) else none := rfl
  rw [List.cons_append, hread, if_pos hc, List.takeWhile_append_of_pos hparts,
    List.dropWhile_append_of_pos hparts, htake, hdrop, List.append_nil]

theorem name?_eq_some (h : name? t = some (name, rest)) : t = name ++ rest ∧ IsName name := by
  cases t with
  | nil => cases h
  | cons c t =>
    have hread : name? (c :: t) =
      if c.isAlpha then some (c :: t.takeWhile isNamePart, t.dropWhile isNamePart) else none := rfl
    rw [hread] at h
    split at h
    · rename_i hc
      obtain ⟨rfl, rfl⟩ := Prod.mk.inj (Option.some.inj h)
      exact ⟨by simp, c, _, rfl, hc, List.all_eq_true.mp List.all_takeWhile⟩
    · cases h

/-- A name begins with no space. -/
theorem IsName.head (h : IsName name) (rest : Text) :
    ∀ c ∈ (name ++ rest).head?, Character.isWhiteSpace c = false := by
  obtain ⟨c, parts, rfl, hc, -⟩ := h
  intro d hd
  obtain rfl : c = d := Option.some.inj hd
  exact not_whiteSpace_of_isNamePart (isNamePart_of_isAlpha hc)

theorem flag?_append (hne : space ≠ []) (hspace : IsSpace space) (hname : IsName name)
    (hrest : ∀ c ∈ rest.head?, isNamePart c = false) :
    flag? (space ++ (name ++ rest)) = some (name, rest) := by
  have hhead : (space ++ (name ++ rest)).head?.any Character.isWhiteSpace = true := by
    cases space with
    | nil => exact absurd rfl hne
    | cons c space => exact hspace c List.mem_cons_self
  rw [flag?, if_pos hhead, skipSpace_append hspace (hname.head rest), name?_append hname hrest]

theorem flag?_eq_some (h : flag? t = some (name, rest)) :
    ∃ space, t = space ++ (name ++ rest) ∧ space ≠ [] ∧ IsSpace space ∧ IsName name := by
  unfold flag? at h
  split at h
  · rename_i hhead
    obtain ⟨ht, hname⟩ := name?_eq_some h
    obtain ⟨space, hsplit, hspace⟩ := exists_skipped t
    refine ⟨space, by rw [← ht]; exact hsplit, ?_, hspace, hname⟩
    rintro rfl
    -- Without space the text would begin with the name.
    rw [List.nil_append] at hsplit
    rw [hsplit, ht, Option.any_eq_true] at hhead
    obtain ⟨c, hc, hwhite⟩ := hhead
    rw [hname.head rest c hc] at hwhite
    cases hwhite
  · cases h

end Reading

section Bodies

variable {m : Marker} {t rest inside : Text}

theorem markerBody?_append (h : m.Says inside) (hrest : ∀ c ∈ rest.head?, isNamePart c = false) :
    markerBody? (inside ++ rest) = some (m, rest) := by
  have hname : ∀ name, IsName name → markerBody? (name ++ rest) =
      some (if name = "else".toList then .otherwise else .value name, rest) := by
    intro name hname
    have hread := name?_append hname hrest
    obtain ⟨c, parts, rfl, hc, -⟩ := hname
    unfold markerBody?
    dsimp only
    split
    · rename_i heq
      obtain ⟨rfl, -⟩ := List.cons.inj heq
      cases hc
    · rename_i heq
      obtain ⟨rfl, -⟩ := List.cons.inj heq
      cases hc
    · rw [hread]
      rfl
  cases h with
  | value hvalue hne => rw [hname _ hvalue, if_neg hne]
  | @opening tag space flag hne hspace hflag =>
    have hread := flag?_append hne hspace hflag hrest
    cases tag with
    | whenSet =>
      have hif := after?_append "if".toList (space ++ (flag ++ rest))
      simp only [Tag.word, List.cons_append, List.append_assoc, markerBody?, hif, hread,
        Option.map_some]
    | unlessSet =>
      have hunless := after?_append "unless".toList (space ++ (flag ++ rest))
      have hif : after? "if".toList ("unless".toList ++ (space ++ (flag ++ rest))) = none := rfl
      simp only [Tag.word, List.cons_append, List.append_assoc, markerBody?, hif, hunless, hread,
        Option.map_some]
  | otherwise =>
    have helse : IsName "else".toList := ⟨'e', "lse".toList, rfl, rfl, List.all_eq_true.mp rfl⟩
    rw [hname _ helse, if_pos rfl]
  | closing tag =>
    cases tag with
    | whenSet =>
      have hif := after?_append "if".toList rest
      simp only [Tag.word, List.cons_append, markerBody?, hif]
    | unlessSet =>
      have hunless := after?_append "unless".toList rest
      have hif : after? "if".toList ("unless".toList ++ rest) = none := rfl
      simp only [Tag.word, List.cons_append, markerBody?, hif, hunless]

theorem markerBody?_eq_some (h : markerBody? t = some (m, rest)) :
    ∃ inside, t = inside ++ rest ∧ m.Says inside := by
  have hopening : ∀ tag more,
      (flag? more).map (fun r => (Marker.opening tag r.1, r.2)) = some (m, rest) →
        ∃ inside, '#' :: (tag.word.toList ++ more) = inside ++ rest ∧ m.Says inside := by
    intro tag more hflag
    obtain ⟨⟨flag, left⟩, hread, heq⟩ := Option.map_eq_some_iff.mp hflag
    obtain ⟨rfl, rfl⟩ := Prod.mk.inj heq
    obtain ⟨space, rfl, hne, hspace, hname⟩ := flag?_eq_some hread
    exact ⟨_, by simp, .opening hne hspace hname⟩
  unfold markerBody? at h
  dsimp only at h
  split at h
  · split at h
    · rename_i hif
      rw [after?_eq_some hif]
      exact hopening .whenSet _ h
    · rename_i hunless
      rw [after?_eq_some hunless]
      exact hopening .unlessSet _ h
    · cases h
  · split at h
    · rename_i hif
      obtain ⟨rfl, rfl⟩ := Prod.mk.inj (Option.some.inj h)
      rw [after?_eq_some hif]
      exact ⟨_, rfl, .closing .whenSet⟩
    · rename_i hunless
      obtain ⟨rfl, rfl⟩ := Prod.mk.inj (Option.some.inj h)
      rw [after?_eq_some hunless]
      exact ⟨_, rfl, .closing .unlessSet⟩
    · cases h
  · obtain ⟨⟨name, left⟩, hread, heq⟩ := Option.map_eq_some_iff.mp h
    obtain ⟨rfl, rfl⟩ := Prod.mk.inj heq
    obtain ⟨rfl, hname⟩ := name?_eq_some hread
    refine ⟨name, rfl, ?_⟩
    dsimp only
    split
    · rename_i helse
      rw [helse]
      exact .otherwise
    · rename_i hne
      exact .value hname hne

/-- What a marker says begins with no space. -/
theorem Marker.Says.head (h : m.Says inside) (rest : Text) :
    ∀ c ∈ (inside ++ rest).head?, Character.isWhiteSpace c = false := by
  cases h with
  | value hname => exact hname.head rest
  | opening | otherwise | closing =>
    intro c hc
    obtain rfl := Option.some.inj hc
    decide

end Bodies

/-- A marker is read exactly where one is written. -/
theorem marker?_eq_some_iff {t : Text} {m : Marker} {n : Nat} : marker? t = some (m, n) ↔
    ∃ source rest, t = source ++ rest ∧ n = source.length ∧ m.Written source := by
  constructor
  · intro h
    unfold marker? at h
    split at h
    · cases h
    · rename_i inner hinner
      split at h
      · cases h
      · rename_i m' behind hbody
        obtain ⟨rest, hclose, heq⟩ := Option.map_eq_some_iff.mp h
        obtain ⟨rfl, rfl⟩ := Prod.mk.inj heq
        obtain ⟨inside, hinside, hsaid⟩ := markerBody?_eq_some hbody
        obtain ⟨left, hleft, hspace⟩ := exists_skipped inner
        obtain ⟨right, hright, hspace'⟩ := exists_skipped behind
        refine ⟨"\x7b\x7b".toList ++ (left ++ (inside ++ (right ++ "\x7d\x7d".toList))), rest,
          ?_, ?_, left, inside, right, rfl, hspace, hsaid, hspace'⟩
        · rw [after?_eq_some hinner, hleft, hinside, hright, after?_eq_some hclose]
          simp
        · rw [after?_eq_some hinner, hleft, hinside, hright, after?_eq_some hclose]
          simp
          omega
  · rintro ⟨_, rest, rfl, rfl, left, inside, right, rfl, hleft, hsaid, hright⟩
    have hsplit : "\x7b\x7b".toList ++ (left ++ (inside ++ (right ++ "\x7d\x7d".toList))) ++ rest =
        "\x7b\x7b".toList ++ (left ++ (inside ++ (right ++ ("\x7d\x7d".toList ++ rest)))) := by
      simp
    have hend : ∀ c ∈ (right ++ ("\x7d\x7d".toList ++ rest)).head?, isNamePart c = false := by
      intro c hc
      cases right with
      | nil =>
        obtain rfl := Option.some.inj hc
        decide
      | cons d right =>
        obtain rfl : d = c := Option.some.inj hc
        exact not_isNamePart_of_whiteSpace (hright d List.mem_cons_self)
    have hclose : skipSpace (right ++ ("\x7d\x7d".toList ++ rest)) = "\x7d\x7d".toList ++ rest := by
      apply skipSpace_append hright
      intro c hc
      obtain rfl := Option.some.inj hc
      decide
    rw [hsplit, marker?, after?_append]
    simp only [skipSpace_append hleft (hsaid.head _), markerBody?_append hsaid hend, hclose,
      after?_append, Option.map_some]
    simp
    omega

/-- A marker begins the text. -/
def BeginsMarker (t : Text) : Prop :=
  ∃ m source, source <+: t ∧ Marker.Written m source

theorem beginsMarker_iff {t : Text} : BeginsMarker t ↔ (marker? t).isSome = true := by
  rw [Option.isSome_iff_exists]
  constructor
  · rintro ⟨m, source, ⟨rest, rfl⟩, hwritten⟩
    exact ⟨(m, source.length), marker?_eq_some_iff.mpr ⟨source, rest, rfl, rfl, hwritten⟩⟩
  · rintro ⟨⟨m, n⟩, hread⟩
    obtain ⟨source, rest, rfl, -, hwritten⟩ := marker?_eq_some_iff.mp hread
    exact ⟨m, source, List.prefix_append source rest, hwritten⟩

/-- The markers of a body from a position on, one after the other. Between the end of one and the
beginning of the next none begins. -/
inductive Leftmost (body : Text) : (start : Nat) → List Occurrence → Prop
  | nil {start : Nat} : (∀ i, start ≤ i → ¬BeginsMarker (body.drop i)) → Leftmost body start []
  | cons {start : Nat} {o : Occurrence} {os : List Occurrence} : start ≤ o.before.length →
      body = o.before ++ (o.source ++ o.after) → o.marker.Written o.source →
      (∀ i, start ≤ i → i < o.before.length → ¬BeginsMarker (body.drop i)) →
      Leftmost body (o.before.length + o.source.length) os → Leftmost body start (o :: os)

namespace Leftmost

variable {body : Text} {start : Nat} {os : List Occurrence}

theorem earlier (h : Leftmost body (start + 1) os) (hnone : ¬BeginsMarker (body.drop start)) :
    Leftmost body start os := by
  have hfrom : ∀ i, start ≤ i → (start + 1 ≤ i → ¬BeginsMarker (body.drop i)) →
      ¬BeginsMarker (body.drop i) := by
    intro i hi hlater
    rcases Nat.eq_or_lt_of_le hi with rfl | hlt
    · exact hnone
    · exact hlater hlt
  cases h with
  | nil hall => exact .nil fun i hi => hfrom i hi (hall i)
  | cons hle hbody hwritten hfirst hrest =>
    refine .cons (Nat.le_of_succ_le hle) hbody hwritten ?_ hrest
    intro i hi hlt
    exact hfrom i hi fun hlater => hfirst i hlater hlt

end Leftmost

theorem Marker.Written.begins {m : Marker} {source : Text} (h : m.Written source)
    (before after : Text) : BeginsMarker ((before ++ (source ++ after)).drop before.length) := by
  rw [List.drop_left]
  exact ⟨m, source, List.prefix_append source after, h⟩

/-- What is written at one place is one marker. -/
theorem Marker.Written.unique {m m' : Marker} {source source' after after' : Text}
    (h : m.Written source) (h' : m'.Written source') (heq : source ++ after = source' ++ after') :
    m = m' ∧ source = source' ∧ after = after' := by
  have hread := marker?_eq_some_iff.mpr ⟨source, after, rfl, rfl, h⟩
  have hread' := marker?_eq_some_iff.mpr ⟨source', after', heq, rfl, h'⟩
  obtain ⟨rfl, hlength⟩ := Prod.mk.inj (Option.some.inj (hread.symm.trans hread'))
  exact ⟨rfl, List.append_inj heq hlength⟩

/-- There is only one way to take the markers of a body from left to right. -/
theorem Leftmost.unique {body : Text} {start : Nat} {os os' : List Occurrence}
    (h : Leftmost body start os) (h' : Leftmost body start os') : os = os' := by
  induction h generalizing os' with
  | nil hall =>
    cases h' with
    | nil => rfl
    | cons hle hbody hwritten =>
      exact absurd (hbody ▸ hwritten.begins _ _) (hall _ hle)
  | @cons start o os hle hbody hwritten hfirst _ ih =>
    cases h' with
    | nil hall => exact absurd (hbody ▸ hwritten.begins _ _) (hall _ hle)
    | @cons _ o' os' hle' hbody' hwritten' hfirst' hrest' =>
      have hlength : o.before.length = o'.before.length := by
        rcases Nat.lt_trichotomy o.before.length o'.before.length with hlt | heq | hlt
        · exact absurd (hbody ▸ hwritten.begins _ _) (hfirst' _ hle hlt)
        · exact heq
        · exact absurd (hbody' ▸ hwritten'.begins _ _) (hfirst _ hle' hlt)
      obtain ⟨hbefore, hsame⟩ := List.append_inj (hbody.symm.trans hbody') hlength
      obtain ⟨hmarker, hsource, hafter⟩ := hwritten.unique hwritten' hsame
      obtain rfl : o = o' := by
        cases o
        cases o'
        exact Occurrence.mk.injEq .. ▸ ⟨hbefore, hmarker, hsource, hafter⟩
      rw [ih hrest']

/-- The parts of a text, read one character or one marker at a time. -/
theorem parts_cons (c : Char) (t : Text) : parts (c :: t) =
    match marker? (c :: t) with
    | some (m, n) =>
      ([], ⟨m, c :: t.take (n - 1), (parts (t.drop (n - 1))).1⟩ :: (parts (t.drop (n - 1))).2)
    | none => (c :: (parts t).1, (parts t).2) := by
  refine (parts.eq_2 c t).trans ?_
  cases marker? (c :: t) with
  | none => rfl
  | some r => rfl

theorem Marker.Written.exists_cons {m : Marker} {source : Text} (h : m.Written source) :
    ∃ rest, source = '\x7b' :: rest := by
  obtain ⟨left, inside, right, rfl, -⟩ := h
  exact ⟨_, rfl⟩

theorem Marker.Written.exists_append {m : Marker} {source : Text} (h : m.Written source) :
    ∃ front, source = front ++ ['\x7d'] := by
  obtain ⟨left, inside, right, rfl, -⟩ := h
  exact ⟨"\x7b\x7b".toList ++ (left ++ (inside ++ (right ++ ['\x7d']))), by simp⟩

theorem parts_marker {m : Marker} {source : Text} (h : m.Written source) (rest : Text) :
    parts (source ++ rest) = ([], ⟨m, source, (parts rest).1⟩ :: (parts rest).2) := by
  have hread := marker?_eq_some_iff.mpr ⟨source, rest, rfl, rfl, h⟩
  obtain ⟨inner, rfl⟩ := h.exists_cons
  rw [List.cons_append] at hread ⊢
  rw [parts_cons, hread]
  simp

theorem parts_char {c : Char} {t : Text} (h : ¬BeginsMarker (c :: t)) :
    parts (c :: t) = (c :: (parts t).1, (parts t).2) := by
  rw [beginsMarker_iff, Option.not_isSome_iff_eq_none] at h
  rw [parts_cons, h]

/-- A text is empty, begins with a marker, or begins with a character at which no marker begins. -/
theorem parts_induction {motive : Text → Prop} (nil : motive [])
    (marker : ∀ m source rest, Marker.Written m source → motive rest → motive (source ++ rest))
    (char : ∀ c rest, ¬BeginsMarker (c :: rest) → motive rest → motive (c :: rest)) (t : Text) :
    motive t := by
  induction hn : t.length using Nat.strongRecOn generalizing t with
  | ind n ih =>
    cases t with
    | nil => exact nil
    | cons c rest =>
      cases hread : marker? (c :: rest) with
      | none =>
        refine char c rest ?_ (ih rest.length (by simp [← hn]) rest rfl)
        rw [beginsMarker_iff, hread]
        simp
      | some r =>
        obtain ⟨source, behind, hsplit, -, hwritten⟩ := marker?_eq_some_iff.mp hread
        rw [hsplit]
        refine marker r.1 source behind hwritten (ih behind.length ?_ behind rfl)
        have hlength := congrArg List.length hsplit
        obtain ⟨inner, rfl⟩ := hwritten.exists_cons
        simp only [List.length_append, List.length_cons] at hlength hn
        omega

/-- The parts of a text are all of it. -/
theorem parts_source (t : Text) : (parts t).1 ++ sourceOf (parts t).2 = t := by
  induction t using parts_induction with
  | nil => simp [parts, sourceOf]
  | marker m source rest hwritten ih =>
    rw [parts_marker hwritten]
    simpa [sourceOf] using ih
  | char c rest hnone ih =>
    rw [parts_char hnone, List.cons_append, ih]

/-- The markers of a body are its leftmost ones. -/
theorem occurrences_leftmost (body : Text) : Leftmost body 0 (occurrences body) := by
  -- The markers of what is left, wherever it stands behind what has been read.
  have hall : ∀ t done, Leftmost (done ++ t) done.length
      (occurrencesAfter (done ++ (parts t).1) (parts t).2) := by
    intro t
    induction t using parts_induction with
    | nil =>
      intro done
      rw [parts]
      refine .nil ?_
      intro i hi
      rw [List.append_nil, List.drop_eq_nil_of_le hi, beginsMarker_iff]
      simp [marker?, after?]
    | marker m source rest hwritten ih =>
      intro done
      have hrest := ih (done ++ source)
      rw [parts_marker hwritten, List.append_nil, occurrencesAfter]
      refine .cons (Nat.le_refl _) ?_ hwritten ?_ ?_
      · rw [parts_source]
      · intro i hi hlt
        exact absurd hlt (Nat.not_lt.mpr hi)
      · rwa [List.length_append, List.append_assoc] at hrest
    | char c rest hnone ih =>
      intro done
      have hrest := ih (done ++ [c])
      rw [parts_char hnone]
      rw [List.length_append, List.append_assoc, List.append_assoc] at hrest
      refine hrest.earlier ?_
      rwa [List.drop_left]
  exact hall body []

theorem leftmost_iff {body : Text} {os : List Occurrence} :
    Leftmost body 0 os ↔ os = occurrences body := by
  constructor
  · intro h
    exact h.unique (occurrences_leftmost body)
  · rintro rfl
    exact occurrences_leftmost body

end VbaWorkbench.Snippet
