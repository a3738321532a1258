import VbaWorkbench.Proofs.Layout.Rows

namespace VbaWorkbench

/-- The stretches of a list whose elements are all of one sort, and some of another, are no longer
than `n`. -/
def Within {α : Type} (p q : α → Prop) (n : Nat) (xs : List α) : Prop :=
  ∀ run, run <:+: xs → (∀ x ∈ run, p x) → (∃ x ∈ run, q x) → run.length ≤ n

section Within

variable {α β : Type} {p q : α → Prop} {n : Nat} {xs ys : List α}

/-- An element of no such stretch cuts the list. -/
theorem within_append_cons {x : α} (hx : ¬p x) :
    Within p q n (xs ++ x :: ys) ↔ Within p q n xs ∧ Within p q n ys := by
  constructor
  · intro h
    refine ⟨fun run hrun => h run ?_, fun run hrun => h run ?_⟩
    · exact hrun.trans (List.prefix_append xs _).isInfix
    · exact hrun.trans ((List.suffix_cons x ys).trans (List.suffix_append xs _)).isInfix
  · rintro ⟨hxs, hys⟩ run hrun hall hsome
    have hfirst : ∀ {part}, part <+: x :: ys → (∀ y ∈ part, p y) → part = [] := by
      intro part hpart hp
      rcases List.prefix_cons_iff.mp hpart with hnil | ⟨rest, rfl, -⟩
      · exact hnil
      · exact absurd (hp x List.mem_cons_self) hx
    rcases List.infix_append_iff.mp hrun with hrun | hrun | ⟨front, back, rfl, hfront, hback⟩
    · exact hxs run hrun hall hsome
    · rcases List.infix_cons_iff.mp hrun with hrun | hrun
      · rw [hfirst hrun hall]
        exact Nat.zero_le n
      · exact hys run hrun hall hsome
    · obtain rfl := hfirst hback (List.forall_mem_append.mp hall).2
      rw [List.append_nil] at hall hsome ⊢
      exact hxs front hfront.isInfix hall hsome

theorem within_nil : Within p q n [] := by
  intro run hrun _ _
  rw [List.infix_nil.mp hrun]
  exact Nat.zero_le n

theorem within_append (h : ∀ y ∈ ys, ¬p y) : Within p q n (xs ++ ys) ↔ Within p q n xs := by
  induction ys generalizing xs with
  | nil => rw [List.append_nil]
  | cons y ys ih =>
    obtain ⟨hy, hys⟩ := List.forall_mem_cons.mp h
    have hrest : Within p q n ([] ++ ys) := (ih hys).mpr within_nil
    rw [within_append_cons hy]
    exact and_iff_left hrest

/-- A list of one sort is a stretch itself. -/
theorem within_of_forall (h : ∀ x ∈ xs, p x) :
    Within p q n xs ↔ ((∃ x ∈ xs, q x) → xs.length ≤ n) := by
  refine ⟨fun hw => hw xs List.infix_rfl h, fun hlength run hrun _ hsome => ?_⟩
  obtain ⟨x, hx, hq⟩ := hsome
  exact hrun.length_le.trans (hlength ⟨x, hrun.subset hx, hq⟩)

theorem within_map (f : β → α) (zs : List β) :
    Within p q n (zs.map f) ↔ Within (fun z => p (f z)) (fun z => q (f z)) n zs := by
  constructor
  · intro h run hrun hall hsome
    have hlength := h (run.map f) (hrun.map f) (by simpa using hall) (by simpa using hsome)
    rwa [List.length_map] at hlength
  · intro h run hrun hall hsome
    obtain ⟨part, hpart, rfl⟩ := List.infix_map_iff.mp hrun
    rw [List.length_map]
    exact h part hpart (by simpa using hall) (by simpa using hsome)

end Within

/-- A blank line: it is empty and ended by a line break. -/
structure PhysicalLine.IsEmpty (line : PhysicalLine) : Prop where
  indent : line.indent = []
  body : line.body = []
  ending : line.ending ≠ []

theorem PhysicalLine.isEmpty_ofText {ending : Text} (h : ending ≠ []) (t : Text) :
    (ofText t ending).IsEmpty ↔ t = [] := by
  constructor
  · intro hempty
    rw [← List.takeWhile_append_dropWhile (p := Text.isBlank) (l := t)]
    exact List.append_eq_nil_iff.mpr ⟨hempty.indent, hempty.body⟩
  · rintro rfl
    exact ⟨rfl, rfl, h⟩

namespace Layout

/-- How the counter of blank lines, the empty rows that were kept and the lines without code that
were met go together. The last argument says whether one of those lines has a continuation. -/
def Tally (limit blanks kept met : Nat) : Bool → Prop
  | false => blanks = met ∧ kept = min met limit
  | true => blanks < met ∧ (met ≤ limit → kept = met) ∧ (kept ≤ limit → met ≤ limit)

namespace Tally

variable {limit blanks kept met : Nat} {hollow : Bool}

theorem zero : Tally limit 0 0 0 false :=
  ⟨rfl, (Nat.zero_min limit).symm⟩

theorem keep (h : Tally limit blanks kept met hollow) (hlt : blanks < limit) :
    Tally limit (blanks + 1) (kept + 1) (met + 1) hollow := by
  cases hollow <;> simp only [Tally] at h ⊢ <;> omega

theorem drop (h : Tally limit blanks kept met hollow) (hle : limit ≤ blanks) :
    Tally limit (blanks + 1) kept (met + 1) hollow := by
  cases hollow <;> simp only [Tally] at h ⊢ <;> omega

/-- A line with a continuation leaves an empty row and begins the count anew. -/
theorem restart (h : Tally limit blanks kept met hollow) :
    Tally limit 0 (kept + 1) (met + 1) true := by
  cases hollow <;> simp only [Tally] at h ⊢ <;> omega

theorem kept_le_iff (h : Tally limit blanks kept met hollow) :
    kept ≤ limit ↔ (hollow = true → met ≤ limit) := by
  cases hollow with
  | false => exact iff_of_true (h.2 ▸ Nat.min_le_right met limit) nofun
  | true =>
    obtain ⟨-, hkept, hmet⟩ := h
    exact ⟨fun hle _ => hmet hle, fun hle => hkept (hle rfl) ▸ hle rfl⟩

end Tally

/-- A line without code that is ended by a newline. -/
def IsGap (line : Line) : Prop :=
  line.isHollow = true ∧ line.newline.isSome = true

theorem within_replicate (limit kept : Nat) :
    Within (fun row : Text => row = []) (fun _ => True) limit (List.replicate kept []) ↔
      kept ≤ limit := by
  rw [within_of_forall fun row hrow => List.eq_of_mem_replicate hrow, List.length_replicate]
  refine ⟨fun h => ?_, fun h _ => h⟩
  cases kept with
  | zero => exact Nat.zero_le limit
  | succ kept => exact h ⟨[], by simp⟩

theorem within_gaps {limit blanks kept : Nat} {before : List Line}
    (hbefore : ∀ line ∈ before, IsGap line)
    (h : Tally limit blanks kept before.length (before.any (!·.isBlank))) :
    Within (fun row : Text => row = []) (fun _ => True) limit (List.replicate kept []) ↔
      Within IsGap (·.isBlank = false) limit before := by
  rw [within_replicate, within_of_forall hbefore, h.kept_le_iff]
  simp

theorem isGap_push {before : List Line} (hbefore : ∀ line ∈ before, IsGap line) {line : Line}
    (hline : IsGap line) : ∀ l ∈ before ++ [line], IsGap l :=
  List.forall_mem_append.mpr ⟨hbefore, List.forall_mem_singleton.mpr hline⟩

theorem replicate_push (kept : Nat) (rows : List Text) :
    List.replicate kept [] ++ [] :: rows = List.replicate (kept + 1) [] ++ rows := by
  rw [List.replicate_succ', List.append_assoc, List.singleton_append]

/-- The empty rows at the end of what has been written belong together with the lines without code
at the end of what has been read. -/
theorem Stacks.within_iff {limit blanks : Nat} {lines : List Line} {rows : List Text} {last : Text}
    (h : Stacks limit blanks lines rows last) (kept : Nat) (before : List Line)
    (hbefore : ∀ line ∈ before, IsGap line)
    (htally : Tally limit blanks kept before.length (before.any (!·.isBlank))) :
    Within (fun row : Text => row = []) (fun _ => True) limit (List.replicate kept [] ++ rows) ↔
      Within IsGap (·.isBlank = false) limit (before ++ lines) := by
  induction h generalizing kept before with
  | @blankEnd _ line _ hnone | @hollowEnd _ line _ _ hnone =>
    have hline : ¬IsGap line := fun hgap => by simp [IsGap, hnone] at hgap
    rw [List.append_nil, within_append_cons hline, and_iff_left within_nil]
    exact within_gaps hbefore htally
  | @codeEnd _ line rows _ hcode _ hrows =>
    have hline : ¬IsGap line := fun hgap => by simp [IsGap, hcode] at hgap
    rw [within_append fun row hrow => (hrows row hrow).ne_nil, within_append_cons hline,
      and_iff_left within_nil]
    exact within_gaps hbefore htally
  | @keep _ line lines _ _ hblank hsome hlt _ ih =>
    rw [replicate_push, List.append_cons before]
    refine ih _ _ (isGap_push hbefore ⟨Line.isHollow_of_isBlank hblank, hsome⟩) ?_
    simpa [hblank] using htally.keep hlt
  | @drop _ line lines _ _ hblank hsome hle _ ih =>
    rw [List.append_cons before]
    refine ih _ _ (isGap_push hbefore ⟨Line.isHollow_of_isBlank hblank, hsome⟩) ?_
    simpa [hblank] using htally.drop hle
  | @hollow _ line lines _ _ hblank hhollow hsome _ ih =>
    rw [replicate_push, List.append_cons before]
    refine ih _ _ (isGap_push hbefore ⟨hhollow, hsome⟩) ?_
    simpa [hblank] using htally.restart
  | @code _ line _ rows more row _ hcode hsome hrows hinline _ ih =>
    have hline : ¬IsGap line := fun hgap => by simp [IsGap, hcode] at hgap
    have hrest := ih 0 [] (by simp) Tally.zero
    rw [List.replicate_zero, List.nil_append, List.nil_append] at hrest
    rw [← List.append_assoc, within_append_cons (p := fun row : Text => row = []) hinline.ne_nil,
      within_append_cons hline, hrest, within_append fun row hrow => (hrows row hrow).ne_nil,
      within_gaps hbefore htally]

end Layout

/-- The blank lines of a layout that indents by blanks stand together in runs that are no longer
than the options allow, unless the source has a longer stretch of lines without code with a
continuation in one of them. Such a line is not blank and leaves an empty row. -/
theorem format_blankRuns_iff {options : LayoutOptions} {source out : Text}
    (hunit : ∀ c ∈ options.indentUnit, Text.isBlank c = true)
    (h : format options source = .ok out) :
    (∀ run, run <:+: PhysicalLine.ofSource out → (∀ line ∈ run, line.IsEmpty) →
      run.length ≤ options.maxBlankLines) ↔
    ∀ stretch, stretch <:+: Line.ofTokens (tokenize source) →
      (∀ line ∈ stretch, line.isHollow = true ∧ line.newline.isSome = true) →
      (∃ line ∈ stretch, line.isBlank = false) → stretch.length ≤ options.maxBlankLines := by
  obtain ⟨rows, last, hstacks, rfl⟩ := Layout.stacks_format hunit h
  obtain ⟨hrows, hlast⟩ := hstacks.inside
  have hnewline := Layout.newlineOf_isBreak source
  have hempty : ∀ row : Text,
      (PhysicalLine.ofText row (Layout.newlineOf (tokenize source))).IsEmpty ↔ row = [] :=
    PhysicalLine.isEmpty_ofText hnewline.ne_nil
  have hend : ¬(PhysicalLine.ofText last []).IsEmpty := fun hempty => hempty.ending rfl
  have hruns : Within PhysicalLine.IsEmpty (fun _ => True) options.maxBlankLines
        (PhysicalLine.ofSource (Text.stacked (Layout.newlineOf (tokenize source)) rows last)) ↔
      Within (fun row : Text => row = []) (fun _ => True) options.maxBlankLines rows := by
    rw [PhysicalLine.ofSource_stacked hnewline hrows hlast, within_append_cons hend,
      and_iff_left within_nil, within_map]
    simp only [hempty]
  have hlines := hstacks.within_iff 0 [] (by simp) Layout.Tally.zero
  rw [List.replicate_zero, List.nil_append, List.nil_append] at hlines
  refine Iff.trans ⟨fun hall run hrun hp _ => hall run hrun hp, fun hall run hrun hp => ?_⟩
    (hruns.trans hlines)
  cases run with
  | nil => exact Nat.zero_le _
  | cons line run => exact hall _ hrun hp ⟨line, List.mem_cons_self, trivial⟩

/-- A line with nothing but a continuation stands among blank lines, and three of them are kept. -/
theorem format_blankRuns_continued :
    let source := "a\n\n\n _\n\nb".toList
    let out := "a\n\n\n\nb".toList
    format .default source = .ok out ∧ LayoutOptions.default.maxBlankLines = 2 ∧
      ¬∀ run, run <:+: PhysicalLine.ofSource out → (∀ line ∈ run, line.IsEmpty) →
        run.length ≤ LayoutOptions.default.maxBlankLines := by
  intro source out
  have h : format .default source = .ok out := by decide +kernel
  have hiff := format_blankRuns_iff (List.all_eq_true.mp rfl) h
  refine ⟨h, rfl, fun hall => ?_⟩
  let stretch := ((Line.ofTokens (tokenize source)).drop 1).take 3
  have hstretch : stretch <:+: Line.ofTokens (tokenize source) :=
    (List.take_prefix 3 _).isInfix.trans (List.drop_suffix 1 _).isInfix
  have hgaps : ∀ line ∈ stretch, line.isHollow = true ∧ line.newline.isSome = true := by
    decide +kernel
  have hcontinued : ∃ line ∈ stretch, line.isBlank = false := by decide +kernel
  exact absurd (hiff.mp hall stretch hstretch hgaps hcontinued) (by decide +kernel)

end VbaWorkbench
