import VbaWorkbench.Proofs.Pattern.Records

namespace VbaWorkbench.Pattern

/-- Two texts from byte `start` on that only differ at the matches. A match stands at its offsets in
the first text, and what `put` makes of it stands in its place in the second. -/
inductive Spliced (put : MatchRecord → Text) : Nat → List MatchRecord → Text → Text → Prop
  | nil (start : Nat) (gap : Text) : Spliced put start [] gap gap
  | cons (start : Nat) (gap : Text) (r : MatchRecord) {rs : List MatchRecord} {rest out : Text} :
      r.start = start + Text.byteLength gap →
      r.stop = r.start + Text.byteLength r.fullText →
      Spliced put r.stop rs rest out →
      Spliced put start (r :: rs) (gap ++ r.fullText ++ rest) (gap ++ put r ++ out)

namespace Spliced

variable {put put' : MatchRecord → Text} {start : Nat} {rs : List MatchRecord} {t out : Text}

theorem congr (h : Spliced put start rs t out) (hput : ∀ r ∈ rs, put r = put' r) :
    Spliced put' start rs t out := by
  induction h with
  | nil start gap => exact .nil start gap
  | cons start gap r hstart hstop _ ih =>
    obtain ⟨hr, hrs⟩ := List.forall_mem_cons.mp hput
    rw [hr]
    exact .cons start gap r hstart hstop (ih hrs)

/-- Nothing changes when each match is put back. -/
theorem eq_of_fullText (h : Spliced MatchRecord.fullText start rs t out) : out = t := by
  induction h with
  | nil => rfl
  | cons start gap r _ _ _ ih => rw [ih]

end Spliced

/-- A text with every dollar written twice. -/
def doubleDollars (t : Text) : Text :=
  t.flatMap fun c => if c = '$' then ['$', '$'] else [c]

section Replacements

variable {subject : Text}

theorem MatchRecord.Slices.exists_cuts {r : MatchRecord} (h : r.Slices subject) :
    ∃ before after, subject = before ++ r.fullText ++ after ∧ r.start = Text.byteLength before ∧
      r.stop = r.start + Text.byteLength r.fullText := by
  obtain ⟨before, between, after, rfl, hstart, hstop⟩ :=
    Text.exists_cuts h.ordered h.start h.stop
  have htext := h.text
  rw [← hstart, ← hstop, Text.slice?_append] at htext
  obtain rfl := Option.some.inj htext
  exact ⟨before, after, rfl, hstart.symm, by rw [← hstop, Text.byteLength_append, hstart]⟩

/-- Of two texts before which the same text begins, the one with fewer bytes is a part of the
other. -/
theorem exists_gap {before rest before' rest' : Text} (h : before ++ rest = before' ++ rest')
    (hle : Text.byteLength before ≤ Text.byteLength before') :
    ∃ gap, before' = before ++ gap ∧ rest = gap ++ rest' := by
  rcases List.append_eq_append_iff.mp h with ⟨gap, hbefore, hrest⟩ | ⟨gap, hbefore, hrest⟩
  · exact ⟨gap, hbefore, hrest⟩
  · have hempty : gap = [] := by
      by_contra hne
      have hpos := Text.byteLength_pos hne
      rw [hbefore, Text.byteLength_append] at hle
      omega
    subst hempty
    rw [List.append_nil] at hbefore
    exact ⟨[], by rw [hbefore, List.append_nil], hrest.symm⟩

theorem splice_spliced (replacement : Text) {records : List MatchRecord} {before rest : Text}
    (hsubject : subject = before ++ rest) (hslices : ∀ r ∈ records, r.Slices subject)
    (hfirst : ∀ r ∈ records, Text.byteLength before ≤ r.start)
    (hordered : records.Pairwise fun r s => r.stop ≤ s.start) :
    Spliced (fun r => r.expand subject replacement) (Text.byteLength before) records rest
      (splice subject replacement (Text.byteLength before) rest records) := by
  induction records generalizing before rest with
  | nil => exact .nil _ rest
  | cons r rs ih =>
    obtain ⟨hr, hrs⟩ := List.forall_mem_cons.mp hslices
    obtain ⟨hlater, hordered⟩ := List.pairwise_cons.mp hordered
    obtain ⟨before', after, hcut, hstart, hstop⟩ := hr.exists_cuts
    have hle : Text.byteLength before ≤ Text.byteLength before' := by
      rw [← hstart]
      exact hfirst r List.mem_cons_self
    rw [hcut, List.append_assoc] at hsubject
    obtain ⟨gap, rfl, rfl⟩ := exists_gap hsubject.symm hle
    rw [Text.byteLength_append] at hstart
    have hgap : r.start - Text.byteLength before = Text.byteLength gap := by omega
    have hmatch : r.stop - Text.byteLength before = Text.byteLength (gap ++ r.fullText) := by
      rw [Text.byteLength_append]
      omega
    have hbehind : r.stop = Text.byteLength (before ++ gap ++ r.fullText) := by
      simp only [Text.byteLength_append]
      omega
    have hrest := ih hcut hrs (fun s hs => hbehind ▸ hlater s hs) hordered
    rw [splice, hgap, hmatch, Text.takeBytes_append, ← List.append_assoc, Text.dropBytes_append]
    rw [← hbehind] at hrest
    exact .cons _ gap r hstart hstop hrest

theorem expand_whole (r : MatchRecord) (subject : Text) :
    r.expand subject ['$', '&'] = r.fullText := by
  rw [MatchRecord.expand, MatchRecord.expand, List.append_nil]

theorem expand_doubleDollars (r : MatchRecord) (subject t : Text) :
    r.expand subject (doubleDollars t) = t := by
  induction t with
  | nil => rw [doubleDollars, List.flatMap_nil, MatchRecord.expand]
  | cons c t ih =>
    rw [doubleDollars, List.flatMap_cons, ← doubleDollars]
    by_cases hc : c = '$'
    · rw [if_pos hc, hc, List.cons_append, List.singleton_append, MatchRecord.expand, ih]
    · rw [if_neg hc, List.singleton_append, MatchRecord.expand, ih]
      all_goals
        intros
        contradiction

end Replacements

/-- A replacement keeps the subject between the matches of the evaluation and puts what the
replacement text says in the place of each match. So a reference to the whole match changes nothing,
and a text whose dollars are doubled is put in as it is. -/
theorem replace_splices {pattern : Text} {p : Pattern} (hcompile : compile pattern = .ok p)
    {subject replacement : Text} {options : MatchOptions} {replaced : Replaced}
    (h : p.replace subject replacement options = .ok replaced) :
    ∃ records, p.evaluate subject options = .ok records ∧ replaced.count = records.length ∧
      Spliced (fun r => r.expand subject replacement) 0 records subject replaced.text ∧
      (replacement = ['$', '&'] → replaced.text = subject) ∧
      ∀ t, replacement = doubleDollars t → Spliced (fun _ => t) 0 records subject replaced.text := by
  obtain ⟨parsed, -, hp⟩ := compile_realizes hcompile
  obtain ⟨records, hrecords, rfl⟩ := ok_of_map h
  obtain ⟨hslices, hordered⟩ := evaluate_records hp hrecords
  have hspliced : Spliced (fun r => r.expand subject replacement) 0 records subject
      (splice subject replacement 0 subject records) :=
    splice_spliced replacement (List.nil_append subject).symm hslices (fun _ _ => Nat.zero_le _)
      (hordered.imp And.left)
  refine ⟨records, hrecords, rfl, hspliced, ?_, ?_⟩
  · rintro rfl
    exact (hspliced.congr fun r _ => expand_whole r subject).eq_of_fullText
  · rintro t rfl
    exact hspliced.congr fun r _ => expand_doubleDollars r subject t

/-- Empty matches beside others, a subject with a long character, and a doubled dollar before a
digit. -/
theorem replace_splices_empty :
    let pattern := "(a*)".toList
    let subject := "baé".toList
    let replacement := "$$1".toList
    let replaced : Replaced := ⟨"$1b$1$1é$1".toList, 4⟩
    let options := { MatchOptions.default with global := true }
    ∃ p, compile pattern = .ok p ∧ p.replace subject replacement options = .ok replaced ∧
      ∃ records, p.evaluate subject options = .ok records ∧ replaced.count = records.length ∧
        Spliced (fun r => r.expand subject replacement) 0 records subject replaced.text ∧
        (replacement = ['$', '&'] → replaced.text = subject) ∧
        ∀ t, replacement = doubleDollars t →
          Spliced (fun _ => t) 0 records subject replaced.text := by
  intro pattern subject replacement replaced options
  have hreplaced : ((compile pattern).toOption.bind fun p =>
      (p.replace subject replacement options).toOption) = some replaced := by decide +kernel
  obtain ⟨p, hp, h⟩ := Option.bind_eq_some_iff.mp hreplaced
  exact ⟨p, ok_of_toOption hp, ok_of_toOption h,
    replace_splices (ok_of_toOption hp) (ok_of_toOption h)⟩

end VbaWorkbench.Pattern
