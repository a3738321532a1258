import VbaWorkbench.Proofs.Pattern.Records

namespace VbaWorkbench.Pattern

/-- The text of a span, unless an index or the slice of the subject is out of range. -/
def spanText? (subject : Text) (offsets : Array Nat) (span : Nat × Nat) : Option Text := do
  Text.slice? (← offsets[span.1]?) (← offsets[span.2]?) subject

/-- The record of a match, unless one of its spans is out of range. -/
def record? (subject : Text) (offsets : Array Nat) (f : Found) : Option MatchRecord := do
  return ⟨← spanText? subject offsets (f.start, f.stop), ← offsets[f.start]?, ← offsets[f.stop]?,
    ← f.groups.mapM (Option.mapM (spanText? subject offsets))⟩

/-- What a replacement text says, unless a slice of the subject is out of range. -/
def MatchRecord.expand? (r : MatchRecord) (subject : Text) : Text → Option Text
  | [] => some []
  | '$' :: '$' :: rest => (expand? r subject rest).map ('$' :: ·)
  | '$' :: '&' :: rest => (expand? r subject rest).map (r.fullText ++ ·)
  | '$' :: '\x60' :: rest => do
    let before ← Text.slice? 0 r.start subject
    return before ++ (← expand? r subject rest)
  | '$' :: '\'' :: rest => do
    let after ← Text.slice? r.stop (Text.byteLength subject) subject
    return after ++ (← expand? r subject rest)
  | '$' :: rest =>
    match r.groupReference? rest with
    | some (n, digits) => (expand? r subject (rest.drop digits)).map (r.groupText n ++ ·)
    | none => (expand? r subject rest).map ('$' :: ·)
  | c :: rest => (expand? r subject rest).map (c :: ·)
termination_by t => t.length
decreasing_by all_goals simp only [List.length_cons, List.length_drop]; omega

/-- The subject from byte `last` on with its matches replaced, unless a slice is out of range. -/
def splice? (subject replacement : Text) (last : Nat) : List MatchRecord → Option Text
  | [] => Text.slice? last (Text.byteLength subject) subject
  | r :: rs => do
    let before ← Text.slice? last r.start subject
    let inserted ← r.expand? subject replacement
    return before ++ inserted ++ (← splice? subject replacement r.stop rs)

theorem mapM_eq_some {α β : Type} {f : α → Option β} {g : α → β} {xs : List α}
    (h : ∀ x ∈ xs, f x = some (g x)) : xs.mapM f = some (xs.map g) := by
  induction xs with
  | nil => rfl
  | cons x xs ih =>
    obtain ⟨hx, hxs⟩ := List.forall_mem_cons.mp h
    rw [List.mapM_cons, hx, ih hxs]
    rfl

section Slices

variable {subject : Text} {m : Machine} {node : Node} {f : Found} {r : MatchRecord}

theorem spanText?_eq {start stop : Nat} (h : start ≤ stop) (hs : stop ≤ subject.length) :
    spanText? subject (Text.byteOffsets 0 subject).toArray (start, stop) =
      some (subject.toArray.extract start stop).toList := by
  simp only [spanText?, offset_get hs, offset_get (Nat.le_trans h hs), Option.bind_eq_bind,
    Option.bind_some, slice?_extract h]

/-- The spans of a match in the text can be recorded. -/
theorem record?_eq (hin : m.input = subject.toArray) (h : f.Lies m node) :
    record? subject (Text.byteOffsets 0 subject).toArray f = some (recordIn subject f) := by
  have hsize : m.input.size = subject.length := by simp [hin]
  have hstop : f.stop ≤ subject.length := hsize ▸ h.inside
  have hstart : f.start ≤ subject.length := Nat.le_trans h.ordered hstop
  have hgroups : f.groups.mapM
      (Option.mapM (spanText? subject (Text.byteOffsets 0 subject).toArray)) =
      some (f.groups.map fun span => span.map fun s =>
        (subject.toArray.extract s.1 s.2).toList) := by
    refine mapM_eq_some fun span hspan => ?_
    cases span with
    | none => rfl
    | some span =>
      obtain ⟨start, stop⟩ := span
      obtain ⟨i, hi⟩ := List.getElem?_of_mem hspan
      obtain ⟨-, hordered, hinside, -⟩ := h.groups i start stop hi
      rw [Option.mapM_some, spanText?_eq hordered (hsize ▸ hinside)]
      rfl
  rw [record?, spanText?_eq h.ordered hstop, hgroups, recordIn, record, offset_get hstart,
    offset_get hstop]
  rfl

theorem MatchRecord.expand?_eq (h : r.Slices subject) (t : Text) :
    r.expand? subject t = some (r.expand subject t) := by
  fun_induction MatchRecord.expand r subject t with
  | case1 => rw [expand?]
  | case2 rest ih => rw [expand?, ih, Option.map_some]
  | case3 rest ih => rw [expand?, ih, Option.map_some]
  | case4 rest ih => simp [expand?, ih, Text.slice?_zero h.start]
  | case5 rest ih => simp [expand?, ih, Text.slice?_end h.stop]
  | case6 rest h1 h2 h3 h4 n digits href ih => simp [expand?, ih, href]
  | case7 rest h1 h2 h3 h4 href ih => simp [expand?, ih, href]
  | case8 c rest h1 h2 h3 h4 h5 ih => simp [expand?, ih]

/-- Matches that lie one behind the other can be replaced. -/
theorem splice?_eq (replacement : Text) {last : Nat} (hlast : Text.Boundary subject last)
    {rs : List MatchRecord} (hslices : ∀ r ∈ rs, r.Slices subject)
    (hafter : ∀ r ∈ rs, last ≤ r.start) (hordered : rs.Pairwise fun r s => r.stop ≤ s.start) :
    splice? subject replacement last rs =
      some (splice subject replacement last (Text.dropBytes last subject) rs) := by
  induction rs generalizing last with
  | nil => exact Text.slice?_end hlast
  | cons r rs ih =>
    obtain ⟨hr, hrs⟩ := List.forall_mem_cons.mp hslices
    obtain ⟨hfirst, -⟩ := List.forall_mem_cons.mp hafter
    obtain ⟨hnext, hrest⟩ := List.pairwise_cons.mp hordered
    have hbefore : Text.slice? last r.start subject =
        some (Text.takeBytes (r.start - last) (Text.dropBytes last subject)) :=
      if_pos ⟨hfirst, hlast, hr.start⟩
    have hdrop := Text.dropBytes_dropBytes (Nat.le_trans hfirst hr.ordered) hlast hr.stop
    rw [splice?, hbefore, MatchRecord.expand?_eq hr, ih hr.stop hrs hnext hrest, splice, hdrop]
    rfl

end Slices
end VbaWorkbench.Pattern
