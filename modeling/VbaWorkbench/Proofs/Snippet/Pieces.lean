import Mathlib.Data.List.TakeWhile
import VbaWorkbench.Proofs.Snippet.Markers
import VbaWorkbench.Snippet.Fragment

namespace VbaWorkbench.Snippet

section Lines

variable {t u : Text}

theorem ne_break_of_not_mem (h : '\n' ∉ t) : ∀ c ∈ t, (c != '\n') = true := by
  intro c hc
  rw [bne_iff_ne]
  rintro rfl
  exact h hc

theorem length_takeWhile_ne (h : '\n' ∈ t) :
    (t.takeWhile (· != '\n')).length ≠ t.length := by
  intro hall
  have hsame := (List.takeWhile_prefix _).eq_of_length hall
  simpa using List.takeWhile_eq_self_iff.mp hsame '\n' h

theorem firstLine_append_of_mem (u : Text) (h : '\n' ∈ t) : firstLine (t ++ u) = firstLine t := by
  have hle := (List.takeWhile_prefix (l := t) (· != '\n')).length_le
  have hne := length_takeWhile_ne h
  rw [firstLine, firstLine, List.takeWhile_append, if_neg hne, List.take_append_of_le_length]
  omega

theorem firstLine_append_of_not_mem (u : Text) (h : '\n' ∉ t) :
    firstLine (t ++ u) = t ++ firstLine u := by
  rw [firstLine, firstLine, List.takeWhile_append_of_pos (ne_break_of_not_mem h),
    List.length_append, Nat.add_assoc, List.take_length_add_append]

theorem lastLine_append_of_mem (t : Text) (h : '\n' ∈ u) : lastLine (t ++ u) = lastLine u := by
  have hne := length_takeWhile_ne (List.mem_reverse.mpr h)
  rw [lastLine, lastLine, List.reverse_append, List.takeWhile_append, if_neg hne]

theorem lastLine_append_of_not_mem (t : Text) (h : '\n' ∉ u) :
    lastLine (t ++ u) = lastLine t ++ u := by
  have hall := ne_break_of_not_mem (mt List.mem_reverse.mp h)
  rw [lastLine, lastLine, List.reverse_append, List.takeWhile_append_of_pos hall,
    List.reverse_append, List.reverse_reverse]

theorem lastLine_eq_self (h : '\n' ∉ t) : lastLine t = t := by
  exact lastLine_append_of_not_mem [] h

theorem firstLine_eq_self (h : '\n' ∉ t) : firstLine t = t := by
  simpa [firstLine] using firstLine_append_of_not_mem [] h

theorem lastLine_ended_append (t u : Text) : lastLine (t ++ ['\n'] ++ u) = lastLine u := by
  by_cases h : '\n' ∈ u
  · exact lastLine_append_of_mem _ h
  · rw [lastLine_append_of_not_mem _ h, lastLine_append_of_mem t List.mem_cons_self,
      lastLine_eq_self h]
    rfl

theorem length_firstLine_le (t : Text) : (firstLine t).length ≤ t.length :=
  List.length_take_le' _ _

theorem length_lastLine_le (t : Text) : (lastLine t).length ≤ t.length := by
  have hle := (List.takeWhile_prefix (l := t.reverse) (· != '\n')).length_le
  rwa [List.length_reverse, ← List.length_reverse] at hle

/-- The first and the last line of a text with a line feed do not overlap. -/
theorem length_firstLine_add_lastLine (h : '\n' ∈ t) :
    (firstLine t).length + (lastLine t).length ≤ t.length := by
  obtain ⟨s, u, rfl⟩ := List.append_of_mem h
  have hsplit : s ++ '\n' :: u = (s ++ ['\n']) ++ u := by simp
  have hfirst := length_firstLine_le (s ++ ['\n'])
  rw [hsplit, firstLine_append_of_mem u (by simp), lastLine_ended_append, List.length_append]
  exact Nat.add_le_add hfirst (length_lastLine_le u)

theorem not_isBlankLine_append_cons {c : Char} (h : c = '\x7b' ∨ c = '\x7d') :
    isBlankLine (t ++ c :: u) = false := by
  rcases h with rfl | rfl <;> simp [isBlankLine]

end Lines

/-- The text of a body from `start` up to `stop`. -/
def Span.textIn (s : Span) (body : Text) : Text :=
  (body.drop s.start).take (s.stop - s.start)

theorem Span.textIn_append_drop {s : Span} (h : s.start ≤ s.stop) (body : Text) :
    s.textIn body ++ body.drop s.stop = body.drop s.start := by
  obtain ⟨n, hn⟩ := Nat.exists_eq_add_of_le h
  rw [textIn, hn, Nat.add_sub_cancel_left, ← List.drop_drop, List.take_append_drop]

/-- A part of a body. -/
inductive Piece where
  /-- What stands between two markers, before the first or after the last. -/
  | text (t : Text)
  /-- A marker with what it takes from the body. -/
  | marker (m : Marker) (source : Text)
deriving DecidableEq, Repr

namespace Piece

def source : Piece → Text
  | text t => t
  | marker _ source => source

def marker? : Piece → Option Marker
  | text _ => none
  | marker m _ => some m

/-- A marker together with what it takes. -/
def taken? : Piece → Option (Marker × Text)
  | text _ => none
  | marker m source => some (m, source)

end Piece

def textPieces (t : Text) : List Piece :=
  if t.isEmpty then [] else [.text t]

/-- The pieces of a body from a position on. -/
def piecesFrom (body : Text) (cursor : Nat) : List Occurrence → List Piece
  | [] => textPieces (body.drop cursor)
  | o :: os =>
    textPieces (Span.textIn ⟨cursor, o.span.start⟩ body) ++
      .marker o.marker (o.span.textIn body) :: piecesFrom body o.span.stop os

def pieces (body : Text) : List Piece :=
  piecesFrom body 0 (occurrences body)

namespace Nesting

/-- What the pieces are read as, with `n` for those before them. -/
def read (n : Nesting) : List Piece → Except NestingFlaw (List Fragment)
  | [] => n.finish
  | .text t :: ps => (n.push (.text t)).read ps
  | .marker m _ :: ps =>
    match n.step m with
    | .error e => .error e
    | .ok n => n.read ps

theorem read_marker {n n' : Nesting} {m : Marker} {source : Text} {ps : List Piece}
    (h : n.step m = .ok n') : n.read (.marker m source :: ps) = n'.read ps := by
  rw [read, h]

theorem read_marker_error {n : Nesting} {m : Marker} {source : Text} {ps : List Piece}
    {e : NestingFlaw} (h : n.step m = .error e) : n.read (.marker m source :: ps) = .error e := by
  rw [read, h]

theorem read_textPieces (n : Nesting) (t : Text) (ps : List Piece) :
    n.read (textPieces t ++ ps) = (n.pushText t).read ps := by
  cases t <;> rfl

end Nesting

namespace Occurrence

variable (o : Occurrence)

theorem span_own (h : (o.marker.isTag && o.standsAlone) = false) :
    o.span = ⟨o.before.length, o.before.length + o.source.length⟩ :=
  if_neg (Bool.eq_false_iff.mp h)

theorem span_line (h : (o.marker.isTag && o.standsAlone) = true) :
    o.span = ⟨o.before.length - (lastLine o.before).length,
      o.before.length + o.source.length + (firstLine o.after).length⟩ :=
  if_pos h

end Occurrence

section Spans

variable {cursor : Nat} {os : List Occurrence}

/-- What each marker takes begins behind what the one before it takes. -/
inductive Spaced : (cursor : Nat) → List Occurrence → Prop
  | nil {cursor : Nat} : Spaced cursor []
  | cons {cursor : Nat} {o : Occurrence} {os : List Occurrence} : cursor ≤ o.span.start →
      Spaced o.span.stop os → Spaced cursor (o :: os)

theorem Occurrence.span_start_le (o : Occurrence) : o.span.start ≤ o.span.stop := by
  cases h : o.marker.isTag && o.standsAlone with
  | false =>
    rw [o.span_own h]
    exact Nat.le_add_right _ _
  | true =>
    rw [o.span_line h]
    dsimp only
    omega

/-- Reading never goes back. -/
theorem Spaced.readFrom_eq (h : Spaced cursor os) (body : Text) (n : Nesting) :
    Nesting.readFrom body cursor n os = n.read (piecesFrom body cursor os) := by
  induction h generalizing n with
  | @nil cursor =>
    rw [piecesFrom, Nesting.readFrom]
    cases body.drop cursor <;> rfl
  | cons hle _ ih =>
    rw [piecesFrom, Nesting.read_textPieces, Nesting.readFrom, if_neg (Nat.not_lt.mpr hle),
      Nesting.read, Span.textIn]
    dsimp only
    cases (n.pushText _).step _ with
    | error e => rfl
    | ok n => exact ih n

/-- The pieces are all of the body. -/
theorem Spaced.source_piecesFrom (h : Spaced cursor os) (body : Text) :
    (piecesFrom body cursor os).flatMap Piece.source = body.drop cursor := by
  have htext : ∀ t ps,
      (textPieces t ++ ps).flatMap Piece.source = t ++ ps.flatMap Piece.source := by
    intro t ps
    cases t <;> rfl
  induction h with
  | @nil cursor =>
    rw [piecesFrom]
    cases body.drop cursor <;> simp [textPieces, Piece.source]
  | @cons cursor o os hle _ ih =>
    rw [piecesFrom, htext, List.flatMap_cons, ih, Piece.source,
      Span.textIn_append_drop o.span_start_le]
    exact Span.textIn_append_drop hle body

/-- The markers among the pieces, with what they take. -/
theorem taken_piecesFrom (body : Text) (cursor : Nat) (os : List Occurrence) :
    (piecesFrom body cursor os).filterMap Piece.taken? =
      os.map fun o => (o.marker, o.span.textIn body) := by
  have htext : ∀ t ps, (textPieces t ++ ps).filterMap Piece.taken? =
      ps.filterMap Piece.taken? := by
    intro t ps
    cases t <;> rfl
  induction os generalizing cursor with
  | nil =>
    rw [piecesFrom]
    cases body.drop cursor <;> rfl
  | cons o os ih =>
    rw [piecesFrom, htext, List.filterMap_cons, ih, List.map_cons]
    rfl

theorem markers_eq_map_taken (ps : List Piece) :
    ps.filterMap Piece.marker? = (ps.filterMap Piece.taken?).map Prod.fst := by
  rw [List.map_filterMap]
  congr 1
  funext p
  cases p <;> rfl

end Spans

namespace Occurrence

variable {o o' : Occurrence} {gap more front : Text}

/-- A tag takes the rest of its line only where the line ends before the next marker. -/
theorem span_stop_cases (hafter : o.after = gap ++ '\x7b' :: more) :
    o.span.stop = o.before.length + o.source.length ∨
      '\n' ∈ gap ∧ o.span.stop = o.before.length + o.source.length + (firstLine gap).length := by
  cases halone : o.marker.isTag && o.standsAlone with
  | false => exact .inl (by rw [o.span_own halone])
  | true =>
    right
    have hblank := (Bool.and_eq_true_iff.mp (Bool.and_eq_true_iff.mp halone).2).2
    have hmem : '\n' ∈ gap := by
      by_contra hnone
      have hsplit : gap ++ '\x7b' :: more = (gap ++ ['\x7b']) ++ more := by simp
      rw [hafter, hsplit, firstLine_append_of_not_mem _ (by simp [hnone]), List.append_assoc,
        List.cons_append, not_isBlankLine_append_cons (.inl rfl)] at hblank
      cases hblank
    rw [o.span_line halone, hafter, firstLine_append_of_mem _ hmem]
    exact ⟨hmem, rfl⟩

/-- A tag takes the beginning of its line only where the line begins behind the last marker. -/
theorem span_start_cases (hbefore : o.before = front ++ '\x7d' :: gap) :
    o.span.start = o.before.length ∨
      '\n' ∈ gap ∧ o.span.start = o.before.length - (lastLine gap).length := by
  cases halone : o.marker.isTag && o.standsAlone with
  | false => exact .inl (by rw [o.span_own halone])
  | true =>
    right
    have hblank := (Bool.and_eq_true_iff.mp (Bool.and_eq_true_iff.mp halone).2).1
    have hmem : '\n' ∈ gap := by
      by_contra hnone
      rw [hbefore, lastLine_append_of_not_mem _ (by simp [hnone]),
        not_isBlankLine_append_cons (.inr rfl)] at hblank
      cases hblank
    rw [o.span_line halone, hbefore, lastLine_append_of_mem front (List.mem_cons_of_mem _ hmem),
      ← List.singleton_append, lastLine_append_of_mem _ hmem]
    exact ⟨hmem, rfl⟩

/-- Of two markers one after the other, each takes what the other leaves. -/
theorem span_stop_le (hwritten : o.marker.Written o.source)
    (hwritten' : o'.marker.Written o'.source) (hbefore : o'.before = o.before ++ (o.source ++ gap))
    (hafter : o.after = gap ++ (o'.source ++ o'.after)) : o.span.stop ≤ o'.span.start := by
  obtain ⟨inner, hopen⟩ := hwritten'.exists_cons
  obtain ⟨front, hclose⟩ := hwritten.exists_append
  have hnext : o.after = gap ++ '\x7b' :: (inner ++ o'.after) := by
    rw [hafter, hopen, List.cons_append]
  have hlast : o'.before = (o.before ++ front) ++ '\x7d' :: gap := by
    rw [hbefore, hclose]
    simp
  have hlength := congrArg List.length hbefore
  simp only [List.length_append] at hlength
  have hfirstLine := length_firstLine_le gap
  have hlastLine := length_lastLine_le gap
  rcases span_stop_cases hnext with hstop | ⟨hmem, hstop⟩ <;>
    rcases span_start_cases hlast with hstart | ⟨hmem', hstart⟩
  · omega
  · omega
  · omega
  · have hapart := length_firstLine_add_lastLine hmem
    omega

end Occurrence

/-- Where a text is cut twice, the gap between the cuts belongs to both. -/
theorem exists_gap {a b c d : Text} (h : a ++ b = c ++ d) (hle : a.length ≤ c.length) :
    ∃ gap, c = a ++ gap ∧ b = gap ++ d := by
  obtain ⟨gap, rfl⟩ := List.prefix_of_prefix_length_le (List.prefix_append a b)
    (h ▸ List.prefix_append c d) hle
  rw [List.append_assoc] at h
  exact ⟨gap, rfl, List.append_cancel_left h⟩

theorem Leftmost.spaced {body : Text} {start cursor : Nat} {os : List Occurrence}
    (h : Leftmost body start os) (hcursor : ∀ o ∈ os.head?, cursor ≤ o.span.start) :
    Spaced cursor os := by
  induction h generalizing cursor with
  | nil => exact .nil
  | @cons start o os hle hbody hwritten _ hrest ih =>
    refine .cons (hcursor o rfl) (ih ?_)
    intro o' ho'
    cases hrest with
    | nil => cases ho'
    | cons hle' hbody' hwritten' =>
      obtain rfl := Option.some.inj ho'
      have htwice := hbody.symm.trans hbody'
      rw [← List.append_assoc] at htwice
      obtain ⟨gap, hbefore, hafter⟩ := exists_gap htwice (by rwa [List.length_append])
      rw [List.append_assoc] at hbefore
      exact Occurrence.span_stop_le hwritten hwritten' hbefore hafter

/-- What the markers of a body take does not overlap, also where tags take whole lines. -/
theorem spaced_occurrences (body : Text) : Spaced 0 (occurrences body) := by
  apply (occurrences_leftmost body).spaced
  intro o _
  exact Nat.zero_le _

theorem fragments_eq_read (body : Text) :
    fragments body = (⟨[], []⟩ : Nesting).read (pieces body) :=
  (spaced_occurrences body).readFrom_eq body _

theorem source_pieces (body : Text) : (pieces body).flatMap Piece.source = body :=
  (spaced_occurrences body).source_piecesFrom body

end VbaWorkbench.Snippet
