import VbaWorkbench.Proofs.Snippet.Conditionals
import VbaWorkbench.Proofs.Snippet.Lines

namespace VbaWorkbench.Snippet

/-- A conditional that has been entered, and whether its second branch has begun. -/
structure Enclosing where
  tag : Tag
  flag : Text
  second : Bool
deriving DecidableEq, Repr

/-- A flag that is not set counts as false. -/
def isSet (values : Fragment.Values) (flag : Text) : Bool :=
  values.lookup flag == some (.flag true)

/-- What stands for a value. -/
def textOf (values : Fragment.Values) (name : Text) : Text :=
  match values.lookup name with
  | some r => r.render
  | none => []

/-- The flag selects the branch that has been entered. -/
def Enclosing.selects (values : Fragment.Values) (e : Enclosing) : Bool :=
  match e.tag with
  | .whenSet => isSet values e.flag != e.second
  | .unlessSet => isSet values e.flag == e.second

namespace Marker

/-- The conditionals around what follows a marker, innermost first. -/
def enter (es : List Enclosing) : Marker → List Enclosing
  | value _ => es
  | opening tag flag => ⟨tag, flag, false⟩ :: es
  | otherwise =>
    match es with
    | [] => []
    | e :: es => { e with second := true } :: es
  | closing _ => es.tail

/-- What a marker leaves in the text. -/
def filled (values : Fragment.Values) : Marker → Text
  | value name => textOf values name
  | _ => []

end Marker

/-- The tag of a line. -/
def tagOf? (line : Text) : Option Marker :=
  ((parts line).2.map Part.marker).find? Marker.isTag

/-- A line with its values in place of its markers. -/
def filled (values : Fragment.Values) (line : Text) : Text :=
  (parts line).1 ++ (parts line).2.flatMap fun p => p.marker.filled values ++ p.after

/-- A text that stands only where all conditionals around it select its branch. -/
def kept (values : Fragment.Values) (es : List Enclosing) (t : Text) : Text :=
  if es.all (·.selects values) then t else []

/-- The lines one after the other, inside the conditionals `es`. -/
def linewise (values : Fragment.Values) (es : List Enclosing) : List Text → Text
  | [] => []
  | line :: rest =>
    match tagOf? line with
    | some tag => linewise values (tag.enter es) rest
    | none => kept values es (filled values line) ++ linewise values es rest

section Rendering

variable (values : Fragment.Values) (es : List Enclosing)

def Piece.enter (es : List Enclosing) : Piece → List Enclosing
  | text _ => es
  | marker m _ => m.enter es

def Piece.filled : Piece → Text
  | text t => t
  | marker m _ => m.filled values

/-- The pieces one after the other, inside the conditionals `es`. -/
def rendered (es : List Enclosing) : List Piece → Text
  | [] => []
  | p :: ps => kept values es (p.filled values) ++ rendered (p.enter es) ps

theorem kept_append (s t : Text) :
    kept values es (s ++ t) = kept values es s ++ kept values es t := by
  unfold kept
  split <;> simp

@[simp] theorem kept_nil : kept values es [] = [] :=
  ite_self _

theorem kept_enclosed (e : Enclosing) (t : Text) :
    kept values (e :: es) t = if e.selects values then kept values es t else [] := by
  unfold kept
  rw [List.all_cons]
  cases e.selects values <;> simp

/-- Of the two branches of a conditional exactly one is selected. -/
theorem kept_conditional (tag : Tag) (flag : Text) (fs gs : List Fragment) :
    kept values es (Fragment.render values (.conditional flag (tag == .unlessSet) fs gs)) =
      kept values (⟨tag, flag, false⟩ :: es) (Fragment.renderAll values fs) ++
        kept values (⟨tag, flag, true⟩ :: es) (Fragment.renderAll values gs) := by
  rw [kept_enclosed, kept_enclosed, Fragment.render]
  have hset : (values.lookup flag == some (.flag true)) = isSet values flag := rfl
  rw [hset]
  cases tag <;> cases hflag : isSet values flag <;> simp [Enclosing.selects, hflag]

theorem Builds.rendered_append {ps : List Piece} {fs : List Fragment} (h : Builds ps fs)
    (es : List Enclosing) (rest : List Piece) : rendered values es (ps ++ rest) =
      kept values es (Fragment.renderAll values fs) ++ rendered values es rest := by
  induction h generalizing es rest with
  | nil => simp [Fragment.renderAll]
  | text _ ih =>
    rw [List.cons_append, rendered, Piece.enter, ih, Fragment.renderAll, kept_append,
      List.append_assoc]
    rfl
  | value _ ih =>
    rw [List.cons_append, rendered, Piece.enter, Marker.enter, ih, Fragment.renderAll, kept_append,
      List.append_assoc]
    rfl
  | conditional _ _ ih ih' =>
    rw [Fragment.renderAll, kept_append, kept_conditional]
    simp [rendered, Piece.enter, Marker.enter, Piece.filled, Marker.filled, ih, ih',
      Fragment.renderAll]
  | alternative _ _ _ ih ih' ih'' =>
    rw [Fragment.renderAll, kept_append, kept_conditional]
    simp [rendered, Piece.enter, Marker.enter, Piece.filled, Marker.filled, ih, ih', ih'']

end Rendering

theorem Marker.enter_value {m : Marker} (h : m.isTag = false) (es : List Enclosing) :
    m.enter es = es := by
  cases m with
  | value name => rfl
  | opening | otherwise | closing => cases h

theorem Marker.filled_tag {m : Marker} (h : m.isTag = true) (values : Fragment.Values) :
    m.filled values = [] := by
  cases m with
  | value name => cases h
  | opening | otherwise | closing => rfl

theorem map_marker_occurrencesAfter (before : Text) (ps : List Part) :
    (occurrencesAfter before ps).map Occurrence.marker = ps.map Part.marker := by
  induction ps generalizing before with
  | nil => rfl
  | cons p ps ih => rw [occurrencesAfter, List.map_cons, ih, List.map_cons]

section Lines

variable {values : Fragment.Values} {es : List Enclosing} {line more : Text}

theorem rendered_textPieces (t : Text) (ps : List Piece) :
    rendered values es (textPieces t ++ ps) = kept values es t ++ rendered values es ps := by
  cases t with
  | nil =>
    rw [kept_nil]
    rfl
  | cons c t => rfl

theorem rendered_text (t : Text) : rendered values es (textPieces t) = kept values es t := by
  rw [← List.append_nil (textPieces t), rendered_textPieces, rendered, List.append_nil]

theorem textIn_append_left {before : Text} {cursor : Nat} (hle : cursor ≤ before.length)
    (rest : Text) : Span.textIn ⟨cursor, before.length⟩ (before ++ rest) = before.drop cursor := by
  rw [Span.textIn, List.drop_append_of_le_length hle, ← List.length_drop, List.take_left]

/-- The end of a line without markers is kept or not as a whole. -/
theorem rendered_rest {cursor : Nat} (hcursor : cursor ≤ line.length) {os : List Occurrence}
    (hos : ∀ o ∈ os.head?, line.length ≤ o.span.start) :
    rendered values es (piecesFrom (line ++ more) cursor os) =
      kept values es (line.drop cursor) ++
        rendered values es (piecesFrom (line ++ more) line.length os) := by
  cases os with
  | nil =>
    rw [piecesFrom, piecesFrom, rendered_text, rendered_text,
      List.drop_append_of_le_length hcursor, List.drop_left, kept_append]
  | cons o os =>
    have hle := hos o rfl
    have hcut : Span.textIn ⟨cursor, o.span.start⟩ (line ++ more) =
        line.drop cursor ++ Span.textIn ⟨line.length, o.span.start⟩ (line ++ more) := by
      have hlength : o.span.start - cursor = (line.drop cursor).length +
          (o.span.start - line.length) := by
        rw [List.length_drop]
        omega
      rw [Span.textIn, Span.textIn, List.drop_append_of_le_length hcursor, List.drop_left, hlength,
        List.take_length_add_append]
    rw [piecesFrom, rendered_textPieces, hcut, kept_append, List.append_assoc, piecesFrom,
      rendered_textPieces]

theorem rendered_value {o : Occurrence} (h : o.marker.isTag = false) (body : Text) (cursor : Nat)
    (os : List Occurrence) : rendered values es (piecesFrom body cursor (o :: os)) =
      kept values es (Span.textIn ⟨cursor, o.before.length⟩ body ++ o.marker.filled values) ++
        rendered values es (piecesFrom body (o.before.length + o.source.length) os) := by
  rw [piecesFrom, rendered_textPieces, rendered, Piece.enter, Marker.enter_value h,
    o.span_own (by rw [h, Bool.false_and]), kept_append, List.append_assoc]
  rfl

/-- A line whose markers are values is kept or not as a whole. -/
theorem rendered_line (before : Text) (ps : List Part) (cursor : Nat)
    (hline : line = before ++ sourceOf ps) (hcursor : cursor ≤ before.length)
    (hvalues : ∀ p ∈ ps, p.marker.isTag = false) {os : List Occurrence}
    (hos : ∀ o ∈ os.head?, line.length ≤ o.span.start) :
    rendered values es (piecesFrom (line ++ more) cursor
        ((occurrencesAfter before ps).map (·.followedBy more) ++ os)) =
      kept values es (before.drop cursor ++
          ps.flatMap fun p => p.marker.filled values ++ p.after) ++
        rendered values es (piecesFrom (line ++ more) line.length os) := by
  induction ps generalizing before cursor with
  | nil =>
    obtain rfl : line = before := by simpa [sourceOf] using hline
    simpa [occurrencesAfter] using rendered_rest hcursor hos
  | cons p ps ih =>
    have hrest := ih (before ++ p.source ++ p.after) (before.length + p.source.length)
      (by simpa [sourceOf] using hline) (by simp) fun q hq => hvalues q (List.mem_cons_of_mem p hq)
    have hafter : (before ++ p.source ++ p.after).drop (before.length + p.source.length) =
        p.after := by
      rw [← List.length_append, List.drop_left]
    have htext : Span.textIn ⟨cursor, before.length⟩ (line ++ more) = before.drop cursor := by
      rw [hline, List.append_assoc, textIn_append_left hcursor]
    rw [hafter] at hrest
    calc
      _ = kept values es (before.drop cursor ++ p.marker.filled values) ++
          rendered values es (piecesFrom (line ++ more) (before.length + p.source.length)
            ((occurrencesAfter (before ++ p.source ++ p.after) ps).map (·.followedBy more) ++
              os)) := by
        rw [occurrencesAfter, List.map_cons, List.cons_append,
          rendered_value (hvalues p List.mem_cons_self), ← htext]
        rfl
      _ = kept values es ((before.drop cursor ++ p.marker.filled values) ++
            (p.after ++ ps.flatMap fun p => p.marker.filled values ++ p.after)) ++
          rendered values es (piecesFrom (line ++ more) line.length os) := by
        rw [hrest, ← List.append_assoc, ← kept_append]
      _ = _ := by simp

end Lines

/-- A tag with nothing but blanks around it is the only marker of its line. -/
theorem Leftmost.eq_singleton {body : Text} {start : Nat} {os : List Occurrence} {o : Occurrence}
    (h : Leftmost body start os) (ho : o ∈ os) (hbefore : isBlankLine o.before = true)
    (hafter : isBlankLine o.after = true) : os = [o] := by
  cases h with
  | nil => cases ho
  | @cons _ first os _ hbody hwritten _ hrest =>
    -- What follows the first marker leaves its gap in the text around the tag.
    have hgap : ∀ later ∈ os, ∃ gap, later.before = first.before ++ first.source ++ gap ∧
        first.after = gap ++ (later.source ++ later.after) := by
      intro later hlater
      obtain ⟨hle, hbody', -⟩ := hrest.mem hlater
      apply exists_gap _ (by rwa [List.length_append])
      rw [List.append_assoc, ← hbody, ← hbody']
    rcases List.mem_cons.mp ho with rfl | ho
    · cases os with
      | nil => rfl
      | cons later os =>
        obtain ⟨gap, -, hsplit⟩ := hgap later List.mem_cons_self
        obtain ⟨inner, hopen⟩ := (hrest.mem List.mem_cons_self).2.2.exists_cons
        rw [hsplit, hopen, List.cons_append, not_isBlankLine_append_cons (.inl rfl)] at hafter
        cases hafter
    · obtain ⟨gap, hsplit, -⟩ := hgap o ho
      obtain ⟨inner, hopen⟩ := hwritten.exists_cons
      rw [hsplit, hopen, List.append_assoc, List.cons_append,
        not_isBlankLine_append_cons (.inl rfl)] at hbefore
      cases hbefore

section Tags

variable {values : Fragment.Values} {line more : Text} {o : Occurrence}

/-- A tag that stands alone takes its line and is the only marker there. -/
theorem IsLine.tag_line (h : IsLine line more) (ho : o ∈ occurrences line)
    (htag : o.marker.isTag = true) (halone : (o.followedBy more).standsAlone = true) :
    occurrences line = [o] ∧ (o.followedBy more).span = ⟨0, line.length⟩ := by
  obtain ⟨-, hline, hwritten⟩ := (occurrences_leftmost line).mem ho
  obtain ⟨hfront, hback⟩ := h.around hline hwritten
  have hspan := (o.followedBy more).span_line (by rw [halone, Bool.and_true]; exact htag)
  obtain ⟨hbefore, hafter⟩ := Bool.and_eq_true_iff.mp halone
  dsimp only [Occurrence.followedBy] at hbefore hafter hspan
  rw [hfront] at hbefore
  rw [hback] at hafter
  refine ⟨(occurrences_leftmost line).eq_singleton ho hbefore hafter, ?_⟩
  rw [Occurrence.followedBy, hspan, hfront, hback, Nat.sub_self]
  have hlength := congrArg List.length hline
  simp only [List.length_append] at hlength
  rw [hlength, Nat.add_assoc]

end Tags

/-- Where each tag has a line of its own, rendering the pieces of a body goes line by line. -/
theorem rendered_pieces (values : Fragment.Values) (es : List Enclosing) {body : Text}
    (hsource : ∀ o ∈ occurrences body, '\n' ∉ o.source)
    (halone : ∀ o ∈ occurrences body, o.marker.isTag = true → o.standsAlone = true) :
    rendered values es (pieces body) = linewise values es (linesOf body) := by
  induction body using lines_induction generalizing es with
  | nil =>
    rw [pieces, occurrences_nil]
    rfl
  | line line more hne hline ih =>
    have hsplit := hline.occurrences_append hsource
    have hbehind : ∀ o ∈ occurrences more, o.behind line ∈ occurrences (line ++ more) := by
      intro o ho
      rw [hsplit]
      exact List.mem_append_right _ (List.mem_map_of_mem ho)
    have hfront : ∀ o ∈ occurrences line, o.followedBy more ∈ occurrences (line ++ more) := by
      intro o ho
      rw [hsplit]
      exact List.mem_append_left _ (List.mem_map_of_mem ho)
    have hmore : ∀ es, rendered values es (pieces more) = linewise values es (linesOf more) := by
      intro es
      refine ih es (fun o ho => hsource (o.behind line) (hbehind o ho)) ?_
      intro o ho htag
      rw [← hline.alone_behind ho]
      exact halone _ (hbehind o ho) htag
    rw [hline.linesOf_append hne, linewise, pieces, hsplit]
    cases hfound : tagOf? line with
    | none =>
      have hvalues : ∀ p ∈ (parts line).2, p.marker.isTag = false := by
        intro p hp
        simpa using List.find?_eq_none.mp hfound _ (List.mem_map_of_mem hp)
      rw [← hmore, ← hline.piecesFrom_more]
      exact rendered_line _ _ 0 (parts_source line).symm (Nat.zero_le _) hvalues
        hline.start_behind
    | some tag =>
      have htag := List.find?_some hfound
      have hmem := List.mem_of_find?_eq_some hfound
      rw [← map_marker_occurrencesAfter (parts line).1] at hmem
      obtain ⟨o, ho, rfl⟩ := List.mem_map.mp hmem
      obtain ⟨hone, hspan⟩ := hline.tag_line ho htag (halone _ (hfront o ho) htag)
      dsimp only
      rw [← hmore, ← hline.piecesFrom_more, hone, List.map_singleton, List.singleton_append,
        piecesFrom, hspan, rendered_textPieces, rendered]
      simp [Span.textIn, Piece.filled, Piece.enter, Occurrence.followedBy, Marker.filled_tag htag]

/-- Where no marker holds a line feed and each tag stands alone on its line, rendering a body drops
the lines of the tags and keeps each other line, with its values put in once, exactly where all
conditionals around it select its branch. -/
theorem renderAll_linewise (values : Fragment.Values) {body : Text} {fs : List Fragment}
    (h : fragments body = .ok fs) (hsource : ∀ o ∈ occurrences body, '\n' ∉ o.source)
    (halone : ∀ o ∈ occurrences body, o.marker.isTag = true → o.standsAlone = true) :
    Fragment.renderAll values fs = linewise values [] (linesOf body) := by
  rw [fragments_eq_read, read_eq_ok_iff] at h
  have hrendered := h.rendered_append values [] []
  rw [List.append_nil, rendered_pieces values [] hsource halone] at hrendered
  simpa [rendered, kept] using hrendered.symm

/-- Conditionals one inside the other, lines that end in two ways and a last line that does not end.
A value that looks like a marker is not read again. -/
theorem renderAll_linewise_nested : ∃ body fs,
    body = "\x7b\x7b#if flag\x7d\x7d\r\na \x7b\x7bname\x7d\x7d\r\n".toList ++
      "\t\x7b\x7b#unless deep\x7d\x7d \nb\n\x7b\x7b/unless\x7d\x7d\n".toList ++
      " \x7b\x7belse\x7d\x7d\nc\n\n\x7b\x7b/if\x7d\x7d\nd".toList ∧
    fragments body = .ok fs ∧ (∀ o ∈ occurrences body, '\n' ∉ o.source) ∧
    (∀ o ∈ occurrences body, o.marker.isTag = true → o.standsAlone = true) ∧
    Fragment.renderAll
        [("flag".toList, .flag true), ("name".toList, .text "\x7b\x7bflag\x7d\x7d".toList)] fs =
      "a \x7b\x7bflag\x7d\x7d\r\nb\nd".toList := by
  obtain ⟨body, hbody⟩ : ∃ body,
      body = "\x7b\x7b#if flag\x7d\x7d\r\na \x7b\x7bname\x7d\x7d\r\n".toList ++
        "\t\x7b\x7b#unless deep\x7d\x7d \nb\n\x7b\x7b/unless\x7d\x7d\n".toList ++
        " \x7b\x7belse\x7d\x7d\nc\n\n\x7b\x7b/if\x7d\x7d\nd".toList := ⟨_, rfl⟩
  have hread : (fragments body).toOption.isSome = true := by
    subst hbody
    decide +kernel
  have hsource : ∀ o ∈ occurrences body, '\n' ∉ o.source := by
    have hall : (occurrences body).all (fun o => !o.source.contains '\n') = true := by
      subst hbody
      decide +kernel
    simpa using hall
  have halone : ∀ o ∈ occurrences body, o.marker.isTag = true → o.standsAlone = true := by
    have hall : (occurrences body).all (fun o => !o.marker.isTag || o.standsAlone) = true := by
      subst hbody
      decide +kernel
    intro o ho htag
    simpa [htag] using List.all_eq_true.mp hall o ho
  cases hfs : fragments body with
  | error e =>
    rw [hfs] at hread
    cases hread
  | ok fs =>
    refine ⟨body, fs, hbody, hfs, hsource, halone, ?_⟩
    rw [renderAll_linewise _ hfs hsource halone, hbody]
    decide +kernel

end VbaWorkbench.Snippet
