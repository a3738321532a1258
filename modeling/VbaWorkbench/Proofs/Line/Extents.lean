import VbaWorkbench.Line.Extent
import VbaWorkbench.Proofs.Token.LineCuts

namespace VbaWorkbench

/-- The positions of a range, in order. -/
def TokenRange.indices (r : TokenRange) : List Nat :=
  List.range' r.first (r.stop - r.first)

/-- The positions of the tokens of a line and of the newline that ends it. -/
def Extent.indices (e : Extent) : List Nat :=
  e.tokens.indices ++ e.newline.toList

/-- Those of some positions at which a token of this kind stands. -/
def Token.positions (tokens : List Token) (kind : TokenKind) (indices : List Nat) : List Nat :=
  indices.filter fun i => (tokens[i]?).any (·.kind == kind)

/-- The parts of a range that is cut at the tokens of a kind. -/
structure TokenRange.Divided (tokens : List Token) (kind : TokenKind) (whole : TokenRange)
    (parts : List TokenRange) : Prop where
  count : parts.length = (Token.positions tokens kind whole.indices).length + 1
  /-- The parts and the cuts between them are the range, each position once and in order. -/
  covers : (parts.zip ((Token.positions tokens kind whole.indices).map some ++ [none])).flatMap
    (fun (part, cut) => part.indices ++ cut.toList) = whole.indices
  free : ∀ part ∈ parts, Token.positions tokens kind part.indices = []
  within : ∀ part ∈ parts,
    whole.first ≤ part.first ∧ part.first ≤ part.stop ∧ part.stop ≤ whole.stop

/-- The tokens stand in a stream from a position on. -/
def Token.StandAt (tokens : List Token) (first : Nat) (ts : List Token) : Prop :=
  ts <+: tokens.drop first

namespace Token.StandAt

variable {tokens ts us : List Token} {first : Nat}

theorem left (h : StandAt tokens first (ts ++ us)) : StandAt tokens first ts :=
  (List.prefix_append ts us).trans h

theorem right (h : StandAt tokens first (ts ++ us)) : StandAt tokens (first + ts.length) us := by
  obtain ⟨after, h⟩ := h
  refine ⟨after, ?_⟩
  rw [← List.drop_drop, ← h, List.append_assoc, List.drop_left]

theorem tail {t : Token} (h : StandAt tokens first (t :: ts)) : StandAt tokens (first + 1) ts :=
  right (show StandAt tokens first ([t] ++ ts) from h)

theorem getElem?_eq (h : StandAt tokens first ts) {i : Nat} (hi : i < ts.length) :
    tokens[first + i]? = ts[i]? := by
  obtain ⟨after, h⟩ := h
  rw [← List.getElem?_drop, ← h, List.getElem?_append_left hi]

end Token.StandAt

namespace Line

/-- Lines that a list of tokens is cut into, each ended by a token at which it is cut. -/
inductive Cut (p : Token → Bool) : List Token → List Line → Prop
  | last {ts : List Token} : (∀ t ∈ ts, p t = false) → Cut p ts [⟨ts, none⟩]
  | more {ts rest : List Token} {t : Token} {lines : List Line} : (∀ t ∈ ts, p t = false) →
      p t = true → Cut p rest lines → Cut p (ts ++ t :: rest) (⟨ts, some t⟩ :: lines)

variable {p : Token → Bool} {tokens ts : List Token} {lines : List Line} {t : Token} {first : Nat}

theorem Cut.push (ht : p t = false) (h : Cut p ts lines) : Cut p (t :: ts) (push t lines) := by
  cases h with
  | last hts => exact .last (List.forall_mem_cons.mpr ⟨ht, hts⟩)
  | more hts hcut hrest => exact .more (List.forall_mem_cons.mpr ⟨ht, hts⟩) hcut hrest

theorem Cut.cons (ht : p t = true) (h : Cut p ts lines) :
    Cut p (t :: ts) (⟨[], some t⟩ :: lines) := by
  rw [← List.nil_append (t :: ts)]
  exact .more nofun ht h

/-- The lines of a stream are cut at its newlines. -/
theorem cut_ofTokens (hts : ∀ t ∈ ts, t.kind ≠ .endOfInput) {marker : Token}
    (hmarker : marker.kind = .endOfInput) :
    Cut (·.kind == .newline) ts (ofTokens (ts ++ [marker])) := by
  induction ts with
  | nil =>
    rw [List.nil_append, ofTokens, hmarker]
    exact .last nofun
  | cons t ts ih =>
    obtain ⟨ht, hts⟩ := List.forall_mem_cons.mp hts
    rw [List.cons_append, ofTokens]
    split
    · rename_i hn
      exact .cons (beq_iff_eq.mpr hn) (ih hts)
    · contradiction
    · rename_i hn _
      exact .push (beq_eq_false_iff_ne.mpr hn) (ih hts)

/-- The pieces of a list are the tokens of such lines. -/
theorem cut_splitOnP (p : Token → Bool) (ts : List Token) :
    ∃ lines, Cut p ts lines ∧ lines.map (·.tokens) = ts.splitOnP p := by
  induction ts with
  | nil => exact ⟨[⟨[], none⟩], .last nofun, rfl⟩
  | cons t ts ih =>
    obtain ⟨lines, hcut, hlines⟩ := ih
    rw [List.splitOnP_cons_eq_if_modifyHead, ← hlines]
    cases ht : p t with
    | true => exact ⟨_, hcut.cons ht, rfl⟩
    | false =>
      refine ⟨_, hcut.push ht, ?_⟩
      cases hcut <;> rfl

end Line

namespace Token

variable {tokens ts : List Token} {first : Nat} {kind : TokenKind}

theorem positions_append (tokens : List Token) (kind : TokenKind) (is js : List Nat) :
    positions tokens kind (is ++ js) = positions tokens kind is ++ positions tokens kind js :=
  List.filter_append ..

/-- Where no token of the kind stands, it has no positions. -/
theorem StandAt.positions_eq_nil (h : StandAt tokens first ts)
    (hts : ∀ t ∈ ts, (t.kind == kind) = false) :
    positions tokens kind (List.range' first ts.length) = [] := by
  refine List.filter_eq_nil_iff.mpr fun i hi => ?_
  obtain ⟨hle, hlt⟩ := List.mem_range'_1.mp hi
  obtain ⟨k, rfl⟩ := Nat.exists_eq_add_of_le hle
  have hk : k < ts.length := by omega
  rw [h.getElem?_eq hk, List.getElem?_eq_getElem hk, Option.any_some,
    hts _ (List.getElem_mem hk)]
  exact Bool.false_ne_true

theorem StandAt.positions_cons {t : Token} (h : StandAt tokens first (t :: ts))
    (ht : (t.kind == kind) = true) (is : List Nat) :
    positions tokens kind (first :: is) = first :: positions tokens kind is := by
  have hfirst : tokens[first]? = some t := h.getElem?_eq (i := 0) (Nat.succ_pos _)
  refine List.filter_cons_of_pos ?_
  rw [hfirst, Option.any_some, ht]

end Token

namespace Line.Cut

variable {kind : TokenKind} {tokens ts : List Token} {lines : List Line} {first : Nat}

/-- The positions of a line, of the token that ends it, and of what stands behind it. -/
theorem range_split (first n k : Nat) :
    List.range' first (n + (k + 1)) =
      List.range' first n ++ (first + n) :: List.range' (first + n + 1) k := by
  rw [← List.range'_append_1, List.range'_succ]

theorem covers {p : Token → Bool} (h : Cut p ts lines) (first : Nat) :
    (Extent.ofLines first lines).flatMap Extent.indices = List.range' first ts.length := by
  induction h generalizing first with
  | @last ts _ => simp [Extent.ofLines, Extent.ofLine, Extent.indices, TokenRange.indices]
  | @more ts rest t lines _ _ _ ih =>
    rw [List.length_append, List.length_cons, range_split, ← ih]
    simp [Extent.ofLines, Extent.ofLine, Extent.indices, TokenRange.indices]

theorem length_eq {p : Token → Bool} (h : Cut p ts lines) : lines.length = ts.countP p + 1 := by
  have hnone : ∀ {ts : List Token}, (∀ t ∈ ts, p t = false) → ts.countP p = 0 := fun hts =>
    List.countP_eq_zero.mpr fun t ht => by simp [hts t ht]
  induction h with
  | last hts => rw [hnone hts]; rfl
  | more hts ht _ ih =>
    rw [List.length_cons, ih, List.countP_append, hnone hts, List.countP_cons_of_pos ht,
      Nat.zero_add]

/-- The lines end where the tokens stand at which they are cut. -/
theorem newlines (h : Cut (·.kind == kind) ts lines) (hat : Token.StandAt tokens first ts) :
    (Extent.ofLines first lines).map (·.newline) =
      (Token.positions tokens kind (List.range' first ts.length)).map some ++ [none] := by
  induction h generalizing first with
  | last hts =>
    rw [hat.positions_eq_nil hts]
    rfl
  | @more ts rest t lines hts ht _ ih =>
    rw [List.length_append, List.length_cons, range_split, Token.positions_append,
      hat.left.positions_eq_nil hts, hat.right.positions_cons ht, List.nil_append, List.map_cons,
      List.cons_append]
    rw [← ih hat.right.tail]
    rfl

/-- Each extent is that of a line that stands there, and does not reach beyond the tokens. -/
theorem extent (h : Cut (·.kind == kind) ts lines) (hat : Token.StandAt tokens first ts)
    {e : Extent} (he : e ∈ Extent.ofLines first lines) :
    ∃ line, e = Extent.ofLine e.tokens.first line ∧
      Token.StandAt tokens e.tokens.first line.tokens ∧
      (∀ t ∈ line.tokens, (t.kind == kind) = false) ∧
      first ≤ e.tokens.first ∧ e.tokens.first + line.tokens.length ≤ first + ts.length := by
  induction h generalizing first with
  | @last ts hts =>
    obtain rfl := List.mem_singleton.mp he
    exact ⟨⟨ts, none⟩, rfl, hat, hts, Nat.le_refl _, Nat.le_refl _⟩
  | @more ts rest t lines hts ht _ ih =>
    rw [List.length_append, List.length_cons]
    rcases List.mem_cons.mp he with rfl | he
    · exact ⟨⟨ts, some t⟩, rfl, hat.left, hts, Nat.le_refl _,
        Nat.add_le_add_left (Nat.le_add_right _ _) _⟩
    · obtain ⟨line, heq, hstand, hfree, hle, hstop⟩ := ih hat.right.tail he
      exact ⟨line, heq, hstand, hfree, by omega, by omega⟩

end Line.Cut

namespace Extent

theorem tokens_ofLines (first : Nat) (lines : List Line) :
    (ofLines first lines).map (·.tokens) = ranges first (lines.map (·.tokens)) := by
  induction lines generalizing first with
  | nil => rfl
  | cons line lines ih => exact congrArg (_ :: ·) (ih _)

theorem length_ofLines (first : Nat) (lines : List Line) :
    (ofLines first lines).length = lines.length := by
  induction lines generalizing first with
  | nil => rfl
  | cons line lines ih => exact congrArg (· + 1) (ih _)

/-- The ranges of the pieces divide the range of the whole. -/
theorem divided_ranges {tokens ts : List Token} {first : Nat}
    (hat : Token.StandAt tokens first ts) (kind : TokenKind) :
    TokenRange.Divided tokens kind ⟨first, first + ts.length⟩
      (ranges first (ts.splitOnP (·.kind == kind))) := by
  obtain ⟨lines, hcut, hlines⟩ := Line.cut_splitOnP (·.kind == kind) ts
  have hindices : TokenRange.indices ⟨first, first + ts.length⟩ = List.range' first ts.length := by
    rw [TokenRange.indices, Nat.add_sub_cancel_left]
  have hmap : ∀ {P : TokenRange → Prop}, (∀ e ∈ ofLines first lines, P e.tokens) →
      ∀ part ∈ (ofLines first lines).map (·.tokens), P part := fun h => List.forall_mem_map.mpr h
  have hnewlines := hcut.newlines hat
  rw [← hindices] at hnewlines
  rw [← hlines, ← tokens_ofLines]
  refine ⟨?_, ?_, hmap fun e he => ?_, hmap fun e he => ?_⟩
  · have hlength := congrArg List.length hnewlines
    simpa using hlength
  · rw [← hnewlines, List.zip_map', List.flatMap_map, hindices, ← hcut.covers first]
    rfl
  · obtain ⟨line, heq, hstand, hfree, -⟩ := hcut.extent hat he
    have hpart : e.tokens.indices = List.range' e.tokens.first line.tokens.length := by
      rw [heq, TokenRange.indices, Extent.ofLine, Nat.add_sub_cancel_left]
    rw [hpart]
    exact hstand.positions_eq_nil hfree
  · obtain ⟨line, heq, -, -, hle, hstop⟩ := hcut.extent hat he
    have hpart : e.tokens.stop = e.tokens.first + line.tokens.length := by
      rw [heq, Extent.ofLine]
    rw [hpart]
    exact ⟨hle, Nat.le_add_right _ _, hstop⟩

end Extent

/-- The lines of a source and the newlines between them are its tokens but for the end marker, each
once and in order, and only the last line has no newline. A line is divided into its statements at
the separators, and into its segments at the continuations. -/
theorem extents_divide (source : Text) :
    let tokens := tokenize source
    let extents := Extent.ofLines 0 (Line.ofTokens tokens)
    extents.flatMap Extent.indices = List.range (tokens.length - 1) ∧
    extents.length = tokens.countP (·.kind == .newline) + 1 ∧
    extents.map (·.newline) =
      (Token.positions tokens .newline (List.range tokens.length)).map some ++ [none] ∧
    ∀ e ∈ extents,
      TokenRange.Divided tokens .statementSeparator e.tokens e.statements ∧
      TokenRange.Divided tokens .lineContinuation e.tokens e.segments := by
  intro tokens extents
  obtain ⟨hsplit, -⟩ := tokenize_eq source
  let body := tokens.filter (·.kind != .endOfInput)
  have hbody : ∀ t ∈ body, t.kind ≠ .endOfInput := fun t ht => by
    simpa using (List.mem_filter.mp ht).2
  let marker : Token := ⟨⟨.endOfInput, []⟩, Text.byteLength source⟩
  have htokens : tokens = body ++ [marker] := hsplit
  have hlength : tokens.length = body.length + 1 := by
    rw [htokens, List.length_append, List.length_singleton]
  have hcut : Line.Cut (·.kind == .newline) body (Line.ofTokens tokens) := by
    rw [htokens]
    exact Line.cut_ofTokens hbody rfl
  have hall : Token.StandAt tokens 0 (body ++ [marker]) := by
    rw [← htokens]
    exact List.prefix_rfl
  have hcovers : extents.flatMap Extent.indices = List.range' 0 body.length := hcut.covers 0
  have hnewlines := hcut.newlines hall.left
  have hend : Token.positions tokens .newline (List.range' (0 + body.length) 1) = [] :=
    hall.right.positions_eq_nil (List.forall_mem_singleton.mpr rfl)
  have hrange : Token.positions tokens .newline (List.range tokens.length) =
      Token.positions tokens .newline (List.range' 0 body.length) := by
    rw [hlength, List.range_eq_range', ← List.range'_append_1, Token.positions_append, hend,
      List.append_nil]
  refine ⟨?_, ?_, ?_, fun e he => ?_⟩
  · rw [hcovers, hlength, Nat.add_sub_cancel, List.range_eq_range']
  · rw [htokens, List.countP_append]
    exact (Extent.length_ofLines 0 _).trans hcut.length_eq
  · rw [hrange]
    exact hnewlines
  · obtain ⟨line, heq, hstand, -⟩ := hcut.extent hall.left he
    rw [heq]
    exact ⟨Extent.divided_ranges hstand _, Extent.divided_ranges hstand _⟩

/-- A continuation at the end of a line leaves an empty segment behind it. -/
example : (Extent.ofLines 0 (Line.ofTokens (tokenize "a: _\n\n".toList))).map
    (fun e => (e.tokens, e.newline, e.statements, e.segments)) =
      [(⟨0, 4⟩, some 4, [⟨0, 1⟩, ⟨2, 4⟩], [⟨0, 3⟩, ⟨4, 4⟩]),
        (⟨5, 5⟩, none, [⟨5, 5⟩], [⟨5, 5⟩])] := by
  decide +kernel

end VbaWorkbench
