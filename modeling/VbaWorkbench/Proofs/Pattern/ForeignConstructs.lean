import VbaWorkbench.Proofs.Pattern.GroupScan
import VbaWorkbench.Proofs.Pattern.ReadingOn
import VbaWorkbench.Proofs.Pattern.RenderedSymbols
import VbaWorkbench.Proofs.Pattern.Leading

namespace VbaWorkbench.Pattern

/-- The foreign construct that begins a text and its length: a group up to its closing parenthesis, or
an escape up to the end of its name. -/
def foreignAt? : Text → Option (ForeignConstruct × Nat)
  | '(' :: rest =>
    match groupHead? rest with
    | some (.foreign construct) => (groupReach? 0 rest).map fun n => (construct, n + 1)
    | _ => none
  | '\\' :: c :: rest =>
    if c ∈ ['A', 'Z', 'z', 'G'] then some (.absoluteAnchor, 2)
    else if isPropertyEscape c rest then
      (through? '}' rest).map fun n => (.unicodeProperty, n + 2)
    else if c = 'k' ∧ rest.head? = some '<' then
      (through? '>' rest).map fun n => (.namedBackreference, n + 2)
    else none
  | _ => none

theorem opens_of_foreignAt {t : Text} {found : ForeignConstruct × Nat}
    (h : foreignAt? t = some found) : Opens t := by
  unfold foreignAt? at h
  split at h
  · exact .inl rfl
  · exact .inr rfl
  · cases h

section Readings

variable {opening offset : Nat} {c : Char} {t rest : Text}

theorem readProperty_warnings {r : Reading Unit} (h : readProperty offset t = .ok r) :
    r.warnings = [⟨.unicodeProperty, offset⟩] := by
  unfold readProperty at h
  split at h
  · cases h
    rfl
  · cases h

theorem readClassAtom_warnings {r : Reading ClassAtom} (h : readClassAtom opening offset t = .ok r) :
    ∀ w ∈ r.warnings, w.construct = .unicodeProperty := by
  unfold readClassAtom at h
  split at h
  · cases h
  · cases h
  · split at h
    · cases h
      exact List.forall_mem_nil _
    split at h
    · cases h
      exact List.forall_mem_nil _
    split at h
    · obtain ⟨u, hu, rfl⟩ := ok_of_map h
      dsimp only
      rw [readProperty_warnings hu]
      exact List.forall_mem_singleton.mpr rfl
    · cases h
      exact List.forall_mem_nil _
  · cases h
    exact List.forall_mem_nil _

theorem readClassPart_warnings {r : Reading (List ClassItem)}
    (h : readClassPart opening offset t = .ok r) :
    ∀ w ∈ r.warnings, w.construct = .unicodeProperty := by
  obtain ⟨first, hfirst, ⟨-, rfl⟩ | ⟨lo, next, rest, second, items, -, hsecond, -, rfl⟩⟩ :=
    readClassPart_cases h
  · exact readClassAtom_warnings hfirst
  · exact List.forall_mem_append.mpr
      ⟨readClassAtom_warnings hfirst, readClassAtom_warnings hsecond⟩

theorem readClassItems_warnings {r : Reading (List ClassItem)}
    (h : readClassItems opening offset t = .ok r) :
    ∀ w ∈ r.warnings, w.construct = .unicodeProperty := by
  fun_induction readClassItems opening offset t generalizing r with
  | case1 => cases h
  | case2 =>
    cases h
    exact List.forall_mem_nil _
  | case3 => cases h
  | case4 offset c rest hc part hpart n offset' =>
    rename_i ih
    obtain ⟨more, hmore, rfl⟩ := ok_of_map h
    exact List.forall_mem_append.mpr ⟨readClassPart_warnings hpart, ih hmore⟩

theorem readClass_warnings {r : Reading CharClass} (h : readClass opening t = .ok r) :
    ∀ w ∈ r.warnings, w.construct = .unicodeProperty := by
  unfold readClass at h
  split at h
  · obtain ⟨items, hitems, rfl⟩ := ok_of_map h
    exact readClassItems_warnings hitems
  · obtain ⟨items, hitems, rfl⟩ := ok_of_map h
    exact readClassItems_warnings hitems

/-- What a symbol says of foreign constructs. It is one that is left out whole, a quantifier with a
second mark, or a class without some of its items. -/
inductive Foreignness (offset : Nat) (t : Text) (r : Reading Symbol) : Prop where
  | dropped (construct : ForeignConstruct) (value : r.value = .atom .empty)
      (warnings : r.warnings = [⟨construct, offset⟩])
      (found : foreignAt? t = some (construct, r.length))
  | quantifier (value : r.value ≠ .atom .empty)
      (warnings : ∀ w ∈ r.warnings, w.construct = .possessiveQuantifier)
  | charClass (cls : CharClass) (value : r.value = .atom (.charClass cls))
      (warnings : ∀ w ∈ r.warnings, w.construct = .unicodeProperty)

theorem Foreignness.plain {offset : Nat} {t : Text} {symbol : Symbol} {n : Nat}
    (h : symbol ≠ .atom .empty) : Foreignness offset t ⟨symbol, [], n⟩ :=
  .quantifier h (List.forall_mem_nil _)

theorem readEscape_foreignness {r : Reading Symbol} (h : readEscape offset rest = .ok r) :
    Foreignness offset ('\\' :: rest) r := by
  cases rest with
  | nil => cases h
  | cons c rest =>
    simp only [readEscape] at h
    split at h
    · cases h
      exact .plain (by simp)
    split at h
    · cases h
      exact .plain (by simp)
    split at h
    · cases h
      exact .plain (by simp)
    split at h
    · rename_i hanchor
      cases h
      exact .dropped .absoluteAnchor rfl rfl (by rw [foreignAt?, if_pos hanchor])
    rename_i hanchor
    split at h
    · rename_i hp
      obtain ⟨u, hu, rfl⟩ := ok_of_map h
      unfold readProperty at hu
      split at hu
      · rename_i n hn
        cases hu
        refine .dropped .unicodeProperty rfl rfl ?_
        rw [foreignAt?, if_neg hanchor, if_pos hp, hn, Option.map_some]
      · cases hu
    rename_i hp
    split at h
    · rename_i hk
      split at h
      · rename_i n hn
        cases h
        refine .dropped .namedBackreference rfl rfl ?_
        rw [foreignAt?, if_neg hanchor, if_neg hp, if_pos hk, hn, Option.map_some]
      · cases h
    split at h
    · cases h
      exact .plain (by simp)
    · cases h
      exact .plain (by simp)

theorem readGroup_foreignness {r : Reading Symbol} (h : readGroup offset rest = .ok r) :
    Foreignness offset ('(' :: rest) r := by
  unfold readGroup at h
  split at h
  · cases h
  · cases h
    exact .plain (by simp)
  · rename_i construct hhead
    split at h
    · rename_i n hn
      cases h
      refine .dropped construct rfl rfl ?_
      simp only [foreignAt?, hhead, hn, Option.map_some]
    · cases h

theorem marked_foreignness (bounds : Bounds) (length : Nat) (t rest : Text) :
    Foreignness offset t (marked offset bounds length rest) := by
  unfold marked
  split
  · exact .plain (by simp)
  · exact .quantifier (by simp) (List.forall_mem_singleton.mpr rfl)
  · exact .plain (by simp)

theorem readSymbol_foreignness {r : Reading Symbol} (h : readSymbol offset c rest = .ok r) :
    Foreignness offset (c :: rest) r := by
  unfold readSymbol at h
  split at h
  · exact readGroup_foreignness h
  · cases h
    exact .plain (by simp)
  · cases h
    exact .plain (by simp)
  · obtain ⟨cls, hcls, rfl⟩ := ok_of_map h
    exact .charClass cls.value rfl (readClass_warnings hcls)
  · exact readEscape_foreignness h
  · cases h
    exact .plain (by simp)
  · cases h
    exact .plain (by simp)
  · cases h
    exact .plain (by simp)
  · cases h
    exact marked_foreignness _ _ _ _
  · cases h
    exact marked_foreignness _ _ _ _
  · cases h
    exact marked_foreignness _ _ _ _
  · obtain ⟨bounds, hbounds, rfl⟩ := ok_of_map h
    cases bounds with
    | none => exact .plain (by simp)
    | some r => exact marked_foreignness _ _ _ _
  · cases h
    exact .plain (by simp)

end Readings

section Lengths

variable {n depth : Nat} {t : Text}

theorem through_le {close : Char} (h : through? close t = some n) : n ≤ t.length := by
  obtain ⟨i, hi, rfl⟩ := Option.map_eq_some_iff.mp h
  exact (List.findIdx?_eq_some_iff_findIdx_eq.mp hi).1

theorem groupReach_le (h : groupReach? depth t = some n) : n ≤ t.length := by
  induction ht : t.length using Nat.strongRecOn generalizing t n depth with
  | ind length ih =>
    cases t with
    | nil =>
      rw [groupReach?] at h
      cases h
    | cons c t =>
      rw [List.length_cons] at ht
      by_cases hclose : c = ')'
      · subst hclose
        cases depth with
        | zero =>
          rw [groupReach?, if_pos rfl] at h
          obtain rfl := Option.some.inj h
          omega
        | succ depth =>
          rw [groupReach_close] at h
          obtain ⟨m, hm, rfl⟩ := Option.map_eq_some_iff.mp h
          have := ih t.length (by omega) hm rfl
          omega
      by_cases hopen : c = '('
      · subst hopen
        rw [groupReach_open] at h
        obtain ⟨m, hm, rfl⟩ := Option.map_eq_some_iff.mp h
        have := ih t.length (by omega) hm rfl
        omega
      · rw [groupReach_other depth hclose hopen] at h
        obtain ⟨k, hk, h⟩ := Option.bind_eq_some_iff.mp h
        obtain ⟨m, hm, rfl⟩ := Option.map_eq_some_iff.mp h
        have hpos := groupReach_pos hm
        have hlength : (t.drop k).length = t.length - k := List.length_drop
        have := ih (t.drop k).length (by omega) hm rfl
        omega

theorem length_of_foreignAt {construct : ForeignConstruct} (h : foreignAt? t = some (construct, n)) :
    1 ≤ n ∧ n ≤ t.length := by
  unfold foreignAt? at h
  split at h
  · split at h
    · obtain ⟨m, hm, heq⟩ := Option.map_eq_some_iff.mp h
      cases heq
      exact ⟨Nat.le_add_left 1 m, Nat.succ_le_succ (groupReach_le hm)⟩
    · cases h
  · rename_i c rest
    have hname : ∀ {close : Char} {found : ForeignConstruct},
        ((through? close rest).map fun n => (found, n + 2)) = some (construct, n) →
          1 ≤ n ∧ n ≤ ('\\' :: c :: rest).length := by
      intro close found h
      obtain ⟨m, hm, heq⟩ := Option.map_eq_some_iff.mp h
      cases heq
      exact ⟨Nat.le_add_left 1 _, Nat.add_le_add_right (through_le hm) 2⟩
    split at h
    · cases h
      exact ⟨Nat.le_add_left 1 1, Nat.le_add_left 2 _⟩
    split at h
    · exact hname h
    split at h
    · exact hname h
    · cases h
  · cases h

end Lengths

section Replacing

theorem openings_eq (ps : List PlacedSymbol) :
    openings ps = (ps.map (·.symbol)).foldr (fun symbol total => symbol.capturing + total) 0 := by
  induction ps with
  | nil => rfl
  | cons p ps ih => rw [openings, ih, List.map_cons, List.foldr_cons]

/-- Patterns whose symbols open as many groups and lead to the same state are parsed to the same
tree, but for the offsets of its quantifiers. -/
theorem parse_congr {pattern other : Text} {parsed : Parsed} (h : parse pattern = .ok parsed)
    (hflaw : (readSymbols 0 other).flaw = none)
    (hopenings : openings (readSymbols 0 other).symbols = openings (readSymbols 0 pattern).symbols)
    (hrun : ∀ total, ParseState.initial.run total ((readSymbols 0 other).symbols.map (·.symbol)) =
      ParseState.initial.run total ((readSymbols 0 pattern).symbols.map (·.symbol))) :
    ∃ again, parse other = .ok again ∧ again.node.unplaced = parsed.node.unplaced ∧
      again.groups = parsed.groups ∧
      again.warnings = (readSymbols 0 other).symbols.flatMap (·.warnings) := by
  obtain ⟨hflaw', s, hsteps, hclosed, rfl⟩ := parse_ok h
  have htotal : groupTotal other = groupTotal pattern := by
    rw [groupTotal_eq 0 other hflaw, groupTotal_eq 0 pattern hflaw', hopenings]
  have hinitial : ParseState.initial.unplaced = .initial := rfl
  have hstate := ParseState.run_eq (groupTotal pattern) .initial (readSymbols 0 pattern).symbols
  have hstate' := ParseState.run_eq (groupTotal pattern) .initial (readSymbols 0 other).symbols
  rw [hinitial, hsteps] at hstate
  rw [hinitial, hrun, hstate] at hstate'
  cases hsteps' : ParseState.initial.steps (groupTotal pattern) (readSymbols 0 other).symbols with
  | error e =>
    rw [hsteps'] at hstate'
    cases hstate'
  | ok s' =>
    rw [hsteps'] at hstate'
    have hsame : s.unplaced = s'.unplaced := Except.ok.inj hstate'
    have hclosed' : s'.groups = [] := by
      have hgroups := congrArg ParseState.groups hsame
      simp only [ParseState.unplaced, hclosed, List.map_nil] at hgroups
      exact List.map_eq_nil_iff.mp hgroups.symm
    refine ⟨⟨s'.level.node, s'.count, (readSymbols 0 other).symbols.flatMap (·.warnings)⟩, ?_, ?_,
      ?_, rfl⟩
    · simp only [parse, htotal, hsteps', hflaw, ParseState.finish, hclosed']
      rfl
    · rw [Level.unplaced_node, Level.unplaced_node]
      exact congrArg (fun state => state.level.node) hsame.symm
    · exact (congrArg ParseState.count hsame).symm

/-- The two symbols of the empty group do together what an atom does that is left out. -/
theorem run_emptyGroup (total : Nat) (s : ParseState) (before after : List Symbol) :
    s.run total (before ++ [.opening .nonCapturing, .closing] ++ after) =
      s.run total (before ++ [.atom .empty] ++ after) := by
  simp only [ParseState.run_append]
  cases s.run total before with
  | error e => rfl
  | ok moved => rfl

/-- The empty group. -/
def emptyGroup : Text :=
  ['(', '?', ':', ')']

theorem readSymbols_emptyGroup (offset : Nat) (rest : Text) :
    ∃ ps : List PlacedSymbol, ps.map (·.symbol) = [.opening .nonCapturing, .closing] ∧
      (∀ p ∈ ps, p.warnings = []) ∧
      readSymbols offset (emptyGroup ++ rest) =
        let more := readSymbols (offset + Text.byteLength emptyGroup) rest
        ⟨ps ++ more.symbols, more.flaw⟩ :=
  Spells.group .nonCapturing Calm.nil (Spells.nil (')' :: rest)) offset

end Replacing

/-- The construct of a warning is left out as an atom of its own. -/
def Dropped (pattern : Text) (w : Warning) : Prop :=
  ∃ p ∈ (readSymbols 0 pattern).symbols, p.symbol = .atom .empty ∧ w ∈ p.warnings

/-- The construct of a warning is left out of a class. -/
def DroppedInClass (pattern : Text) (w : Warning) : Prop :=
  ∃ p ∈ (readSymbols 0 pattern).symbols, ∃ cls, p.symbol = .atom (.charClass cls) ∧ w ∈ p.warnings

/-- A second mark at a quantifier and a property in a class are left out of what they belong to, and
every other foreign construct is an atom that is left out. -/
theorem dropped_or {pattern : Text} {p : PlacedSymbol} {w : Warning}
    (hp : p ∈ (readSymbols 0 pattern).symbols) (hw : w ∈ p.warnings) :
    Dropped pattern w ∨ w.construct = .possessiveQuantifier ∨
      (w.construct = .unicodeProperty ∧ DroppedInClass pattern w) := by
  obtain ⟨ps, c, rest, r, -, hr, heq⟩ := Reads.exists_of_mem hp
  have hsymbol : p.symbol = r.value := congrArg PlacedSymbol.symbol heq
  have hwarnings : p.warnings = r.warnings := congrArg PlacedSymbol.warnings heq
  cases readSymbol_foreignness hr with
  | dropped construct value _ _ => exact .inl ⟨p, hp, hsymbol.trans value, hw⟩
  | quantifier _ warnings => exact .inr (.inl (warnings w (hwarnings ▸ hw)))
  | charClass cls value warnings =>
    exact .inr (.inr ⟨warnings w (hwarnings ▸ hw), p, hp, cls, hsymbol.trans value, hw⟩)

/-- Where a construct is left out, an empty atom is read in its place and the reading goes on behind
it. -/
theorem Dropped.reads {pattern : Text} {w : Warning} (h : Dropped pattern w) :
    ∃ ps t n, Reads 0 pattern ps w.offset t ∧ foreignAt? t = some (w.construct, n) ∧
      readSymbols w.offset t =
        let more := readSymbols (w.offset + Text.byteLength (t.take n)) (t.drop n)
        ⟨⟨.atom .empty, w.offset, [w]⟩ :: more.symbols, more.flaw⟩ := by
  obtain ⟨p, hp, hempty, hw⟩ := h
  obtain ⟨ps, c, rest, r, hreads, hr, heq⟩ := Reads.exists_of_mem hp
  have hvalue : r.value = .atom .empty := (congrArg PlacedSymbol.symbol heq).symm.trans hempty
  rw [congrArg PlacedSymbol.warnings heq] at hw
  cases readSymbol_foreignness hr with
  | quantifier value _ => exact absurd hvalue value
  | charClass cls value _ =>
    rw [hvalue] at value
    cases value
  | dropped construct _ warnings found =>
    rw [warnings] at hw
    obtain rfl := List.mem_singleton.mp hw
    obtain ⟨n, hn⟩ := Nat.exists_eq_add_of_le' (length_of_foreignAt found).1
    refine ⟨ps, c :: rest, r.length, hreads, found, ?_⟩
    rw [readSymbols, hr]
    dsimp only
    rw [hvalue, warnings, hn]
    rfl

section Contents

variable {ps qs : List PlacedSymbol}

theorem symbols_of_content (h : qs.map (·.content) = ps.map (·.content)) :
    qs.map (·.symbol) = ps.map (·.symbol) := by
  have hsymbols := congrArg (List.map Prod.fst) h
  rwa [List.map_map, List.map_map] at hsymbols

theorem constructs_of_content (h : qs.map (·.content) = ps.map (·.content)) :
    (qs.flatMap (·.warnings)).map (·.construct) = (ps.flatMap (·.warnings)).map (·.construct) := by
  have hconstructs := congrArg (List.flatMap Prod.snd) h
  rw [List.flatMap_map, List.flatMap_map] at hconstructs
  rw [List.map_flatMap, List.map_flatMap]
  exact hconstructs

end Contents

/-- With the empty group in the place of a construct that is left out, the pattern is read as before,
but for two symbols in the place of the empty atom. -/
theorem Dropped.reread {pattern : Text} {w : Warning} (h : Dropped pattern w)
    (hflaw : (readSymbols 0 pattern).flaw = none) :
    ∃ before construct after, pattern = before ++ construct ++ after ∧
      Text.byteLength before = w.offset ∧
      foreignAt? (construct ++ after) = some (w.construct, construct.length) ∧
      ∃ ps qs ps' group qs' : List PlacedSymbol,
        (readSymbols 0 pattern).symbols = ps ++ ⟨.atom .empty, w.offset, [w]⟩ :: qs ∧
        readSymbols 0 (before ++ emptyGroup ++ after) = ⟨ps' ++ (group ++ qs'), none⟩ ∧
        ps'.map (·.content) = ps.map (·.content) ∧ qs'.map (·.content) = qs.map (·.content) ∧
        group.map (·.symbol) = [.opening .nonCapturing, .closing] ∧
        ∀ p ∈ group, p.warnings = [] := by
  obtain ⟨ps, t, n, hreads, hfound, htail⟩ := h.reads
  obtain ⟨before, rfl, hoffset, helsewhere⟩ := hreads.elsewhere (opens_of_foreignAt hfound)
  obtain ⟨ps', hreads', hbefore⟩ := helsewhere (emptyGroup ++ t.drop n) (.inl rfl)
  obtain ⟨group, hgroup, hsilent, hread'⟩ := readSymbols_emptyGroup w.offset (t.drop n)
  have hread := hreads.readSymbols_eq
  rw [htail] at hread
  rw [hread] at hflaw
  obtain ⟨hflaw', hbehind⟩ := readSymbols_moved (w.offset + Text.byteLength emptyGroup) hflaw
  have hlength : (t.take n).length = n := by
    rw [List.length_take, Nat.min_eq_left (length_of_foreignAt hfound).2]
  refine ⟨before, t.take n, t.drop n, ?_, ?_, ?_, ps, _, ps', group, _, ?_, ?_, hbefore, hbehind,
    hgroup, hsilent⟩
  · rw [List.append_assoc, List.take_append_drop]
  · rw [hoffset, Nat.zero_add]
  · rw [List.take_append_drop, hlength, hfound]
  · rw [hread]
  · rw [List.append_assoc, hreads'.readSymbols_eq, hread']
    dsimp only
    rw [hflaw']

/-- A foreign construct that is left out as an atom means the empty group. Every warning that is not
about the second mark of a quantifier or about a property in a class has such a construct, and with
`(?:)` in its place the pattern is parsed to the same tree, but for the offsets of its quantifiers,
with the same groups and the other warnings. -/
theorem parse_dropped {pattern : Text} {parsed : Parsed} (h : parse pattern = .ok parsed) :
    (∀ w ∈ parsed.warnings, Dropped pattern w ∨ w.construct = .possessiveQuantifier ∨
      (w.construct = .unicodeProperty ∧ DroppedInClass pattern w)) ∧
    ∀ w, Dropped pattern w →
      ∃ before construct after, pattern = before ++ construct ++ after ∧
        Text.byteLength before = w.offset ∧
        foreignAt? (construct ++ after) = some (w.construct, construct.length) ∧
        ∃ again, parse (before ++ emptyGroup ++ after) = .ok again ∧
          again.node.unplaced = parsed.node.unplaced ∧ again.groups = parsed.groups ∧
          ∃ ws ws', parsed.warnings = ws ++ w :: ws' ∧
            again.warnings.map (·.construct) = (ws ++ ws').map (·.construct) := by
  obtain ⟨hflaw, s, -, -, hparsed⟩ := parse_ok h
  refine ⟨?_, ?_⟩
  · intro w hw
    rw [hparsed] at hw
    obtain ⟨p, hp, hw⟩ := List.mem_flatMap.mp hw
    exact dropped_or hp hw
  · intro w hdropped
    obtain ⟨before, construct, after, htext, hoffset, hfound, ps, qs, ps', group, qs', hread, hread',
      hbefore, hbehind, hgroup, hsilent⟩ := hdropped.reread hflaw
    have hsymbols : (readSymbols 0 pattern).symbols.map (·.symbol) =
        ps.map (·.symbol) ++ [.atom .empty] ++ qs.map (·.symbol) := by
      rw [hread]
      simp
    have hsymbols' : (readSymbols 0 (before ++ emptyGroup ++ after)).symbols.map (·.symbol) =
        ps.map (·.symbol) ++ [.opening .nonCapturing, .closing] ++ qs.map (·.symbol) := by
      rw [hread', ← symbols_of_content hbefore, ← symbols_of_content hbehind, ← hgroup]
      simp
    obtain ⟨again, hagain, hnode, hgroups, hwarnings⟩ := parse_congr h (by rw [hread'])
      (by rw [openings_eq, openings_eq, hsymbols, hsymbols']; simp [Symbol.capturing])
      (fun total => by rw [hsymbols, hsymbols', run_emptyGroup])
    refine ⟨before, construct, after, htext, hoffset, hfound, again, hagain, hnode, hgroups,
      ps.flatMap (·.warnings), qs.flatMap (·.warnings), ?_, ?_⟩
    · rw [hparsed, hread]
      simp
    · rw [hwarnings, hread']
      simp only [List.flatMap_append, List.map_append, List.flatMap_eq_nil_iff.mpr hsilent,
        List.nil_append, constructs_of_content hbefore, constructs_of_content hbehind]

/-- A lookbehind that hides two groups, a closing parenthesis in a class and one in a name, with a
quantifier behind it. The number escape after it is no back reference with and without it. -/
theorem parse_dropped_lookbehind :
    let pattern := "(é)(?<=[)](b)\\p\x7b)\x7d(c))*\\2[\\p\x7bL\x7dx]++".toList
    ∃ parsed, parse pattern = .ok parsed ∧
      parsed.warnings = [⟨.lookbehind, 4⟩, ⟨.unicodeProperty, 27⟩, ⟨.possessiveQuantifier, 35⟩] ∧
      (∀ w ∈ parsed.warnings, Dropped pattern w ∨ w.construct = .possessiveQuantifier ∨
        (w.construct = .unicodeProperty ∧ DroppedInClass pattern w)) ∧
      ∃ before construct after, pattern = before ++ construct ++ after ∧
        Text.byteLength before = 4 ∧
        foreignAt? (construct ++ after) = some (.lookbehind, construct.length) ∧
        ∃ again, parse (before ++ emptyGroup ++ after) = .ok again ∧
          again.node.unplaced = parsed.node.unplaced ∧ again.groups = parsed.groups ∧
          ∃ ws ws', parsed.warnings = ws ++ ⟨.lookbehind, 4⟩ :: ws' ∧
            again.warnings.map (·.construct) = (ws ++ ws').map (·.construct) := by
  intro pattern
  have hok : ((parse pattern).map (·.warnings)).toOption =
      some [⟨.lookbehind, 4⟩, ⟨.unicodeProperty, 27⟩, ⟨.possessiveQuantifier, 35⟩] := by
    decide +kernel
  obtain ⟨parsed, hparse, hwarnings⟩ := ok_of_map (ok_of_toOption hok)
  obtain ⟨hall, hdropped⟩ := parse_dropped hparse
  refine ⟨parsed, hparse, hwarnings, hall, hdropped ⟨.lookbehind, 4⟩ ?_⟩
  rcases hall ⟨.lookbehind, 4⟩ (by rw [hwarnings]; decide) with h | h | ⟨h, -⟩
  · exact h
  · cases h
  · cases h

end VbaWorkbench.Pattern
