import Mathlib.Data.List.Basic
import VbaWorkbench.Pattern.Machine

namespace VbaWorkbench.Pattern

/-- Where a match stands: its position and the spans of the groups that are set. -/
structure Stand where
  pos : Nat
  captures : Nat → Option (Nat × Nat)

namespace Stand

/-- A match that begins. -/
def initial (pos : Nat) : Stand :=
  ⟨pos, fun _ => none⟩

/-- A group is set when it is left. -/
def capture (group start : Nat) (s : Stand) : Stand :=
  { s with captures := fun g => if g = group then some (start, s.pos) else s.captures g }

def clear (groups : List Nat) (s : Stand) : Stand :=
  { s with captures := fun g => if g ∈ groups then none else s.captures g }

/-- One character that satisfies `p`. -/
def consume (m : Machine) (p : Char → Bool) (s : Stand) : List Stand :=
  if (m.input[s.pos]?).any p then [{ s with pos := s.pos + 1 }] else []

def require (holds : Bool) (s : Stand) : List Stand :=
  if holds then [s] else []

/-- The `n` characters from `start` on stand at `pos` as well. -/
def echoes (m : Machine) (start pos n : Nat) : Bool :=
  (List.range n).all fun i =>
    match m.input[start + i]?, m.input[pos + i]? with
    | some a, some b => m.same a b
    | _, _ => false

/-- The text of a group once more, and the empty text if the group is not set. -/
def repeatGroup (m : Machine) (group : Nat) (s : Stand) : List Stand :=
  match s.captures group with
  | none => [s]
  | some (start, stop) =>
    if echoes m start s.pos (stop - start) then [{ s with pos := s.pos + (stop - start) }] else []

/-- A lookahead whose body matches in these ways takes the first of them or none. It consumes
nothing, and only a positive one keeps captures. -/
def look (negated : Bool) (inside : List Stand) (s : Stand) : List Stand :=
  match negated, inside with
  | false, t :: _ => [{ t with pos := s.pos }]
  | true, [] => [s]
  | _, _ => []

/-- `n` iterations that may be empty. -/
def times (once : Stand → List Stand) : (n : Nat) → Stand → List Stand
  | 0, s => [s]
  | n + 1, s => (once s).flatMap (times once n)

/-- At most `n` more iterations, each of which must consume something. A greedy repetition tries
one more before it leaves, a lazy one after. -/
def upTo (greedy : Bool) (once : Stand → List Stand) : (n : Nat) → Stand → List Stand
  | 0, s => [s]
  | n + 1, s =>
    let more := ((once s).filter fun t => t.pos != s.pos).flatMap (upTo greedy once n)
    if greedy then more ++ [s] else s :: more

end Stand

namespace Node

mutual
/-- The groups inside a node, in the order of their opening parentheses. -/
def groups : Node → List Nat
  | group index body => index :: body.groups
  | lookahead _ body => body.groups
  | repeated _ _ _ _ body => body.groups
  | concat nodes => groupsAll nodes
  | alternate branches => groupsAll branches
  | _ => []

def groupsAll : List Node → List Nat
  | [] => []
  | node :: nodes => node.groups ++ groupsAll nodes
end

/-- How many optional iterations can be told apart from a position on. Each consumes a character,
so without an upper bound there are no more of them than characters are left. -/
def optionalAt (m : Machine) (min : Nat) (max : Option Nat) (pos : Nat) : Nat :=
  match max with
  | none => m.input.size - pos
  | some max => max - min

mutual
/-- The ways in which a node matches from a stand on, the preferred one first. The program of the
machine plays no part in it. -/
def outcomes (m : Machine) : Node → Stand → List Stand
  | empty, s => [s]
  | char d, s => s.consume m (m.same · d)
  | any, s => s.consume m (!isLineTerminator ·)
  | charClass cls, s => s.consume m (cls.accepts m.ignoreCase)
  | lineStart, s => s.require (m.atLineStart s.pos)
  | lineEnd, s => s.require (m.atLineEnd s.pos)
  | wordBoundary negated, s => s.require (m.atWordBoundary s.pos != negated)
  | backref n, s => s.repeatGroup m n
  | group index body, s => (body.outcomes m s).map (·.capture index s.pos)
  | lookahead negated body, s => s.look negated (body.outcomes m s)
  | repeated min max greedy _ body, s =>
    let once (t : Stand) : List Stand := body.outcomes m (t.clear body.groups)
    (Stand.times once min s).flatMap fun t =>
      Stand.upTo greedy once (optionalAt m min max t.pos) t
  | concat nodes, s => outcomesAll m nodes s
  | alternate branches, s => outcomesAny m branches s

/-- The nodes one after the other. -/
def outcomesAll (m : Machine) : List Node → Stand → List Stand
  | [], s => [s]
  | node :: nodes, s => (node.outcomes m s).flatMap (outcomesAll m nodes)

/-- The branches from left to right. -/
def outcomesAny (m : Machine) : List Node → Stand → List Stand
  | [], _ => []
  | node :: nodes, s => node.outcomes m s ++ outcomesAny m nodes s
end

end Node

namespace Stand

/-- A match only moves forward, and only inside the text. -/
def Ahead (m : Machine) (s t : Stand) : Prop :=
  t.pos = s.pos ∨ (s.pos < t.pos ∧ t.pos ≤ m.input.size)

theorem Ahead.refl (m : Machine) (s : Stand) : Ahead m s s :=
  .inl rfl

theorem Ahead.trans {m : Machine} {s t u : Stand} (h : Ahead m s t) (h' : Ahead m t u) :
    Ahead m s u := by
  unfold Ahead at *
  omega

theorem ahead_of_consume {m : Machine} {p : Char → Bool} {s t : Stand}
    (h : t ∈ s.consume m p) : Ahead m s t := by
  unfold consume at h
  split at h
  · rename_i hp
    obtain rfl := List.mem_singleton.mp h
    rcases Nat.lt_or_ge s.pos m.input.size with hlt | hge
    · exact .inr ⟨Nat.lt_succ_self _, hlt⟩
    · simp [Array.getElem?_eq_none hge] at hp
  · simp at h

theorem ahead_of_require {m : Machine} {holds : Bool} {s t : Stand}
    (h : t ∈ s.require holds) : Ahead m s t := by
  unfold require at h
  split at h
  · obtain rfl := List.mem_singleton.mp h
    exact .refl m t
  · simp at h

/-- An echo lies inside the text. -/
theorem echoes_bound {m : Machine} {start pos n : Nat} (h : echoes m start pos (n + 1) = true) :
    pos + (n + 1) ≤ m.input.size := by
  have hn := List.all_eq_true.mp h n (by simp)
  rcases Nat.lt_or_ge (pos + n) m.input.size with hlt | hge
  · exact hlt
  · simp [Array.getElem?_eq_none hge] at hn

theorem ahead_of_repeatGroup {m : Machine} {group : Nat} {s t : Stand}
    (h : t ∈ s.repeatGroup m group) : Ahead m s t := by
  unfold repeatGroup at h
  split at h
  · obtain rfl := List.mem_singleton.mp h
    exact .refl m t
  · rename_i start stop _
    split at h
    · rename_i he
      obtain rfl := List.mem_singleton.mp h
      cases hn : stop - start with
      | zero => exact .inl (by simp)
      | succ n =>
        rw [hn] at he
        exact .inr ⟨by simp, echoes_bound he⟩
    · simp at h

theorem ahead_of_look {m : Machine} {negated : Bool} {inside : List Stand} {s t : Stand}
    (h : t ∈ s.look negated inside) : Ahead m s t := by
  unfold look at h
  split at h
  · obtain rfl := List.mem_singleton.mp h
    exact .inl rfl
  · obtain rfl := List.mem_singleton.mp h
    exact .refl m t
  · simp at h

/-- What one iteration keeps, any number of them keep. -/
theorem times_keeps {once : Stand → List Stand} {P : Stand → Prop}
    (hb : ∀ s t, t ∈ once s → P s → P t) (n : Nat) (s t : Stand) (h : t ∈ times once n s)
    (hs : P s) : P t := by
  induction n generalizing s with
  | zero =>
    obtain rfl := List.mem_singleton.mp h
    exact hs
  | succ n ih =>
    obtain ⟨u, hu, ht⟩ := List.mem_flatMap.mp h
    exact ih u ht (hb s u hu hs)

theorem upTo_keeps {greedy : Bool} {once : Stand → List Stand} {P : Stand → Prop}
    (hb : ∀ s t, t ∈ once s → P s → P t) (n : Nat) (s t : Stand)
    (h : t ∈ upTo greedy once n s) (hs : P s) : P t := by
  induction n generalizing s with
  | zero =>
    obtain rfl := List.mem_singleton.mp h
    exact hs
  | succ n ih =>
    have hmore : t = s ∨ t ∈ ((once s).filter fun t => t.pos != s.pos).flatMap
        (upTo greedy once n) := by
      unfold upTo at h
      cases greedy <;> simpa [or_comm] using h
    rcases hmore with rfl | hmore
    · exact hs
    · obtain ⟨u, hu, ht⟩ := List.mem_flatMap.mp hmore
      exact ih u ht (hb s u (List.mem_filter.mp hu).1 hs)

theorem ahead_of_progress {m : Machine} {once : Stand → List Stand}
    (hb : ∀ s t, t ∈ once s → Ahead m s t) {s t : Stand}
    (ht : t ∈ (once s).filter fun t => t.pos != s.pos) :
    t ∈ once s ∧ s.pos < t.pos ∧ t.pos ≤ m.input.size := by
  obtain ⟨hm, hne⟩ := List.mem_filter.mp ht
  have hpos := hb s t hm
  have hne : t.pos ≠ s.pos := by simpa using hne
  unfold Ahead at hpos
  exact ⟨hm, by omega⟩

/-- Where no character is left, no iteration can consume one. -/
theorem no_progress {m : Machine} {once : Stand → List Stand}
    (hb : ∀ s t, t ∈ once s → Ahead m s t) {s : Stand} (hs : m.input.size ≤ s.pos) :
    ((once s).filter fun t => t.pos != s.pos) = [] := by
  apply List.eq_nil_iff_forall_not_mem.mpr
  intro t ht
  have := ahead_of_progress hb ht
  omega

/-- Iterations beyond the number of characters that are left change nothing. -/
theorem upTo_saturated {m : Machine} {greedy : Bool} {once : Stand → List Stand}
    (hb : ∀ s t, t ∈ once s → Ahead m s t) (n k : Nat) (s : Stand)
    (hn : m.input.size - s.pos ≤ n) (hk : m.input.size - s.pos ≤ k) :
    upTo greedy once n s = upTo greedy once k s := by
  induction n generalizing k s with
  | zero =>
    cases k with
    | zero => rfl
    | succ k => simp [upTo, no_progress hb (show m.input.size ≤ s.pos by omega)]
  | succ n ih =>
    cases k with
    | zero => simp [upTo, no_progress hb (show m.input.size ≤ s.pos by omega)]
    | succ k =>
      have hmore : ((once s).filter fun t => t.pos != s.pos).flatMap (upTo greedy once n) =
          ((once s).filter fun t => t.pos != s.pos).flatMap (upTo greedy once k) := by
        apply List.flatMap_congr
        intro t ht
        have := ahead_of_progress hb ht
        exact ih k t (by omega) (by omega)
      simp only [upTo, hmore]

/-- A repetition without an upper bound is an iteration followed by such a repetition, or
nothing. -/
theorem upTo_unbounded {m : Machine} {greedy : Bool} {once : Stand → List Stand}
    (hb : ∀ s t, t ∈ once s → Ahead m s t) (s : Stand) :
    upTo greedy once (m.input.size - s.pos) s =
      let more := ((once s).filter fun t => t.pos != s.pos).flatMap fun t =>
        upTo greedy once (m.input.size - t.pos) t
      if greedy then more ++ [s] else s :: more := by
  rw [upTo_saturated hb _ (m.input.size - s.pos + 1) s (Nat.le_refl _) (Nat.le_succ _)]
  have hmore : ((once s).filter fun t => t.pos != s.pos).flatMap
        (upTo greedy once (m.input.size - s.pos)) =
      ((once s).filter fun t => t.pos != s.pos).flatMap fun t =>
        upTo greedy once (m.input.size - t.pos) t := by
    apply List.flatMap_congr
    intro t ht
    have := ahead_of_progress hb ht
    exact upTo_saturated hb _ _ t (by omega) (Nat.le_refl _)
  simp only [upTo, hmore]

end Stand

namespace Node

mutual
theorem outcomes_ahead (m : Machine) (node : Node) (s t : Stand) (h : t ∈ node.outcomes m s) :
    Stand.Ahead m s t := by
  match node with
  | empty =>
    obtain rfl := List.mem_singleton.mp h
    exact .refl m t
  | char _ | any | charClass _ => exact Stand.ahead_of_consume h
  | lineStart | lineEnd | wordBoundary _ => exact Stand.ahead_of_require h
  | backref _ => exact Stand.ahead_of_repeatGroup h
  | .group index body =>
    obtain ⟨u, hu, rfl⟩ := List.mem_map.mp h
    exact outcomes_ahead m body s u hu
  | lookahead _ _ => exact Stand.ahead_of_look h
  | repeated min max greedy offset body =>
    have hb : ∀ u t, t ∈ body.outcomes m (u.clear body.groups) → Stand.Ahead m s u →
        Stand.Ahead m s t :=
      fun u t ht hu => hu.trans (outcomes_ahead m body (u.clear body.groups) t ht)
    obtain ⟨u, hu, ht⟩ := List.mem_flatMap.mp h
    exact Stand.upTo_keeps hb _ u t ht (Stand.times_keeps hb min s u hu (.refl m s))
  | concat nodes => exact outcomesAll_ahead m nodes s t h
  | alternate branches => exact outcomesAny_ahead m branches s t h

theorem outcomesAll_ahead (m : Machine) (nodes : List Node) (s t : Stand)
    (h : t ∈ outcomesAll m nodes s) : Stand.Ahead m s t := by
  match nodes with
  | [] =>
    obtain rfl := List.mem_singleton.mp h
    exact .refl m t
  | node :: nodes =>
    obtain ⟨u, hu, ht⟩ := List.mem_flatMap.mp h
    exact (outcomes_ahead m node s u hu).trans (outcomesAll_ahead m nodes u t ht)

theorem outcomesAny_ahead (m : Machine) (branches : List Node) (s t : Stand)
    (h : t ∈ outcomesAny m branches s) : Stand.Ahead m s t := by
  match branches with
  | [] => simp [outcomesAny] at h
  | node :: nodes =>
    rcases List.mem_append.mp h with h | h
    · exact outcomes_ahead m node s t h
    · exact outcomesAny_ahead m nodes s t h
end

/-- One iteration of a body. -/
def once (m : Machine) (body : Node) (s : Stand) : List Stand :=
  body.outcomes m (s.clear body.groups)

/-- One iteration that consumes something. -/
def advance (m : Machine) (body : Node) (s : Stand) : List Stand :=
  (body.once m s).filter fun t => t.pos != s.pos

/-- One iteration of a body moves forward. -/
theorem once_ahead (m : Machine) (body : Node) (s t : Stand) (h : t ∈ body.once m s) :
    Stand.Ahead m s t :=
  outcomes_ahead m body (s.clear body.groups) t h

end Node
end VbaWorkbench.Pattern
