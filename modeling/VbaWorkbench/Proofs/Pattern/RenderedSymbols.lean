import VbaWorkbench.Proofs.Pattern.SymbolText

namespace VbaWorkbench.Pattern

/-- The symbols of a node in a group of its own if need be. -/
def groupedSymbols (needed : Bool) (symbols : List Symbol) : List Symbol :=
  if needed then .opening .nonCapturing :: symbols ++ [.closing] else symbols

namespace Node

mutual
/-- The symbols of the canonical text of a node. -/
def symbols : Node → List Symbol
  | empty => []
  | group _ body => .opening .capturing :: body.symbols ++ [.closing]
  | lookahead negated body => .opening (.lookahead negated) :: body.symbols ++ [.closing]
  | repeated min max greedy _ body =>
    groupedSymbols (Context.repeated.groups body) body.symbols ++ [.quantifier min max greedy]
  | concat nodes => itemSymbols nodes
  | alternate branches => branchSymbols branches
  | backref n => groupedSymbols true [.number (Text.ofNat n)]
  | node => [.atom node]

def itemSymbols : List Node → List Symbol
  | [] => []
  | node :: nodes => groupedSymbols (Context.item.groups node) node.symbols ++ itemSymbols nodes

def branchSymbols : List Node → List Symbol
  | [] => []
  | [node] => groupedSymbols (Context.branch.groups node) node.symbols
  | node :: nodes =>
    groupedSymbols (Context.branch.groups node) node.symbols ++ .bar :: branchSymbols nodes
end

end Node

/-- A text is read as symbols when another text follows, without warnings. -/
def Spells (t : Text) (symbols : List Symbol) (rest : Text) : Prop :=
  ∀ offset, ∃ ps : List PlacedSymbol, ps.map (·.symbol) = symbols ∧ (∀ p ∈ ps, p.warnings = []) ∧
    readSymbols offset (t ++ rest) =
      let more := readSymbols (offset + Text.byteLength t) rest
      ⟨ps ++ more.symbols, more.flaw⟩

namespace Calm

variable {t rest : Text}

theorem nil : Calm [] := by
  simp [Calm]

theorem append (h : Calm t) (hrest : Calm rest) : Calm (t ++ rest) := by
  cases t with
  | nil => exact hrest
  | cons c t => exact h

end Calm

theorem calm_cons {c : Char} (h : c ≠ '?' ∧ c ≠ '+') (t : Text) : Calm (c :: t) := by
  rintro _ ⟨⟩
  exact h

namespace Spells

variable {t u rest : Text} {ss ss' : List Symbol} {s : Symbol}

theorem nil (rest : Text) : Spells [] [] rest :=
  fun _ => ⟨[], rfl, by simp, rfl⟩

theorem append (h : Spells t ss (u ++ rest)) (h' : Spells u ss' rest) :
    Spells (t ++ u) (ss ++ ss') rest := by
  intro offset
  obtain ⟨ps, hps, hwarn, hread⟩ := h offset
  obtain ⟨qs, hqs, hwarn', hread'⟩ := h' (offset + Text.byteLength t)
  refine ⟨ps ++ qs, by rw [List.map_append, hps, hqs], List.forall_mem_append.mpr ⟨hwarn, hwarn'⟩, ?_⟩
  rw [List.append_assoc, hread, hread', Text.byteLength_append, Nat.add_assoc]
  simp only [List.append_assoc]

theorem one {c : Char} {cs : Text}
    (h : ∀ offset, readSymbol offset c (cs ++ rest) = .ok ⟨s, [], cs.length + 1⟩) :
    Spells (c :: cs) [s] rest := by
  intro offset
  refine ⟨[⟨s, offset, []⟩], rfl, by simp, ?_⟩
  rw [List.cons_append, readSymbols, h]
  simp only [Nat.add_sub_cancel, List.take_left, List.drop_left]
  rfl

theorem bar (rest : Text) : Spells ['|'] [.bar] rest :=
  one fun _ => rfl

theorem opening (kind : GroupKind) (h : rest.head? ≠ some '?') :
    Spells kind.render [.opening kind] rest := by
  obtain ⟨cs, hcs, hread⟩ := readSymbol_opening kind h
  rw [hcs]
  exact one hread

theorem group (kind : GroupKind) (hcalm : Calm t) (h : Spells t ss (')' :: rest)) :
    Spells (kind.render ++ t ++ [')']) (.opening kind :: ss ++ [.closing]) rest := by
  have hhead : (t ++ [')'] ++ rest).head? ≠ some '?' := by
    rw [List.append_assoc]
    exact fun hhead => (hcalm.append (calm_cons (by decide) rest) '?' hhead).1 rfl
  have hclosing : Spells [')'] [.closing] rest := one fun _ => rfl
  have hall := (opening kind hhead).append (h.append hclosing)
  rwa [← List.append_assoc] at hall

theorem grouped (needed : Bool) (hcalm : Calm t) (h : ∀ rest, Calm rest → Spells t ss rest)
    (hrest : Calm rest) : Spells (grouped needed t) (groupedSymbols needed ss) rest := by
  cases needed with
  | true => exact group .nonCapturing hcalm (h _ (calm_cons (by decide) rest))
  | false => exact h rest hrest

theorem char (c : Char) (rest : Text) : Spells (escaped isMeta c) [.atom (.char c)] rest := by
  unfold escaped
  split
  · rename_i hc
    exact one fun offset => readEscape_meta hc offset rest
  · rename_i hc
    exact one fun offset => readSymbol_char (by simpa using hc) offset rest

theorem number {n : Nat} (h : 1 ≤ n) (rest : Text) :
    Spells ('\\' :: Text.ofNat n) [.number (Text.ofNat n)] (')' :: rest) :=
  one fun offset => readSymbol_number h offset rfl rest

end Spells

theorem calm_grouped (needed : Bool) {t : Text} (h : Calm t) : Calm (grouped needed t) := by
  cases needed with
  | true => exact calm_cons (by decide) _
  | false => exact h

namespace Node

mutual
/-- A node begins with nothing that could belong to what stands before it. -/
theorem calm_render (node : Node) : Calm node.render := by
  match node with
  | .empty => exact Calm.nil
  | char c =>
    rw [render]
    unfold escaped
    split
    · exact calm_cons (by decide) _
    · rename_i hc
      exact calm_cons ⟨by rintro rfl; exact hc rfl, by rintro rfl; exact hc rfl⟩ _
  | any | charClass _ | lineStart | lineEnd | wordBoundary _ | .group _ _ | lookahead _ _
  | backref _ => exact calm_cons (by decide) _
  | repeated min max greedy offset body =>
    exact (calm_grouped _ (calm_render body)).append (calm_cons (by decide) _)
  | concat nodes => exact calm_renderItems nodes
  | alternate branches => exact calm_renderBranches branches

theorem calm_renderItems (nodes : List Node) : Calm (renderItems nodes) := by
  match nodes with
  | [] => exact Calm.nil
  | node :: nodes =>
    exact (calm_grouped _ (calm_render node)).append (calm_renderItems nodes)

theorem calm_renderBranches (branches : List Node) : Calm (renderBranches branches) := by
  match branches with
  | [] => exact Calm.nil
  | [node] => exact calm_grouped _ (calm_render node)
  | node :: next :: nodes =>
    exact (calm_grouped _ (calm_render node)).append (calm_cons (by decide) _)
end

variable {total : Nat}

mutual
-- What follows has to be calm for the sake of a quantifier at the end. In a group a parenthesis
-- follows, and behind an item the next one or a bar, which `calm_render` takes care of.
/-- The canonical text of a sound node is read as the symbols of the node. -/
theorem spells_render (node : Node) (h : node.AllSound total) {rest : Text} (hrest : Calm rest) :
    Spells node.render node.symbols rest := by
  obtain ⟨hnode, hbody⟩ := allSound_iff.mp h
  match node with
  | .empty => exact .nil rest
  | char c => exact .char c rest
  | any | lineStart | lineEnd => exact .one fun _ => rfl
  | wordBoundary negated => cases negated <;> exact .one fun _ => rfl
  | charClass cls =>
    obtain ⟨cs, hcs, hread⟩ := readSymbol_class hnode rest
    rw [render, hcs]
    exact .one hread
  | .group index body =>
    exact .group .capturing (calm_render body)
      (spells_render body hbody (calm_cons (by decide) rest))
  | lookahead negated body =>
    exact .group (.lookahead negated) (calm_render body)
      (spells_render body hbody (calm_cons (by decide) rest))
  | repeated min max greedy offset body =>
    obtain ⟨cs, hcs, hread⟩ := readSymbol_bounds hnode greedy hrest
    have hbounds : Spells (renderBounds min max greedy) [.quantifier min max greedy] rest := by
      rw [hcs]
      exact .one hread
    refine (Spells.grouped _ (calm_render body) (fun _ => spells_render body hbody) ?_).append
      hbounds
    rw [hcs]
    exact calm_cons (by decide) _
  | concat nodes => exact spells_renderItems nodes hbody hrest
  | alternate branches => exact spells_renderBranches branches hbody hrest
  | backref n =>
    -- The parenthesis keeps the number apart from a digit that follows.
    exact .group .nonCapturing (calm_cons (by decide) _) (.number hnode.1 rest)

theorem spells_renderItems (nodes : List Node) (h : ∀ sub ∈ subtreesAll nodes, sub.Sound total)
    {rest : Text} (hrest : Calm rest) : Spells (renderItems nodes) (itemSymbols nodes) rest := by
  match nodes with
  | [] => exact .nil rest
  | node :: nodes =>
    obtain ⟨hn, hns⟩ := List.forall_mem_append.mp h
    exact (Spells.grouped _ (calm_render node) (fun _ => spells_render node hn)
      ((calm_renderItems nodes).append hrest)).append (spells_renderItems nodes hns hrest)

theorem spells_renderBranches (branches : List Node)
    (h : ∀ sub ∈ subtreesAll branches, sub.Sound total) {rest : Text} (hrest : Calm rest) :
    Spells (renderBranches branches) (branchSymbols branches) rest := by
  match branches with
  | [] => exact .nil rest
  | [node] =>
    exact .grouped _ (calm_render node)
      (fun _ => spells_render node (List.forall_mem_append.mp h).1) hrest
  | node :: next :: nodes =>
    obtain ⟨hn, hns⟩ := List.forall_mem_append.mp h
    refine (Spells.grouped _ (calm_render node) (fun _ => spells_render node hn) ?_).append
      ((Spells.bar _).append (spells_renderBranches (next :: nodes) hns hrest))
    exact calm_cons (by decide) _
end

end Node
end VbaWorkbench.Pattern
