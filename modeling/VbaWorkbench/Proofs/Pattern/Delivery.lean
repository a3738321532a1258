import VbaWorkbench.Proofs.Pattern.Outcomes
import VbaWorkbench.Proofs.Pattern.Undo

namespace VbaWorkbench.Pattern

namespace Machine

/-- Any number of instructions lead from one outcome to the other. -/
inductive Reaches (m : Machine) : Outcome → Outcome → Prop
  | refl (o : Outcome) : Reaches m o o
  | step (c : Config) (o : Outcome) : Reaches m (m.step c) o → Reaches m (.running c) o

theorem Reaches.trans {m : Machine} {o o' o'' : Outcome} (h : m.Reaches o o')
    (h' : m.Reaches o' o'') : m.Reaches o o'' := by
  induction h with
  | refl o => exact h'
  | step c o _ ih => exact .step c o'' (ih h')

theorem Reaches.once {m : Machine} {c : Config} {o : Outcome} (h : m.step c = o) :
    m.Reaches (.running c) o :=
  .step c o (h ▸ .refl _)

end Machine

/-- A configuration stands where a match of the tree stands. -/
structure Shows (c : Config) (s : Stand) : Prop where
  pos : c.pos = s.pos
  captures : ∀ g, Machine.captured? c.slots g = s.captures g

/-- A piece of code that began at `c` and is left at `exit` yields the stands one after the other:
it gets to the first, and whatever fails after that brings the next. At last it fails as `c` itself
does. -/
inductive Delivers (m : Machine) (exit : Nat) (f : Footprint) (c : Config) :
    Outcome → List Stand → Prop
  | none (o : Outcome) : m.Reaches o c.fail → Delivers m exit f c o []
  | some (o : Outcome) (c' : Config) (s : Stand) (ss : List Stand) :
      m.Reaches o (.running c') → c'.pc = exit → Shows c' s → c.Extends f c' →
      Delivers m exit f c c'.fail ss → Delivers m exit f c o (s :: ss)

namespace Delivers

variable {m : Machine} {exit mid : Nat} {f f' : Footprint} {c c' : Config} {o o' : Outcome}
  {s : Stand} {ss ts : List Stand}

theorem of_reaches (hr : m.Reaches o o') (h : Delivers m exit f c o' ss) :
    Delivers m exit f c o ss := by
  cases h with
  | none _ hf => exact .none o (hr.trans hf)
  | some _ c' s ss hc hpc hs hx hrest => exact .some o c' s ss (hr.trans hc) hpc hs hx hrest

theorem mono (hf : f.Le f') (h : Delivers m exit f c o ss) : Delivers m exit f' c o ss := by
  induction h with
  | none o hr => exact .none o hr
  | some o c' s ss hr hpc hs hx _ ih => exact .some o c' s ss hr hpc hs (hx.mono hf) ih

/-- After the last stand of a piece that began later, the outer piece goes on. -/
theorem append (hx : c.Extends f c') (h : Delivers m exit f c' o ss)
    (hrest : Delivers m exit f c c'.fail ts) : Delivers m exit f c o (ss ++ ts) := by
  induction h with
  | none o hr => exact hrest.of_reaches hr
  | some o c'' s ss hr hpc hs hx' _ ih => exact .some o c'' s (ss ++ ts) hr hpc hs (hx.trans hx') ih

/-- A piece that began after some writes is one that began before them. -/
theorem rebase (hx : c.Extends f c') (hfail : c'.fail = c.fail) (h : Delivers m exit f c' o ss) :
    Delivers m exit f c o ss := by
  have hrest : Delivers m exit f c c'.fail [] := .none _ (hfail ▸ .refl _)
  simpa using h.append hx hrest

theorem single (hr : m.Reaches o (.running c')) (hpc : c'.pc = exit) (hs : Shows c' s)
    (hx : c.Extends f c') (hfail : c'.fail = c.fail) : Delivers m exit f c o [s] :=
  .some o c' s [] hr hpc hs hx (.none _ (hfail ▸ .refl _))

/-- Two pieces one after the other. The second may write more than the first. -/
theorem bind {k : Stand → List Stand} (hf : f.Le f') (h : Delivers m mid f c o ss)
    (hk : ∀ c' s, s ∈ ss → c.Extends f c' → c'.pc = mid → Shows c' s →
      Delivers m exit f' c' (.running c') (k s)) :
    Delivers m exit f' c o (ss.flatMap k) := by
  induction h with
  | none o hr => exact .none o hr
  | some o c' s ss hr hpc hs hx _ ih =>
    have hrest := ih fun c'' t ht => hk c'' t (by simp [ht])
    exact .of_reaches hr ((hk c' s (by simp) hx hpc hs).append (hx.mono hf) hrest)

/-- A piece that is left by a jump. -/
theorem jump (h : Delivers m mid f c o ss)
    (hj : ∀ c' : Config, c'.pc = mid → m.step c' = .running { c' with pc := exit }) :
    Delivers m exit f c o ss := by
  induction h with
  | none o hr => exact .none o hr
  | some o c' s ss hr hpc hs hx _ ih =>
    have hj' : m.Reaches o (.running { c' with pc := exit }) := hr.trans (.once (hj c' hpc))
    exact .some o { c' with pc := exit } s ss hj' rfl ⟨hs.pos, hs.captures⟩ hx ih

end Delivers
end VbaWorkbench.Pattern
