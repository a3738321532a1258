import VbaWorkbench.Pattern.Machine

namespace VbaWorkbench.Pattern

/-- What a piece of code may write: the slots of some groups, and the marks from `firstMark` on
and below `stopMark`. -/
structure Footprint where
  groups : List Nat
  firstMark : Nat
  stopMark : Nat

def Footprint.Le (f f' : Footprint) : Prop :=
  (∀ g ∈ f.groups, g ∈ f'.groups) ∧ f'.firstMark ≤ f.firstMark ∧ f.stopMark ≤ f'.stopMark

theorem Footprint.Le.marks {groups : List Nat} {first stop first' stop' : Nat}
    (hl : first' ≤ first) (hr : stop ≤ stop') :
    Footprint.Le ⟨groups, first, stop⟩ ⟨groups, first', stop'⟩ :=
  ⟨fun _ hg => hg, hl, hr⟩

/-- A choice of such a piece of code, or the record of one of its writes. A lookahead that is still
running belongs to no piece. -/
def Entry.Within (f : Footprint) : Entry → Prop
  | .choice _ _ => True
  | .slot index _ => index / 2 ∈ f.groups
  | .mark index _ => f.firstMark ≤ index ∧ index < f.stopMark
  | .lookahead _ _ _ => False

theorem Entry.Within.mono {f f' : Footprint} (hf : f.Le f') {e : Entry} (h : e.Within f) :
    e.Within f' := by
  obtain ⟨hg, hl, hr⟩ := hf
  cases e with
  | choice => trivial
  | slot => exact hg _ h
  | mark => exact ⟨Nat.le_trans hl h.1, Nat.lt_of_lt_of_le h.2 hr⟩
  | lookahead => exact h

/-- The slots and marks before the writes that the entries record. -/
def unwind : List Entry → Array (Option Nat) × Array Nat → Array (Option Nat) × Array Nat
  | [], w => w
  | .slot index old :: es, (slots, marks) => unwind es (slots.setIfInBounds index old, marks)
  | .mark index old :: es, (slots, marks) => unwind es (slots, marks.setIfInBounds index old)
  | .choice _ _ :: es, w => unwind es w
  | .lookahead _ _ _ :: es, w => unwind es w

theorem unwind_append (es fs : List Entry) (w : Array (Option Nat) × Array Nat) :
    unwind (es ++ fs) w = unwind fs (unwind es w) := by
  induction es generalizing w with
  | nil => rfl
  | cons e es ih => cases e <;> simp only [List.cons_append, unwind, ih]

/-- Choices record no writes. -/
theorem unwind_writes (es : List Entry) (w : Array (Option Nat) × Array Nat) :
    unwind (es.filter (!·.isChoice)) w = unwind es w := by
  induction es generalizing w with
  | nil => rfl
  | cons e es ih =>
    obtain ⟨slots, marks⟩ := w
    cases e with
    | choice => exact ih (slots, marks)
    | slot index old => exact ih (slots.setIfInBounds index old, marks)
    | mark index old => exact ih (slots, marks.setIfInBounds index old)
    | lookahead => exact ih (slots, marks)

/-- Without a choice or a lookahead on its way, backtracking undoes the writes and goes on. -/
theorem backtrack_append (es stack : List Entry) (slots : Array (Option Nat)) (marks : Array Nat)
    (h : ∀ e ∈ es, e.isChoice = false ∧ e.isLookahead = false) :
    Config.backtrack slots marks (es ++ stack) =
      Config.backtrack (unwind es (slots, marks)).1 (unwind es (slots, marks)).2 stack := by
  induction es generalizing slots marks with
  | nil => rfl
  | cons e es ih =>
    have he := h e (by simp)
    have hes : ∀ e ∈ es, e.isChoice = false ∧ e.isLookahead = false :=
      fun e' hm => h e' (by simp [hm])
    cases e with
    | choice => simp [Entry.isChoice] at he
    | lookahead => simp [Entry.isLookahead] at he
    | slot index old => exact ih _ _ hes
    | mark index old => exact ih _ _ hes

/-- Undoing the writes of a piece of code leaves everything outside its footprint as it is. -/
theorem unwind_frame {f : Footprint} {es : List Entry} (h : ∀ e ∈ es, e.Within f)
    (w : Array (Option Nat) × Array Nat) :
    (unwind es w).1.size = w.1.size ∧ (unwind es w).2.size = w.2.size ∧
      (∀ k, k / 2 ∉ f.groups → (unwind es w).1[k]? = w.1[k]?) ∧
      (∀ k, k < f.firstMark ∨ f.stopMark ≤ k → (unwind es w).2[k]? = w.2[k]?) := by
  induction es generalizing w with
  | nil => exact ⟨rfl, rfl, fun _ _ => rfl, fun _ _ => rfl⟩
  | cons e es ih =>
    have hes : ∀ e ∈ es, e.Within f := fun e' hm => h e' (by simp [hm])
    have he := h e (by simp)
    obtain ⟨slots, marks⟩ := w
    cases e with
    | choice => exact ih hes _
    | lookahead => exact he.elim
    | slot index old =>
      obtain ⟨hs, hm, hks, hkm⟩ := ih hes (slots.setIfInBounds index old, marks)
      simp only [unwind]
      refine ⟨by simpa using hs, hm, ?_, hkm⟩
      intro k hk
      have hne : index ≠ k := by
        rintro rfl
        exact hk he
      simpa [Array.getElem?_setIfInBounds_ne hne] using hks k hk
    | mark index old =>
      obtain ⟨hs, hm, hks, hkm⟩ := ih hes (slots, marks.setIfInBounds index old)
      simp only [unwind]
      refine ⟨hs, by simpa using hm, hks, ?_⟩
      intro k hk
      have hne : index ≠ k := by
        rintro rfl
        obtain ⟨hl, hr⟩ := he
        omega
      simpa [Array.getElem?_setIfInBounds_ne hne] using hkm k hk

namespace Config

/-- Writing the old value again after a write restores the slots. -/
theorem slots_restored (slots : Array (Option Nat)) (index : Nat) (value : Option Nat) :
    (slots.setIfInBounds index value).setIfInBounds index (slots[index]?).join = slots := by
  apply Array.ext_getElem?
  intro k
  by_cases hk : index = k
  · subst hk
    by_cases hlt : index < slots.size <;> simp [hlt]
  · simp [Array.getElem?_setIfInBounds_ne hk]

theorem marks_restored (marks : Array Nat) (index value : Nat) :
    (marks.setIfInBounds index value).setIfInBounds index ((marks[index]?).getD 0) = marks := by
  apply Array.ext_getElem?
  intro k
  by_cases hk : index = k
  · subst hk
    by_cases hlt : index < marks.size <;> simp [hlt]
  · simp [Array.getElem?_setIfInBounds_ne hk]

/-- A run of `c'` inside a piece of code that began at `c`: the entries above the old stack undo
what was written since. -/
def Extends (f : Footprint) (c c' : Config) : Prop :=
  ∃ es, c'.stack = es ++ c.stack ∧ (∀ e ∈ es, e.Within f) ∧
    unwind es (c'.slots, c'.marks) = (c.slots, c.marks)

theorem Extends.refl (f : Footprint) (c : Config) : Extends f c c :=
  ⟨[], rfl, by simp, rfl⟩

theorem Extends.trans {f : Footprint} {c c' c'' : Config} (h : Extends f c c')
    (h' : Extends f c' c'') : Extends f c c'' := by
  obtain ⟨es, hs, hw, hu⟩ := h
  obtain ⟨es', hs', hw', hu'⟩ := h'
  refine ⟨es' ++ es, by rw [hs', hs, List.append_assoc], ?_, by rw [unwind_append, hu', hu]⟩
  intro e he
  rcases List.mem_append.mp he with he | he
  · exact hw' e he
  · exact hw e he

theorem Extends.mono {f f' : Footprint} (hf : f.Le f') {c c' : Config} (h : Extends f c c') :
    Extends f' c c' := by
  obtain ⟨es, hs, hw, hu⟩ := h
  exact ⟨es, hs, fun e he => (hw e he).mono hf, hu⟩

theorem Extends.frame {f : Footprint} {c c' : Config} (h : Extends f c c') :
    c'.slots.size = c.slots.size ∧ c'.marks.size = c.marks.size ∧
      (∀ k, k / 2 ∉ f.groups → c'.slots[k]? = c.slots[k]?) ∧
      (∀ k, k < f.firstMark ∨ f.stopMark ≤ k → c'.marks[k]? = c.marks[k]?) := by
  obtain ⟨es, _, hw, hu⟩ := h
  have hf := unwind_frame hw (c'.slots, c'.marks)
  rw [hu] at hf
  exact ⟨hf.1.symm, hf.2.1.symm, fun k hk => (hf.2.2.1 k hk).symm, fun k hk => (hf.2.2.2 k hk).symm⟩

theorem setSlot_extends {f : Footprint} {index : Nat} (hi : index / 2 ∈ f.groups)
    (value : Option Nat) (c : Config) : c.Extends f (c.setSlot index value) := by
  refine ⟨[.slot index (c.slots[index]?).join], rfl, by simpa [Entry.Within] using hi, ?_⟩
  exact Prod.ext (slots_restored c.slots index value) rfl

/-- A write is undone on the way back. -/
theorem setSlot_fail (index : Nat) (value : Option Nat) (c : Config) :
    (c.setSlot index value).fail = c.fail := by
  change backtrack ((c.slots.setIfInBounds index value).setIfInBounds index
    (c.slots[index]?).join) c.marks c.stack = c.fail
  rw [slots_restored]
  rfl

theorem setMark_extends {f : Footprint} {index : Nat}
    (hi : f.firstMark ≤ index ∧ index < f.stopMark) (c : Config) :
    c.Extends f (c.setMark index) := by
  refine ⟨[.mark index ((c.marks[index]?).getD 0)], rfl, by simpa [Entry.Within] using hi, ?_⟩
  exact Prod.ext rfl (marks_restored c.marks index c.pos)

theorem setMark_fail (index : Nat) (c : Config) : (c.setMark index).fail = c.fail := by
  change backtrack c.slots ((c.marks.setIfInBounds index c.pos).setIfInBounds index
    ((c.marks[index]?).getD 0)) c.stack = c.fail
  rw [marks_restored]
  rfl

theorem clearSlots_extends {f : Footprint} (n : Nat) (index : Nat)
    (hi : ∀ k, index ≤ k → k < index + n → k / 2 ∈ f.groups) (c : Config) :
    c.Extends f (c.clearSlots index n) := by
  induction n generalizing index c with
  | zero => exact .refl f c
  | succ n ih =>
    have hhead := setSlot_extends (hi index (Nat.le_refl _) (by omega)) none c
    exact hhead.trans (ih (index + 1) (fun k hl hr => hi k (by omega) (by omega)) _)

theorem clearSlots_fail (n index : Nat) (c : Config) : (c.clearSlots index n).fail = c.fail := by
  induction n generalizing index c with
  | zero => rfl
  | succ n ih => rw [clearSlots, ih, setSlot_fail]

theorem clearSlots_fields (n index : Nat) (c : Config) :
    (c.clearSlots index n).pc = c.pc ∧ (c.clearSlots index n).pos = c.pos ∧
      (c.clearSlots index n).marks = c.marks := by
  induction n generalizing index c with
  | zero => exact ⟨rfl, rfl, rfl⟩
  | succ n ih => exact ih (index + 1) (c.setSlot index none)

theorem clearSlots_slots (n index : Nat) (c : Config) (k : Nat) (hk : k < c.slots.size) :
    (c.clearSlots index n).slots[k]? =
      if index ≤ k ∧ k < index + n then some none else c.slots[k]? := by
  induction n generalizing index c with
  | zero =>
    rw [if_neg (by omega)]
    rfl
  | succ n ih =>
    have hsize : k < (c.setSlot index none).slots.size := by simpa [setSlot] using hk
    rw [clearSlots, ih (index + 1) _ hsize]
    by_cases he : index = k
    · subst he
      rw [if_neg (by omega), if_pos (by omega)]
      simp [setSlot, hk]
    · have hset : (c.setSlot index none).slots[k]? = c.slots[k]? := by
        simp [setSlot, Array.getElem?_setIfInBounds_ne he]
      rw [hset]
      by_cases hin : index + 1 ≤ k ∧ k < index + 1 + n
      · rw [if_pos hin, if_pos (by omega)]
      · rw [if_neg hin, if_neg (by omega)]

end Config
end VbaWorkbench.Pattern
