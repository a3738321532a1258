import VbaWorkbench.Proofs.Pattern.Restoring

namespace VbaWorkbench.Pattern

/-- Backtracking to this entry stays in the program, the text and the arrays. -/
def Entry.Bounded (m : Machine) : Entry → Prop
  | .choice pc pos => pc < m.program.insts.size ∧ pos ≤ m.input.size
  | .slot index old => index < m.program.slots ∧ ∀ v, old = some v → v ≤ m.input.size
  | .mark index _ => index < m.program.marks
  | .lookahead _ next pos => next < m.program.insts.size ∧ pos ≤ m.input.size

/-- What a configuration holds is in range: a position of the text, slots and marks for the whole
program, positions in the slots, and a stack that can be undone. -/
structure Config.Held (m : Machine) (c : Config) : Prop where
  pos : c.pos ≤ m.input.size
  slots : c.slots.size = m.program.slots
  marks : c.marks.size = m.program.marks
  written : ∀ v, some v ∈ c.slots → v ≤ m.input.size
  stack : ∀ e ∈ c.stack, e.Bounded m

/-- A configuration in range whose next instruction is in the program. -/
structure Config.Bounded (m : Machine) (c : Config) : Prop extends c.Held m where
  pc : c.pc < m.program.insts.size

/-- A configuration that an instruction leads to is in range. -/
def Outcome.Bounded (m : Machine) : Outcome → Prop
  | .running c => c.Bounded m
  | .accepted c => c.Held m
  | .failed => True

namespace Config

variable {m : Machine} {c : Config}

theorem Held.moved (h : c.Held m) {pc : Nat} (hpc : pc < m.program.insts.size) :
    ({ c with pc := pc }).Bounded m :=
  ⟨⟨h.pos, h.slots, h.marks, h.written, h.stack⟩, hpc⟩

theorem Held.slot (h : c.Held m) {index v : Nat} (hv : (c.slots[index]?).join = some v) :
    v ≤ m.input.size :=
  h.written v (Array.mem_of_getElem? (Option.join_eq_some_iff.mp hv))

theorem Held.setSlot (h : c.Held m) {index : Nat} (hi : index < m.program.slots)
    {value : Option Nat} (hv : ∀ v, value = some v → v ≤ m.input.size) :
    (c.setSlot index value).Held m where
  pos := h.pos
  slots := by simpa [Config.setSlot] using h.slots
  marks := h.marks
  written := by
    intro v hm
    rcases Array.mem_or_eq_of_mem_setIfInBounds hm with hm | hm
    · exact h.written v hm
    · exact hv v hm.symm
  stack := List.forall_mem_cons.mpr ⟨⟨hi, fun _ hold => h.slot hold⟩, h.stack⟩

theorem Held.clearSlots (h : c.Held m) {index n : Nat}
    (hi : ∀ k, index ≤ k → k < index + n → k < m.program.slots) :
    (c.clearSlots index n).Held m := by
  induction n generalizing index c with
  | zero => exact h
  | succ n ih =>
    have hset : (c.setSlot index none).Held m :=
      h.setSlot (hi index (Nat.le_refl _) (by omega)) fun _ hv => by cases hv
    exact ih hset fun k hl hr => hi k (by omega) (by omega)

theorem Held.setMark (h : c.Held m) {index : Nat} (hi : index < m.program.marks) :
    (c.setMark index).Held m where
  pos := h.pos
  slots := h.slots
  marks := by simpa [Config.setMark] using h.marks
  written := h.written
  stack := List.forall_mem_cons.mpr ⟨hi, h.stack⟩

/-- Backtracking keeps what the entries on its way keep. -/
theorem backtrack_bounded {slots : Array (Option Nat)} {marks : Array Nat} {stack : List Entry}
    (hs : slots.size = m.program.slots) (hm : marks.size = m.program.marks)
    (hw : ∀ v, some v ∈ slots → v ≤ m.input.size) (he : ∀ e ∈ stack, e.Bounded m) :
    (backtrack slots marks stack).Bounded m := by
  induction stack generalizing slots marks with
  | nil => trivial
  | cons e stack ih =>
    obtain ⟨hhead, htail⟩ := List.forall_mem_cons.mp he
    cases e with
    | choice pc pos => exact ⟨⟨hhead.2, hs, hm, hw, htail⟩, hhead.1⟩
    | slot index old =>
      refine ih (by simpa using hs) hm ?_ htail
      intro v hv
      rcases Array.mem_or_eq_of_mem_setIfInBounds hv with hv | hv
      · exact hw v hv
      · exact hhead.2 v hv.symm
    | mark index old => exact ih hs (by simpa using hm) hw htail
    | lookahead negated next pos =>
      cases negated with
      | true => exact ⟨⟨hhead.2, hs, hm, hw, htail⟩, hhead.1⟩
      | false => exact ih hs hm hw htail

theorem Held.fail (h : c.Held m) : c.fail.Bounded m :=
  backtrack_bounded h.slots h.marks h.written h.stack

theorem Held.leaveLookahead (h : c.Held m) : c.leaveLookahead.Bounded m := by
  unfold Config.leaveLookahead
  dsimp only
  split
  · rename_i negated next pos outside hdrop
    have hrest : ∀ e ∈ .lookahead negated next pos :: outside, e.Bounded m := by
      intro e he
      rw [← hdrop] at he
      exact h.stack e (List.dropWhile_subset _ he)
    obtain ⟨hhead, htail⟩ := List.forall_mem_cons.mp hrest
    have hkept : ∀ e ∈ (c.stack.takeWhile (!·.isLookahead)).filter (!·.isChoice) ++ outside,
        e.Bounded m := by
      refine List.forall_mem_append.mpr ⟨fun e he => ?_, htail⟩
      exact h.stack e (List.takeWhile_subset _ (List.mem_filter.mp he).1)
    cases negated with
    | true => exact backtrack_bounded h.slots h.marks h.written hkept
    | false => exact ⟨⟨hhead.2, h.slots, h.marks, h.written, hkept⟩, hhead.1⟩
  · exact h

end Config

section Steps

variable {m : Machine} {c : Config}

theorem consume_bounded (h : c.Held m) (hnext : c.pc + 1 < m.program.insts.size)
    (p : Char → Bool) : (m.consume p c).Bounded m := by
  unfold Machine.consume
  split
  · rename_i hp
    have hpos : c.pos < m.input.size := by
      rcases Nat.lt_or_ge c.pos m.input.size with hlt | hge
      · exact hlt
      · simp [Array.getElem?_eq_none hge] at hp
    exact ⟨⟨hpos, h.slots, h.marks, h.written, h.stack⟩, hnext⟩
  · exact h.fail

theorem require_bounded (h : c.Held m) (hnext : c.pc + 1 < m.program.insts.size)
    (holds : Bool) : (Machine.require holds c).Bounded m := by
  unfold Machine.require
  split
  · exact h.moved hnext
  · exact h.fail

/-- A repeated text lies in the input. -/
theorem repeats_bound {start pos n : Nat} (h : m.repeats start pos n = true)
    (hpos : pos ≤ m.input.size) : pos + n ≤ m.input.size := by
  cases n with
  | zero => exact hpos
  | succ n =>
    rw [repeats_eq_echoes] at h
    exact Stand.echoes_bound h

theorem backref_bound {group pos : Nat} (h : c.Held m) (hb : m.backref? group c = some pos) :
    pos ≤ m.input.size := by
  unfold Machine.backref? at hb
  split at hb
  · cases hb
    exact h.pos
  · split at hb
    · rename_i hr
      cases hb
      exact repeats_bound hr h.pos
    · cases hb

/-- Each instruction leads from a configuration in range to one in range. -/
theorem step_bounded {node : Node} (hp : m.program.Realizes node) (h : c.Bounded m) :
    (m.step c).Bounded m := by
  have hsize := hp.size_insts
  unfold Machine.step
  cases hinst : m.program.insts[c.pc]? with
  | none => trivial
  | some inst =>
    obtain ⟨hfits, hpc⟩ := hp.inst_fits hinst
    have hinside : ∀ {target}, target ≤ node.size → target < m.program.insts.size := by
      intro target ht
      omega
    have hnext : inst ≠ .accept → c.pc + 1 < m.program.insts.size := by
      intro hne
      have := hpc.resolve_left hne
      omega
    cases inst with
    | char d => exact consume_bounded h.toHeld (hnext nofun) _
    | any => exact consume_bounded h.toHeld (hnext nofun) _
    | charClass cls => exact consume_bounded h.toHeld (hnext nofun) _
    | lineStart => exact require_bounded h.toHeld (hnext nofun) _
    | lineEnd => exact require_bounded h.toHeld (hnext nofun) _
    | wordBoundary negated => exact require_bounded h.toHeld (hnext nofun) _
    | progress index => exact require_bounded h.toHeld (hnext nofun) _
    | split first second =>
      have hstack : ∀ e ∈ .choice second c.pos :: c.stack, e.Bounded m :=
        List.forall_mem_cons.mpr ⟨⟨hinside hfits.2, h.pos⟩, h.stack⟩
      exact ⟨⟨h.pos, h.slots, h.marks, h.written, hstack⟩, hinside hfits.1⟩
    | jump target => exact h.moved (hinside hfits)
    | save slot =>
      have hslot : slot < m.program.slots := by
        have hgroup : slot / 2 ≤ m.program.groups := hfits
        unfold Program.slots
        omega
      have hset : (c.setSlot slot (some c.pos)).Held m :=
        h.setSlot hslot fun v hv => Option.some.inj hv ▸ h.pos
      exact hset.moved (hnext nofun)
    | reset span =>
      have hlast : span.last ≤ m.program.groups := hfits
      have hset : (c.clearSlots (2 * span.first) (2 * (span.last + 1 - span.first))).Held m := by
        refine h.clearSlots fun k hl hr => ?_
        unfold Program.slots
        omega
      refine hset.moved ?_
      rw [(Config.clearSlots_fields _ _ c).1]
      exact hnext nofun
    | mark index => exact (h.setMark hfits).moved (hnext nofun)
    | backref group =>
      dsimp only
      split
      · rename_i pos hb
        exact ⟨⟨backref_bound h.toHeld hb, h.slots, h.marks, h.written, h.stack⟩, hnext nofun⟩
      · exact h.toHeld.fail
    | look negated next =>
      have hstack : ∀ e ∈ .lookahead negated next c.pos :: c.stack, e.Bounded m :=
        List.forall_mem_cons.mpr ⟨⟨hinside hfits, h.pos⟩, h.stack⟩
      exact ⟨⟨h.pos, h.slots, h.marks, h.written, hstack⟩, hnext nofun⟩
    | succeed => exact h.toHeld.leaveLookahead
    | accept => exact h.toHeld

end Steps

/-- The configurations of a machine in the course of evaluations. A run begins at a position of the
text and without captures. Its marks are new, or those that the run before it has left: after a
match as they are, and after a failure with its writes undone. -/
inductive Machine.Visits (m : Machine) : Config → Prop
  | first (start : Nat) : start ≤ m.input.size → Visits m (.starting m.program m.newMarks start)
  | matched (c c' : Config) (start : Nat) : Visits m c → m.step c = .accepted c' →
      start ≤ m.input.size → Visits m (.starting m.program c'.marks start)
  | failed (c : Config) (start : Nat) : Visits m c → m.step c = .failed →
      start ≤ m.input.size → Visits m (.starting m.program c.undone.2 start)
  | step (c c' : Config) : Visits m c → m.step c = .running c' → Visits m c'

section Safety

variable {m : Machine} {node : Node} {c : Config}

theorem starting_bounded (hp : m.program.Realizes node) {marks : Array Nat}
    (hm : marks.size = m.program.marks) {start : Nat} (hs : start ≤ m.input.size) :
    (Config.starting m.program marks start).Bounded m where
  pos := hs
  slots := by simp [Config.starting, Config.initial]
  marks := hm
  written := by
    intro v hv
    simp [Config.starting, Config.initial] at hv
  stack := nofun
  pc := by
    rw [hp.size_insts]
    exact Nat.succ_pos _

theorem visits_bounded (hp : m.program.Realizes node) (h : m.Visits c) : c.Bounded m := by
  induction h with
  | first start hs => exact starting_bounded hp m.size_newMarks hs
  | matched c c' start _ hstep hs ih =>
    have hheld : c'.Held m := by
      have hb := step_bounded hp ih
      rwa [hstep] at hb
    exact starting_bounded hp hheld.marks hs
  | failed c start _ _ hs ih =>
    exact starting_bounded hp ((size_undone_marks c).trans ih.marks) hs
  | step c c' _ hstep ih =>
    have hb := step_bounded hp ih
    rwa [hstep] at hb

/-- What an instruction reads lies in the text, and the slots and marks that it uses are there. -/
def Config.InRange (m : Machine) (c : Config) : Inst → Prop
  | .lineStart => c.pos ≠ 0 → c.pos - 1 < m.input.size
  | .lineEnd => c.pos ≠ m.input.size → c.pos < m.input.size
  | .wordBoundary _ => c.pos ≠ 0 → c.pos - 1 < m.input.size
  | .save slot => slot < c.slots.size
  | .reset span => 2 * span.last + 1 < c.slots.size
  | .mark index => index < c.marks.size
  | .progress index => index < c.marks.size
  | .backref group => ∀ span ∈ Machine.captured? c.slots group,
      span.1 + (span.2 - span.1) ≤ m.input.size
  | .accept => 2 * m.program.groups + 1 < c.slots.size
  | _ => True

instance (m : Machine) (c : Config) (inst : Inst) : Decidable (c.InRange m inst) :=
  match inst with
  | .lineStart => inferInstanceAs (Decidable (c.pos ≠ 0 → c.pos - 1 < m.input.size))
  | .lineEnd => inferInstanceAs (Decidable (c.pos ≠ m.input.size → c.pos < m.input.size))
  | .wordBoundary _ => inferInstanceAs (Decidable (c.pos ≠ 0 → c.pos - 1 < m.input.size))
  | .save slot => inferInstanceAs (Decidable (slot < c.slots.size))
  | .reset span => inferInstanceAs (Decidable (2 * span.last + 1 < c.slots.size))
  | .mark index => inferInstanceAs (Decidable (index < c.marks.size))
  | .progress index => inferInstanceAs (Decidable (index < c.marks.size))
  | .backref group => inferInstanceAs (Decidable (∀ span ∈ Machine.captured? c.slots group,
      span.1 + (span.2 - span.1) ≤ m.input.size))
  | .accept => inferInstanceAs (Decidable (2 * m.program.groups + 1 < c.slots.size))
  | .char _ | .any | .charClass _ | .split _ _ | .jump _ | .look _ _ | .succeed => .isTrue trivial

/-- A write of this entry can be undone. -/
def Entry.InRange (c : Config) : Entry → Prop
  | .slot index _ => index < c.slots.size
  | .mark index _ => index < c.marks.size
  | _ => True

instance (c : Config) (e : Entry) : Decidable (e.InRange c) :=
  match e with
  | .slot index _ => inferInstanceAs (Decidable (index < c.slots.size))
  | .mark index _ => inferInstanceAs (Decidable (index < c.marks.size))
  | .choice _ _ | .lookahead _ _ _ => .isTrue trivial

/-- No index that a configuration leads to is out of range. -/
structure Config.Safe (m : Machine) (c : Config) : Prop where
  inst : ∃ inst ∈ m.program.insts[c.pc]?, c.InRange m inst
  stack : ∀ e ∈ c.stack, e.InRange c

instance (m : Machine) (c : Config) : Decidable (c.Safe m) :=
  decidable_of_iff ((∃ inst ∈ m.program.insts[c.pc]?, c.InRange m inst) ∧
    ∀ e ∈ c.stack, e.InRange c) ⟨fun h => ⟨h.1, h.2⟩, fun h => ⟨h.inst, h.stack⟩⟩

theorem Config.Held.captured_bound (h : c.Held m) {group start stop : Nat}
    (hc : Machine.captured? c.slots group = some (start, stop)) :
    start ≤ m.input.size ∧ stop ≤ m.input.size := by
  unfold Machine.captured? at hc
  split at hc
  · rename_i hstart hstop
    cases hc
    exact ⟨h.slot hstart, h.slot hstop⟩
  · cases hc

theorem safe_of_bounded (hp : m.program.Realizes node) (h : c.Bounded m) : c.Safe m where
  inst := by
    obtain ⟨inst, hinst⟩ : ∃ inst, m.program.insts[c.pc]? = some inst :=
      ⟨_, Array.getElem?_eq_getElem h.pc⟩
    refine ⟨inst, hinst, ?_⟩
    obtain ⟨hfits, -⟩ := hp.inst_fits hinst
    have hpos := h.pos
    have hslots : c.slots.size = 2 * (m.program.groups + 1) := h.slots
    cases inst with
    | lineStart | lineEnd | wordBoundary negated =>
      simp only [Config.InRange]
      omega
    | save slot =>
      have hgroup : slot / 2 ≤ m.program.groups := hfits
      simp only [Config.InRange]
      omega
    | reset span =>
      have hlast : span.last ≤ m.program.groups := hfits
      simp only [Config.InRange]
      omega
    | mark index | progress index =>
      have hmark : index < m.program.marks := hfits
      simpa only [Config.InRange, h.marks] using hmark
    | backref group =>
      intro span hspan
      have hbound := h.captured_bound hspan
      omega
    | accept =>
      simp only [Config.InRange]
      omega
    | char _ | any | charClass _ | split _ _ | jump _ | look _ _ | succeed => trivial
  stack := by
    intro e he
    have hb := h.stack e he
    cases e with
    | slot index old => exact Nat.lt_of_lt_of_eq hb.1 h.slots.symm
    | mark index old => exact Nat.lt_of_lt_of_eq hb h.marks.symm
    | choice _ _ | lookahead _ _ _ => trivial

end Safety
end VbaWorkbench.Pattern
