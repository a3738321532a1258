import VbaWorkbench.Proofs.Pattern.Settling

namespace VbaWorkbench.Pattern

namespace Machine

/-- The matches from a position on, from left to right. Each is the first at or after the place
where the one before it resumes, and after the last there is none up to the end of the text. -/
inductive Sweep (m : Machine) : Nat → List Found → Prop
  | nil (start : Nat) : (∀ pos, start ≤ pos → pos ≤ m.input.size → m.Misses pos) →
      Sweep m start []
  | cons (start : Nat) (f : Found) (fs : List Found) : start ≤ f.start → f.start ≤ m.input.size →
      (∀ pos, start ≤ pos → pos < f.start → m.Misses pos) → m.Hits f → Sweep m f.resume fs →
      Sweep m start (f :: fs)

end Machine

/-- What a search for a match below `stop` has to end with. -/
def SearchResult.Leftmost (m : Machine) (start stop : Nat) : SearchResult → Prop
  | .found f marks => start ≤ f.start ∧ f.start < stop ∧
      (∀ pos, start ≤ pos → pos < f.start → m.Misses pos) ∧ m.Hits f ∧
      marks.size = m.program.marks
  | .absent => ∀ pos, start ≤ pos → pos < stop → m.Misses pos
  | .exhausted => False

theorem Found.stop_le_resume (f : Found) : f.stop ≤ f.resume := by
  unfold Found.resume
  split <;> omega

/-- A match resumes where it has stopped, and one further if it is empty. -/
theorem Found.resume_le_iff {f : Found} {pos : Nat} :
    f.resume ≤ pos ↔ f.stop ≤ pos ∧ (f.stop = f.start → f.stop + 1 ≤ pos) := by
  unfold Found.resume
  split <;> omega

section Searches

variable {m : Machine} {node : Node} {start stop : Nat} {marks : Array Nat}

theorem SearchResult.Leftmost.earlier {result : SearchResult} (hmiss : m.Misses start)
    (h : result.Leftmost m (start + 1) stop) : result.Leftmost m start stop := by
  have hmisses : ∀ {p : Nat → Prop}, (∀ pos, start + 1 ≤ pos → p pos → m.Misses pos) →
      ∀ pos, start ≤ pos → p pos → m.Misses pos := by
    intro p hlater pos hle hp
    rcases Nat.eq_or_lt_of_le hle with rfl | hlt
    · exact hmiss
    · exact hlater pos hlt hp
  cases result with
  | found f marks =>
    obtain ⟨hle, hlt, hbefore, hrest⟩ := h
    exact ⟨Nat.le_of_succ_le hle, hlt, hmisses hbefore, hrest⟩
  | absent => exact hmisses h
  | exhausted => exact h

theorem SearchResult.Leftmost.eq_absent {result : SearchResult}
    (h : result.Leftmost m start stop) (hmiss : ∀ pos, start ≤ pos → pos < stop → m.Misses pos) :
    result = .absent := by
  cases result with
  | found f marks => exact absurd h.2.2.2.1 (hmiss f.start h.1 h.2.1).not_hits
  | absent => rfl
  | exhausted => exact h.elim

theorem SearchResult.Leftmost.eq_found {result : SearchResult}
    (h : result.Leftmost m start stop) {f : Found} (hle : start ≤ f.start) (hlt : f.start < stop)
    (hbefore : ∀ pos, start ≤ pos → pos < f.start → m.Misses pos) (hhit : m.Hits f) :
    ∃ marks, result = .found f marks ∧ marks.size = m.program.marks := by
  cases result with
  | found g marks =>
    obtain ⟨hle', -, hbefore', hhit', hm⟩ := h
    rcases Nat.lt_trichotomy g.start f.start with hbelow | heq | habove
    · exact absurd hhit' (hbefore g.start hle' hbelow).not_hits
    · obtain rfl := hhit'.unique hhit heq
      exact ⟨marks, rfl, hm⟩
    · exact absurd hhit (hbefore' f.start hle habove).not_hits
  | absent => exact absurd hhit (h f.start hle hlt).not_hits
  | exhausted => exact h.elim

/-- What a search makes of the run from one position, with `n` more positions to come. -/
def Machine.judge (m : Machine) (marks : Array Nat) (start n : Nat) :
    Verdict → Nat → SearchResult × Nat
  | .accepted c, budget => (.found (m.found start c) c.marks, budget)
  | .failed, budget => m.searchFrom marks (start + 1) budget n
  | .exhausted, budget => (.exhausted, budget)

theorem searchFrom_succ (marks : Array Nat) (start budget n : Nat) :
    m.searchFrom marks start budget (n + 1) =
      m.judge marks start n (m.run budget (.starting m.program marks start)).1
        (m.run budget (.starting m.program marks start)).2 := by
  rw [Machine.searchFrom, ← Config.starting]
  cases m.run budget (.starting m.program marks start) with
  | mk verdict left => cases verdict <;> rfl

/-- A search finds the leftmost match, at a price of its own. -/
theorem searchFrom_settles (hp : m.program.Realizes node) (hm : marks.size = m.program.marks)
    (start n : Nat) :
    ∃ result : SearchResult, result.Leftmost m start (start + n) ∧
      Settles (fun budget => m.searchFrom marks start budget n) .exhausted result := by
  induction n generalizing start with
  | zero => exact ⟨.absent, fun pos hl hr => by omega, .free _ _⟩
  | succ n ih =>
    simp only [searchFrom_succ]
    rcases misses_or_hits hp start with hmiss | ⟨f, rfl, hhit⟩
    · obtain ⟨result, hleft, hrest⟩ := ih (start + 1)
      rw [Nat.add_right_comm] at hleft
      exact ⟨result, hleft.earlier hmiss, (hmiss marks hm).bind hrest rfl⟩
    · obtain ⟨c, hrun, hfound, hc⟩ := hhit marks hm
      have hleft : (SearchResult.found f c.marks).Leftmost m f.start (f.start + (n + 1)) :=
        ⟨Nat.le_refl _, by omega, fun pos hl hr => by omega, hhit, hc⟩
      have hfree : Settles (m.judge marks f.start n (.accepted c)) .exhausted
          (.found (m.found f.start c) c.marks) := .free _ _
      rw [hfound] at hfree
      exact ⟨_, hleft, hrun.bind hfree rfl⟩

theorem search_found (hp : m.program.Realizes node) (hm : marks.size = m.program.marks)
    {budget left : Nat} {f : Found} {marks' : Array Nat}
    (h : m.search marks start budget = (.found f marks', left)) :
    f.Lies m node ∧ marks'.size = m.program.marks := by
  obtain ⟨result, hleft, hsearch⟩ := searchFrom_settles hp hm start (m.input.size + 1 - start)
  have hfirst : (m.search marks start budget).1 = .found f marks' := by rw [h]
  have hne : (m.search marks start budget).1 ≠ .exhausted := by
    rw [hfirst]
    exact SearchResult.noConfusion
  obtain rfl : result = .found f marks' := (hsearch.eq_of_ne hne).symm.trans hfirst
  obtain ⟨hle, hlt, -, hhit, hm'⟩ := hleft
  exact ⟨hits_lies hp hhit (by omega), hm'⟩

/-- What follows one search when at most `n` more matches are wanted. -/
def Machine.follow (m : Machine) (n : Nat) : SearchResult → Nat → Option (List Found) × Nat
  | .found f marks, budget =>
    ((m.findFrom marks f.resume budget n).1.map (f :: ·), (m.findFrom marks f.resume budget n).2)
  | .absent, budget => (some [], budget)
  | .exhausted, budget => (none, budget)

theorem findFrom_succ (marks : Array Nat) (start budget n : Nat) :
    m.findFrom marks start budget (n + 1) =
      m.follow n (m.search marks start budget).1 (m.search marks start budget).2 := by
  rw [Machine.findFrom]
  cases m.search marks start budget with
  | mk result left => cases result <;> rfl

/-- One match is the first of all. -/
theorem findFrom_one {budget n : Nat} {found : List Found}
    (h : (m.findFrom marks start budget (n + 1)).1 = some found) :
    (m.findFrom marks start budget 1).1 = some (found.take 1) := by
  rw [findFrom_succ] at h ⊢
  cases hsearch : (m.search marks start budget).1 with
  | found f marks' =>
    rw [hsearch] at h
    obtain ⟨fs, -, rfl⟩ := Option.map_eq_some_iff.mp h
    rfl
  | absent =>
    rw [hsearch] at h
    cases h
    rfl
  | exhausted =>
    rw [hsearch] at h
    cases h

end Searches

namespace Machine.Sweep

variable {m : Machine} {node : Node} {start : Nat} {fs : List Found} {marks : Array Nat}

/-- There is always one. -/
theorem exists_from (hp : m.program.Realizes node) (start : Nat) : ∃ fs, m.Sweep start fs := by
  induction hn : m.input.size + 1 - start using Nat.strongRecOn generalizing start with
  | ind n ih =>
    obtain ⟨result, hleft, -⟩ := searchFrom_settles hp m.size_newMarks start n
    cases result with
    | found f marks =>
      obtain ⟨hle, hlt, hbefore, hhit, -⟩ := hleft
      have hinside : f.start ≤ m.input.size := by omega
      have hresume : f.start < f.resume := (hits_lies hp hhit hinside).lt_resume
      obtain ⟨fs, hrest⟩ := ih (m.input.size + 1 - f.resume) (by omega) f.resume rfl
      exact ⟨f :: fs, .cons start f fs hle hinside hbefore hhit hrest⟩
    | absent => exact ⟨[], .nil start fun pos hl hr => hleft pos hl (by omega)⟩
    | exhausted => exact hleft.elim

theorem start_le (h : m.Sweep start fs) (hp : m.program.Realizes node) :
    ∀ f ∈ fs, start ≤ f.start := by
  induction h with
  | nil => simp
  | cons start f fs hle hinside _ hhit _ ih =>
    have hresume : f.start < f.resume := (hits_lies hp hhit hinside).lt_resume
    refine List.forall_mem_cons.mpr ⟨hle, fun g hg => ?_⟩
    have := ih g hg
    omega

theorem lies (h : m.Sweep start fs) (hp : m.program.Realizes node) : ∀ f ∈ fs, f.Lies m node := by
  induction h with
  | nil => simp
  | cons start f fs _ hinside _ hhit _ ih =>
    exact List.forall_mem_cons.mpr ⟨hits_lies hp hhit hinside, ih⟩

/-- Each match begins where an earlier one resumes or after that. -/
theorem ordered (h : m.Sweep start fs) (hp : m.program.Realizes node) :
    fs.Pairwise fun f g => f.resume ≤ g.start := by
  induction h with
  | nil => exact .nil
  | cons start f fs _ _ _ _ hrest ih => exact .cons (hrest.start_le hp) ih

/-- There are no more matches than positions. -/
theorem length_le (h : m.Sweep start fs) (hp : m.program.Realizes node) :
    fs.length ≤ m.input.size + 1 - start := by
  induction h with
  | nil => exact Nat.zero_le _
  | cons start f fs hle hinside _ hhit _ ih =>
    have hresume : f.start < f.resume := (hits_lies hp hhit hinside).lt_resume
    rw [List.length_cons]
    omega

/-- The searches one after the other find the matches of a sweep. -/
theorem findFrom_settles (h : m.Sweep start fs) (hp : m.program.Realizes node)
    (hm : marks.size = m.program.marks) (n : Nat) :
    Settles (fun budget => m.findFrom marks start budget n) none (some (fs.take n)) := by
  induction h generalizing marks n with
  | nil start hmisses =>
    cases n with
    | zero => exact .free _ _
    | succ n =>
      simp only [findFrom_succ]
      obtain ⟨result, hleft, hsearch⟩ :=
        searchFrom_settles hp hm start (m.input.size + 1 - start)
      obtain rfl := hleft.eq_absent fun pos hl hr => hmisses pos hl (by omega)
      exact hsearch.bind (.free _ _) rfl
  | cons start f fs hle hinside hbefore hhit _ ih =>
    cases n with
    | zero => exact .free _ _
    | succ n =>
      simp only [findFrom_succ]
      obtain ⟨result, hleft, hsearch⟩ :=
        searchFrom_settles hp hm start (m.input.size + 1 - start)
      obtain ⟨marks', rfl, hm'⟩ := hleft.eq_found hle (by omega) hbefore hhit
      exact hsearch.bind ((ih hm' n).map (Option.map (f :: ·))) rfl

/-- The first match is the first of the sweep, and all of them are the sweep. -/
theorem find_settles (h : m.Sweep 0 fs) (hp : m.program.Realizes node) (all : Bool) :
    Settles (m.find all) none (some (if all then fs else fs.take 1)) := by
  cases all with
  | true =>
    have hfind : Settles (m.find true) none (some (fs.take (m.input.size + 1))) :=
      h.findFrom_settles hp m.size_newMarks (m.input.size + 1)
    have hall : fs.length ≤ m.input.size + 1 := h.length_le hp
    rwa [List.take_of_length_le hall] at hfind
  | false => exact h.findFrom_settles hp m.size_newMarks 1

/-- What is found within a budget is what there is. -/
theorem of_find (hp : m.program.Realizes node) {all : Bool} {budget : Nat} {found : List Found}
    (h : (m.find all budget).1 = some found) :
    ∃ fs, m.Sweep 0 fs ∧ found = if all then fs else fs.take 1 := by
  obtain ⟨fs, hsweep⟩ := exists_from hp 0
  have hne : (m.find all budget).1 ≠ none := by
    rw [h]
    exact Option.some_ne_none found
  have heq := (hsweep.find_settles hp all).eq_of_ne hne
  exact ⟨fs, hsweep, Option.some.inj (h.symm.trans heq)⟩

end Machine.Sweep
end VbaWorkbench.Pattern
