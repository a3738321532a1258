import VbaWorkbench.Proofs.Pattern.Records

namespace VbaWorkbench.Pattern

/-- An evaluation has one result and one price. Under every limit it comes to that result, or it
stops at the first step beyond the limit. -/
theorem evaluate_price {pattern : Text} {p : Pattern} (hcompile : compile pattern = .ok p)
    (subject : Text) (options : MatchOptions) :
    ∃ price records, ∀ limit, p.evaluate subject { options with stepLimit := limit } =
      if limit < price then .error (.timeout (limit + 1)) else .ok records := by
  obtain ⟨parsed, -, hp⟩ := compile_realizes hcompile
  let m := p.machine subject options
  obtain ⟨fs, hsweep⟩ := Machine.Sweep.exists_from (show m.program.Realizes parsed.node from hp) 0
  obtain ⟨price, hfind⟩ := hsweep.find_settles hp options.global
  refine ⟨price, (if options.global then fs else fs.take 1).map (recordIn subject), fun limit => ?_⟩
  have hlimit : (p.machine subject { options with stepLimit := limit }).find options.global limit =
      _ := hfind limit
  rw [evaluate_eq]
  dsimp only
  rw [hlimit]
  by_cases hlt : limit < price
  · rw [if_pos hlt, if_pos hlt]
    rfl
  · rw [if_neg hlt, if_neg hlt]

theorem evaluate_price_nested :
    let pattern := "(a*)*b".toList
    ∃ p, compile pattern = .ok p ∧
      ∃ price records, ∀ limit,
        p.evaluate "aaac".toList { MatchOptions.default with stepLimit := limit } =
          if limit < price then .error (.timeout (limit + 1)) else .ok records := by
  intro pattern
  have hsome : (compile pattern).toOption.isSome = true := by decide +kernel
  obtain ⟨p, hp⟩ := Option.isSome_iff_exists.mp hsome
  exact ⟨p, ok_of_toOption hp, evaluate_price (ok_of_toOption hp) "aaac".toList .default⟩

/-- The matches of an evaluation that wants all of them are those of a sweep over the subject, in
order and without overlap, each recorded with its offsets and the text between them. An evaluation
that wants one match takes the first of them. -/
theorem evaluate_sweeps {pattern : Text} {p : Pattern} (hcompile : compile pattern = .ok p)
    (subject : Text) (options : MatchOptions) {records : List MatchRecord}
    (hall : p.evaluate subject { options with global := true } = .ok records) :
    (∃ found, (p.machine subject options).Sweep 0 found ∧ records = found.map (recordIn subject) ∧
      found.Pairwise fun f g => f.stop ≤ g.start ∧ (f.stop = f.start → f.stop + 1 ≤ g.start)) ∧
    records.Pairwise (fun r s => r.stop ≤ s.start ∧ r.start < s.start) ∧
    (∀ r ∈ records, r.Slices subject) ∧
    p.evaluate subject { options with global := false } = .ok (records.take 1) ∧
    p.test subject options = .ok !records.isEmpty := by
  obtain ⟨parsed, -, hp⟩ := compile_realizes hcompile
  let m := p.machine subject options
  have hm : m.program.Realizes parsed.node := hp
  obtain ⟨found, hfind, rfl⟩ : ∃ found, (m.find true options.stepLimit).1 = some found ∧
      found.map (recordIn subject) = records := evaluate_ok_iff.mp hall
  obtain ⟨_, hsweep, rfl⟩ := Machine.Sweep.of_find hm hfind
  obtain ⟨hslices, hrecords⟩ := evaluate_records hp hall
  have hfirst : p.evaluate subject { options with global := false } =
      .ok ((found.map (recordIn subject)).take 1) :=
    evaluate_ok_iff.mpr ⟨found.take 1, findFrom_one hfind, List.map_take⟩
  have hordered := (hsweep.ordered hm).imp Found.resume_le_iff.mp
  refine ⟨⟨found, hsweep, rfl, hordered⟩, hrecords, hslices, hfirst, ?_⟩
  rw [test, hfirst]
  cases found <;> rfl

theorem evaluate_sweeps_empty :
    let pattern := "a*".toList
    let subject := "baé".toList
    let records : List MatchRecord :=
      [⟨[], 0, 0, []⟩, ⟨['a'], 1, 2, []⟩, ⟨[], 2, 2, []⟩, ⟨[], 4, 4, []⟩]
    ∃ p, compile pattern = .ok p ∧
      p.evaluate subject { MatchOptions.default with global := true } = .ok records ∧
      (∃ found, (p.machine subject .default).Sweep 0 found ∧
        records = found.map (recordIn subject) ∧
        found.Pairwise fun f g => f.stop ≤ g.start ∧ (f.stop = f.start → f.stop + 1 ≤ g.start)) ∧
      records.Pairwise (fun r s => r.stop ≤ s.start ∧ r.start < s.start) ∧
      (∀ r ∈ records, r.Slices subject) ∧
      p.evaluate subject { MatchOptions.default with global := false } = .ok (records.take 1) ∧
      p.test subject .default = .ok !records.isEmpty := by
  intro pattern subject records
  have hrecords : ((compile pattern).toOption.bind fun p =>
      (p.evaluate subject { MatchOptions.default with global := true }).toOption) =
        some records := by decide +kernel
  obtain ⟨p, hp, hall⟩ := Option.bind_eq_some_iff.mp hrecords
  exact ⟨p, ok_of_toOption hp, ok_of_toOption hall,
    evaluate_sweeps (ok_of_toOption hp) subject .default (ok_of_toOption hall)⟩

end VbaWorkbench.Pattern
