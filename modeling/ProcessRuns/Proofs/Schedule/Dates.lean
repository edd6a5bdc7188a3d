import ProcessRuns.Schedule

/-! # The dates of a schedule

The dates between two instants begin with the earlier one and go on in steps of a period. A step is an addition to the
date before, and so the date after some steps is the sum of the first date and that many periods: only the first step
can leave a leap second behind. The dates end where the next one is past the later instant, or past all dates. -/

namespace ProcessRuns

namespace Instant

variable {a b : Instant}

/-- The earlier of two instants. -/
def earliest (a b : Instant) : Instant := if a ≤ b then a else b

theorem bounds_comm (a b : Instant) : earliest b a = earliest a b ∧ latest b a = latest a b := by
  unfold earliest latest
  by_cases hab : a ≤ b
  · by_cases hba : b ≤ a
    · cases le_antisymm hab hba
      exact ⟨rfl, rfl⟩
    · rw [if_pos hab, if_pos hab, if_neg hba, if_neg hba]
      exact ⟨rfl, rfl⟩
  · have hba : b ≤ a := (le_total a b).resolve_left hab
    rw [if_neg hab, if_neg hab, if_pos hba, if_pos hba]
    exact ⟨rfl, rfl⟩

theorem earliest_le_latest (a b : Instant) : earliest a b ≤ latest a b := by
  unfold earliest latest
  split
  · assumption
  · exact (le_total a b).resolve_left ‹_›

/-- Nanoseconds since 1970-01-01, where a leap second counts as the second after it. -/
def nanoseconds (a : Instant) : Int := a.seconds * nanosPerSecond + a.nanos

/-- Outside leap seconds a step stays below a date exactly if the nanoseconds do. -/
theorem exists_plus?_le_iff (ha : a.nanos < nanosPerSecond) (hb : b.nanos < nanosPerSecond) (n : Nat) :
    (∃ d, a.plus? n = some d ∧ d ≤ b) ↔ a.nanoseconds + n * nanosPerSecond ≤ b.nanoseconds := by
  have hsame : (if n = 0 then a.nanos else a.nanos % nanosPerSecond) = a.nanos := by
    rw [Nat.mod_eq_of_lt ha, ite_self]
  obtain ⟨-, hlast, -⟩ := b.representable
  unfold nanoseconds
  constructor
  · rintro ⟨d, hd, hdb⟩
    rw [plus?_eq_some_iff, hsame] at hd
    rw [le_iff] at hdb
    unfold nanosPerSecond at *
    omega
  · intro h
    cases hd : a.plus? n with
    | none =>
      rw [plus?_eq_none_iff] at hd
      unfold nanosPerSecond at *
      omega
    | some d =>
      refine ⟨d, rfl, ?_⟩
      rw [plus?_eq_some_iff, hsame] at hd
      rw [le_iff]
      unfold nanosPerSecond at *
      omega

end Instant

namespace Schedule

variable {s : Schedule} {period : Nat} {last date : Instant}

/-! ### From one date to the next -/

theorem datesFrom_of_inside (inside : 0 < period ∧ date ≤ last) :
    datesFrom period last date = date :: (date.plus? period).elim [] (datesFrom period last) := by
  rw [datesFrom, dif_pos inside]
  split
  · rename_i next hnext
    rw [hnext, Option.elim_some]
  · rename_i hnone
    rw [hnone, Option.elim_none]

theorem datesFrom_of_outside (outside : ¬(0 < period ∧ date ≤ last)) : datesFrom period last date = [] := by
  rw [datesFrom, dif_neg outside]

/-- The dates begin with the first one, and each is later than those before it. -/
theorem datesFrom_ascending (period : Nat) (last date : Instant) :
    (∀ d ∈ datesFrom period last date, date.seconds ≤ d.seconds) ∧
    (datesFrom period last date).Pairwise (· < ·) := by
  induction date using datesFrom.induct period last with
  | case1 date inside ih =>
    rw [datesFrom_of_inside inside]
    cases hnext : date.plus? period with
    | none => exact ⟨by simp, List.pairwise_singleton _ _⟩
    | some next =>
      obtain ⟨hfrom, hpair⟩ := ih next hnext
      have hstep := Instant.seconds_of_plus? hnext
      have hlater : ∀ d ∈ datesFrom period last next, date.seconds < d.seconds := by
        intro d hd
        have := hfrom d hd
        omega
      refine ⟨?_, List.pairwise_cons.mpr ⟨fun d hd => Or.inl (hlater d hd), hpair⟩⟩
      intro d hd
      rcases List.mem_cons.mp hd with rfl | hd
      · exact Int.le_refl _
      · exact Int.le_of_lt (hlater d hd)
  | case2 date outside =>
    rw [datesFrom_of_outside outside]
    exact ⟨by simp, .nil⟩

/-- The date after some steps is the first one and that many periods, if that is a date and none past the last. -/
theorem getElem?_datesFrom (hperiod : 0 < period) (last date : Instant) (k : Nat) :
    (datesFrom period last date)[k]? = (date.plus? (k * period)).filter (· ≤ last) := by
  induction date using datesFrom.induct period last generalizing k with
  | case1 date inside ih =>
    rw [datesFrom_of_inside inside]
    cases k with
    | zero =>
      have hself : date.plus? 0 = some date := Instant.plus?_eq_some_iff.mpr ⟨by omega, rfl⟩
      rw [Nat.zero_mul, hself, List.getElem?_cons_zero, Option.filter_some, if_pos (decide_eq_true inside.2)]
    | succ k =>
      rw [List.getElem?_cons_succ]
      cases hnext : date.plus? period with
      | none =>
        have hbeyond : date.plus? ((k + 1) * period) = none := by
          rw [Instant.plus?_eq_none_iff] at hnext ⊢
          have hone : period ≤ (k + 1) * period := Nat.le_mul_of_pos_left period (Nat.succ_pos k)
          omega
        rw [hbeyond, Option.elim_none, List.getElem?_nil, Option.filter_none]
      | some next =>
        rw [Option.elim_some, ih next hnext, Instant.plus?_of_plus? hnext, Nat.succ_mul, Nat.add_comm period]
  | case2 date outside =>
    rw [datesFrom_of_outside outside, List.getElem?_nil]
    refine (Option.filter_eq_none_iff.mpr fun d hd => ?_).symm
    intro hle
    exact outside ⟨hperiod, Instant.le_trans (Instant.le_of_plus? hd) (of_decide_eq_true hle)⟩

/-- As many dates as periods fit between the first and the last, and one more. -/
theorem length_datesFrom (hperiod : 0 < period) (hle : date ≤ last) (hdate : date.nanos < Instant.nanosPerSecond)
    (hlast : last.nanos < Instant.nanosPerSecond) : ((datesFrom period last date).length : Int) =
      (last.nanoseconds - date.nanoseconds) / (period * Instant.nanosPerSecond) + 1 := by
  have hstep : (0 : Int) < period * Instant.nanosPerSecond :=
    Int.mul_pos (Int.natCast_pos.mpr hperiod) (by decide)
  have hcount : ∀ k : Nat, k < (datesFrom period last date).length ↔
      (k : Int) ≤ (last.nanoseconds - date.nanoseconds) / (period * Instant.nanosPerSecond) := by
    intro k
    have hbelow := Instant.exists_plus?_le_iff hdate hlast (k * period)
    rw [Int.natCast_mul, Int.mul_assoc] at hbelow
    have hthere : k < (datesFrom period last date).length ↔ ∃ d, (datesFrom period last date)[k]? = some d := by
      simp [← Option.isSome_iff_exists]
    simp only [hthere, getElem?_datesFrom hperiod, Option.filter_eq_some_iff, decide_eq_true_eq, hbelow]
    rw [Int.le_ediv_iff_mul_le hstep]
    omega
  have hnonneg : 0 ≤ (last.nanoseconds - date.nanoseconds) / (period * Instant.nanosPerSecond) := by
    have := (hcount 0).mp (by rw [datesFrom_of_inside ⟨hperiod, hle⟩]; exact Nat.succ_pos _)
    exact this
  have hfits := hcount ((last.nanoseconds - date.nanoseconds) / (period * Instant.nanosPerSecond)).toNat
  have hbeyond := hcount (((last.nanoseconds - date.nanoseconds) / (period * Instant.nanosPerSecond)).toNat + 1)
  omega

/-! ### The dates between two instants -/

theorem period_eq_ok_iff : s.period = .ok period ↔
    s.frequency ≠ 0 ∧ ∃ seconds, unitSeconds? s.normalUnit = some seconds ∧
    s.frequency * seconds ≤ periodMax ∧ s.frequency * seconds = period := by
  unfold Schedule.period
  by_cases hzero : s.frequency = 0
  · simp [hzero]
  · cases unitSeconds? s.normalUnit with
    | none => simp [hzero]
    | some seconds => by_cases hfits : s.frequency * seconds ≤ periodMax <;> simp [hzero, hfits]

theorem step_eq_ok_iff : s.step = .ok period ↔ s.period = .ok period ∧ period ≤ stepMax := by
  unfold step
  cases s.period with
  | error e => simp [bind, Except.bind]
  | ok n =>
    by_cases hfits : n ≤ stepMax
    · simp only [bind, Except.bind, pure, Except.pure, if_pos hfits, Except.ok.injEq, iff_self_and]
      rintro rfl
      exact hfits
    · simp only [bind, Except.bind, throw, throwThe, MonadExceptOf.throw, if_neg hfits, Except.ok.injEq, reduceCtorEq,
        false_iff, not_and]
      rintro rfl
      exact hfits

theorem datesBetween_eq (s : Schedule) (a b : Instant) : s.datesBetween a b =
    s.step.map fun period => datesFrom period (Instant.latest a b) (Instant.earliest a b) := by
  have horder : ∀ period, (if b < a then datesFrom period a b else datesFrom period b a) =
      datesFrom period (Instant.latest a b) (Instant.earliest a b) := by
    intro period
    unfold Instant.latest Instant.earliest
    by_cases hle : a ≤ b
    · rw [if_pos hle, if_pos hle, if_neg fun hlt => Instant.not_le_iff.mpr hlt hle]
    · rw [if_neg hle, if_neg hle, if_pos (Instant.not_le_iff.mp hle)]
  unfold datesBetween
  simp only [horder]
  cases s.step <;> rfl

theorem datesBetween_eq_ok_iff {a b : Instant} {dates : List Instant} : s.datesBetween a b = .ok dates ↔
    ∃ period, s.step = .ok period ∧ datesFrom period (Instant.latest a b) (Instant.earliest a b) = dates := by
  rw [datesBetween_eq]
  cases s.step <;> simp [Except.map]

theorem datesBetween_ascending {a b : Instant} {dates : List Instant} (h : s.datesBetween a b = .ok dates) :
    dates.Pairwise (· < ·) := by
  obtain ⟨period, -, rfl⟩ := datesBetween_eq_ok_iff.mp h
  exact (datesFrom_ascending period _ _).2

/-- There are dates exactly for a frequency other than zero of a known unit whose product is a period and a step. They
begin with the earlier of the two instants and ascend, the date after some steps is the first one and that many
periods, and they are all of these that are representable and not past the later instant: without leap seconds, as
many as periods fit in between, and one more. Which of the instants comes first makes no difference. -/
theorem dates_are_every_period (s : Schedule) (a b : Instant) :
    ((∃ dates, s.datesBetween a b = .ok dates) ↔
      s.frequency ≠ 0 ∧ ∃ seconds, unitSeconds? s.normalUnit = some seconds ∧
      s.frequency * seconds ≤ periodMax ∧ s.frequency * seconds ≤ stepMax) ∧
    (∀ seconds dates, unitSeconds? s.normalUnit = some seconds → s.datesBetween a b = .ok dates →
      let period := s.frequency * seconds
      let first := Instant.earliest a b
      let last := Instant.latest a b
      dates.Pairwise (· < ·) ∧ dates.head? = some first ∧
      (∀ (k : Nat) (d : Instant), dates[k]? = some d ↔ d ≤ last ∧ d.seconds = first.seconds + (k * period : Nat) ∧
        d.nanos = if k = 0 then first.nanos else first.nanos % Instant.nanosPerSecond) ∧
      (a.nanos < Instant.nanosPerSecond → b.nanos < Instant.nanosPerSecond →
        (dates.length : Int) = (last.nanoseconds - first.nanoseconds) / (period * Instant.nanosPerSecond) + 1)) ∧
    s.datesBetween b a = s.datesBetween a b := by
  refine ⟨?_, fun seconds dates hunit hdates => ?_, ?_⟩
  · constructor
    · rintro ⟨dates, hdates⟩
      obtain ⟨period, hstep, -⟩ := datesBetween_eq_ok_iff.mp hdates
      obtain ⟨hperiod, hlong⟩ := step_eq_ok_iff.mp hstep
      obtain ⟨hfrequency, seconds, hunit, hfits, rfl⟩ := period_eq_ok_iff.mp hperiod
      exact ⟨hfrequency, seconds, hunit, hfits, hlong⟩
    · rintro ⟨hfrequency, seconds, hunit, hfits, hlong⟩
      have hperiod : s.period = .ok (s.frequency * seconds) :=
        period_eq_ok_iff.mpr ⟨hfrequency, seconds, hunit, hfits, rfl⟩
      exact ⟨_, datesBetween_eq_ok_iff.mpr ⟨_, step_eq_ok_iff.mpr ⟨hperiod, hlong⟩, rfl⟩⟩
  · intro period first last
    obtain ⟨n, hstep, rfl⟩ := datesBetween_eq_ok_iff.mp hdates
    obtain ⟨hperiod, -⟩ := step_eq_ok_iff.mp hstep
    have hpos : 0 < n := period_pos hperiod
    have hn : n = period := by
      obtain ⟨-, seconds', hunit', -, rfl⟩ := period_eq_ok_iff.mp hperiod
      cases Option.some.inj (hunit.symm.trans hunit')
      rfl
    subst hn
    have hle : first ≤ last := Instant.earliest_le_latest a b
    refine ⟨(datesFrom_ascending _ _ _).2, ?_, fun k d => ?_, fun ha hb => ?_⟩
    · rw [datesFrom_of_inside ⟨hpos, hle⟩, List.head?_cons]
    -- Only the first date may be in a leap second; a step leads out of it.
    · have hzero : k * period = 0 ↔ k = 0 := by rw [Nat.mul_eq_zero, or_iff_left (Nat.ne_of_gt hpos)]
      rw [getElem?_datesFrom hpos, Option.filter_eq_some_iff, decide_eq_true_eq, Instant.plus?_eq_some_iff]
      simp only [hzero]
      exact and_comm
    · have hfirst : first.nanos < Instant.nanosPerSecond := by
        unfold first Instant.earliest
        split <;> assumption
      have hlast : last.nanos < Instant.nanosPerSecond := by
        unfold last Instant.latest
        split <;> assumption
      exact length_datesFrom hpos hle hfirst hlast
  · obtain ⟨hfirst, hlast⟩ := Instant.bounds_comm a b
    rw [datesBetween_eq, datesBetween_eq, hfirst, hlast]

/-- Every three hours from a leap second in the midst of a minute on, which no date but the first is in, and every three
hours of a day. -/
theorem dates_are_every_period_of_leapSecond :
    let s : Schedule := ⟨3, " Hours"⟩
    let leap : Instant := ⟨1483228744, 1333333333, by decide⟩
    let last : Instant := ⟨1483250344, 333333333, by decide⟩
    let day : Instant := ⟨86400, 0, by decide⟩
    (∃ dates, s.datesBetween last leap = .ok dates ∧ dates[0]? = some leap ∧ dates[2]? = some last) ∧
      ∃ dates, s.datesBetween .epoch day = .ok dates ∧ dates.length = 9 := by
  intro s leap last day
  have hunit : unitSeconds? s.normalUnit = some 3600 := by decide +kernel
  have hgiven : s.frequency ≠ 0 ∧ ∃ seconds, unitSeconds? s.normalUnit = some seconds ∧
      s.frequency * seconds ≤ periodMax ∧ s.frequency * seconds ≤ stepMax :=
    ⟨by decide, 3600, hunit, by decide, by decide⟩
  constructor
  · obtain ⟨hsome, hdates, -⟩ := dates_are_every_period s last leap
    obtain ⟨dates, h⟩ := hsome.mpr hgiven
    obtain ⟨-, -, hnth, -⟩ := hdates 3600 dates hunit h
    exact ⟨dates, h, (hnth 0 leap).mpr (by decide), (hnth 2 last).mpr (by decide)⟩
  · obtain ⟨hsome, hdates, -⟩ := dates_are_every_period s .epoch day
    obtain ⟨dates, h⟩ := hsome.mpr hgiven
    obtain ⟨-, -, -, hlength⟩ := hdates 3600 dates hunit h
    refine ⟨dates, h, Int.ofNat.inj ((hlength (by decide) (by decide)).trans (by decide))⟩

end Schedule

end ProcessRuns
