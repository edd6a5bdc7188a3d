import ProcessRuns.Time.Calendar

/-! # Dates of day numbers

The date of a day number has this number again. An era is four centuries, a century 25 stretches of four years. The last
year of a stretch has a leap day, but for the last stretch of a century, which has it in the last century only. -/

namespace ProcessRuns.CalendarDate

/-- A day of an era by its century, the stretch of four years in it, the year of the stretch and the day of the year. -/
structure Place where
  century : Int
  stretch : Int
  year : Int
  day : Int
  century_range : 0 ≤ century ∧ century ≤ 3
  stretch_range : 0 ≤ stretch ∧ stretch ≤ 24
  year_range : 0 ≤ year ∧ year ≤ 3
  day_range : 0 ≤ day ∧ day ≤ 365
  year_of_leap : day = 365 → year = 3
  century_of_leap : day = 365 → stretch = 24 → century = 3

namespace Place

/-- The days from the first day of the era to a place. -/
def dayOfEra (p : Place) : Int := 36524 * p.century + 1461 * p.stretch + 365 * p.year + p.day

/-- The years from the first year of the era to a place. -/
def yearOfEra (p : Place) : Int := 100 * p.century + 4 * p.stretch + p.year

/-- Every day of an era has a place. -/
theorem exists_dayOfEra {d : Int} (hlow : 0 ≤ d) (hhigh : d < 146097) : ∃ p : Place, p.dayOfEra = d := by
  by_cases hlast : d = 146096
  · exact ⟨⟨3, 24, 3, 365, by omega, by omega, by omega, by omega, by omega, by omega⟩, by simp [dayOfEra, hlast]⟩
  · -- the leap day of a stretch would begin a fifth year in it
    refine ⟨⟨d / 36524, d % 36524 / 1461, min (d % 36524 % 1461 / 365) 3,
      d % 36524 % 1461 - 365 * min (d % 36524 % 1461 / 365) 3,
      by omega, by omega, by omega, by omega, by omega, by omega⟩, ?_⟩
    simp only [dayOfEra]
    omega

variable (p : Place)

theorem yearOfEra_range : 0 ≤ p.yearOfEra ∧ p.yearOfEra < 400 := by
  obtain ⟨century, stretch, year, day, hcentury, hstretch, hyear, -, -, -⟩ := p
  simp only [yearOfEra]
  omega

/-- The year of a day of an era is found by taking out the leap days before it. -/
theorem yearOfEra_eq :
    (p.dayOfEra - p.dayOfEra / 1460 + p.dayOfEra / 36524 - p.dayOfEra / 146096) / 365 = p.yearOfEra := by
  obtain ⟨century, stretch, year, day, hcentury, hstretch, hyear, hday, hleap, hlastLeap⟩ := p
  simp only [yearOfEra]
  generalize hd : dayOfEra _ = d
  simp only [dayOfEra] at hd
  by_cases hlast : d = 146096
  · subst hlast
    omega
  · have hcenturies : d / 36524 = century := by omega
    have hera : d / 146096 = 0 := by omega
    have hleaps : d / 1460 = 25 * century + stretch + (24 * century + stretch + 365 * year + day) / 1460 := by omega
    rw [hcenturies, hera, hleaps, ← hd]
    omega

/-- A day of an era by the first day of its year. -/
theorem dayOfEra_eq : p.dayOfEra = 365 * p.yearOfEra + p.yearOfEra / 4 - p.yearOfEra / 100 + p.day := by
  obtain ⟨century, stretch, year, day, hcentury, hstretch, hyear, -, -, -⟩ := p
  simp only [dayOfEra, yearOfEra]
  omega

end Place

/-- The month that comes so many months after March. -/
def monthAfter (march : Int) : Int := if march < 10 then march + 3 else march - 9

/-- The date of a day number by the place of its day. -/
theorem ofDayNumber_eq {n : Int} {p : Place} (h : p.dayOfEra = (n + epochDay) % 146097) :
    ofDayNumber n =
      let march := (5 * p.day + 2) / 153
      ⟨p.yearOfEra + 400 * ((n + epochDay) / 146097) + (if monthAfter march ≤ 2 then 1 else 0), monthAfter march,
        p.day - (153 * march + 2) / 5 + 1⟩ := by
  have hday : p.dayOfEra - (365 * p.yearOfEra + p.yearOfEra / 4 - p.yearOfEra / 100) = p.day := by
    rw [p.dayOfEra_eq]
    omega
  simp only [ofDayNumber, ← h, p.yearOfEra_eq, hday]
  rfl

/-- The number of a date whose year starts in March. -/
theorem dayNumber_eq {march : Int} (h : 0 ≤ march ∧ march ≤ 11) (year day : Int) :
    dayNumber ⟨year + (if monthAfter march ≤ 2 then 1 else 0), monthAfter march, day⟩ =
      146097 * (year / 400) + (365 * (year % 400) + year % 400 / 4 - year % 400 / 100 +
        ((153 * march + 2) / 5 + day - 1)) - epochDay := by
  have hyear : (if monthAfter march ≤ 2 then year + (if monthAfter march ≤ 2 then 1 else 0) - 1
      else year + (if monthAfter march ≤ 2 then 1 else 0)) = year := by
    split <;> omega
  have hmarch : (monthAfter march + 9) % 12 = march := by
    unfold monthAfter
    omega
  simp only [dayNumber, hyear, hmarch]

theorem exists_place (n : Int) : ∃ p : Place, p.dayOfEra = (n + epochDay) % 146097 :=
  Place.exists_dayOfEra (Int.emod_nonneg _ (by decide)) (Int.emod_lt_of_pos _ (by decide))

theorem month_ofDayNumber (n : Int) : 1 ≤ (ofDayNumber n).month ∧ (ofDayNumber n).month ≤ 12 := by
  obtain ⟨p, hp⟩ := exists_place n
  have hday := p.day_range
  rw [ofDayNumber_eq hp]
  simp only [monthAfter]
  omega

theorem day_ofDayNumber (n : Int) : 1 ≤ (ofDayNumber n).day ∧ (ofDayNumber n).day ≤ 31 := by
  obtain ⟨p, hp⟩ := exists_place n
  have hday := p.day_range
  rw [ofDayNumber_eq hp]
  dsimp only
  omega

/-- The date of a day number has this day number. -/
theorem dayNumber_ofDayNumber (n : Int) : (ofDayNumber n).dayNumber = n := by
  obtain ⟨p, hp⟩ := exists_place n
  have hyear := p.yearOfEra_range
  have hday := p.day_range
  have hstart := p.dayOfEra_eq
  have hera : (p.yearOfEra + 400 * ((n + epochDay) / 146097)) / 400 = (n + epochDay) / 146097 := by omega
  have hyearOfEra : (p.yearOfEra + 400 * ((n + epochDay) / 146097)) % 400 = p.yearOfEra := by omega
  rw [ofDayNumber_eq hp, dayNumber_eq (by omega), hera, hyearOfEra]
  omega

/-- The date of a day number is one that its month has. -/
theorem valid_ofDayNumber (n : Int) : (ofDayNumber n).Valid := by rw [Valid, dayNumber_ofDayNumber]

end ProcessRuns.CalendarDate
