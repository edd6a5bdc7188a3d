import Mathlib.Algebra.Group.Nat.Defs
import ProcessRuns.Proofs.Time.Calendar
import ProcessRuns.Time.DateText

/-! # Reading dates that were written

The text of a date is read as this date, whatever its year, its fraction of a second and whether it is in a leap
second at the end of a minute. A leap second in the midst of a minute is written like the second after it, and read as
that. Each part is read up to the first character that is no digit. -/

namespace ProcessRuns.Instant

/-- What follows a number does not go on with it. -/
def Ends (rest : List Char) : Prop := ∀ c ∈ rest.head?, c.isDigit = false

theorem ends_cons {c : Char} (hc : c.isDigit = false) (cs : List Char) : Ends (c :: cs) := by
  simpa [Ends] using hc

theorem isBlank_of_isDigit {c : Char} (h : c.isDigit = true) : Text.isBlank c = false := by
  simp only [Char.isDigit, Bool.and_eq_true, decide_eq_true_eq, ge_iff_le, UInt32.le_iff_toNat_le] at h
  have hlow : 48 ≤ c.toNat := h.1
  have hhigh : c.toNat ≤ 57 := h.2
  simp only [Text.isBlank, Bool.or_eq_false_iff, Bool.and_eq_false_iff, decide_eq_false_iff_not, beq_eq_false_iff_ne]
  omega

/-! ### Digits -/

variable {width n : Nat} {digits rest : List Char}

theorem isDigit_padded (width n : Nat) : ∀ c ∈ padded width n, c.isDigit = true := by
  intro c hc
  rcases List.mem_append.mp hc with hc | hc
  · rw [List.eq_of_mem_replicate hc]
    rfl
  · exact Nat.isDigit_of_mem_toDigits (by decide) (by decide) hc

theorem length_padded (width n : Nat) : (padded width n).length = max width (Nat.toDigits 10 n).length := by
  rw [padded, List.length_leftpad]

theorem length_padded_of_lt (hwidth : 0 < width) (h : n < 10 ^ width) : (padded width n).length = width := by
  rw [length_padded, Nat.max_eq_left ((Nat.length_toDigits_le_iff (by decide) hwidth).mpr h)]

theorem padded_ne_nil (width n : Nat) : padded width n ≠ [] := fun h =>
  Nat.toDigits_ne_nil (List.append_eq_nil_iff.mp h).2

theorem isEmpty_padded (width n : Nat) : (padded width n).isEmpty = false :=
  List.isEmpty_eq_false_iff.mpr (padded_ne_nil width n)

theorem ofDigitChars_padded (width n : Nat) : Nat.ofDigitChars 10 (padded width n) 0 = n := by
  rw [padded, List.leftpad, Nat.ofDigitChars_append, Nat.ofDigitChars_replicate_zero, Nat.mul_zero,
    Nat.ofDigitChars_toDigits (by decide) (by decide)]

theorem exists_cons_padded (width n : Nat) : ∃ c cs, padded width n = c :: cs ∧ c.isDigit = true := by
  obtain ⟨c, cs, hcs⟩ := List.exists_cons_of_ne_nil (padded_ne_nil width n)
  exact ⟨c, cs, hcs, isDigit_padded width n c (hcs ▸ List.mem_cons_self)⟩

theorem takeWhile_digits (hdigits : ∀ c ∈ digits, c.isDigit = true) (hrest : Ends rest) :
    (digits ++ rest).takeWhile Char.isDigit = digits := by
  rw [List.takeWhile_append_of_pos hdigits]
  cases rest with
  | nil => exact List.append_nil _
  | cons c cs => rw [List.takeWhile_cons_of_neg (by simp [hrest c rfl]), List.append_nil]

theorem dropWhile_digits (hdigits : ∀ c ∈ digits, c.isDigit = true) (hrest : Ends rest) :
    (digits ++ rest).dropWhile Char.isDigit = rest := by
  rw [List.dropWhile_append_of_pos hdigits]
  cases rest with
  | nil => rfl
  | cons c cs => rw [List.dropWhile_cons_of_neg (by simp [hrest c rfl])]

theorem Ends.take (hrest : Ends rest) (k : Nat) : Ends (rest.take k) := by
  cases rest with
  | nil => simpa using hrest
  | cons c cs =>
    cases k with
    | zero => simp [Ends]
    | succ k => exact ends_cons (hrest c rfl) _

theorem readNumber_padded {limit : Nat} (hlimit : (padded width n).length ≤ limit) (hrest : Ends rest) :
    readNumber limit (padded width n ++ rest) = some (n, rest) := by
  have hdigits : ((padded width n ++ rest).take limit).takeWhile Char.isDigit = padded width n := by
    rw [List.take_append, List.take_of_length_le hlimit]
    exact takeWhile_digits (isDigit_padded width n) (hrest.take _)
  simp only [readNumber, hdigits, isEmpty_padded, ofDigitChars_padded, List.drop_left, Bool.false_eq_true, if_false]

theorem readNumber_two (h : n < 100) (hrest : Ends rest) : readNumber 2 (padded 2 n ++ rest) = some (n, rest) :=
  readNumber_padded (Nat.le_of_eq (length_padded_of_lt (by decide) h)) hrest

theorem trimStart_padded (width n : Nat) (rest : List Char) :
    Text.trimStart (padded width n ++ rest) = padded width n ++ rest := by
  obtain ⟨c, cs, hcs, hc⟩ := exists_cons_padded width n
  rw [hcs, List.cons_append, Text.trimStart_eq_self (isBlank_of_isDigit hc)]

/-! ### Parts -/

theorem trimStart_writeYear (year : Int) (rest : List Char) :
    Text.trimStart (writeYear year ++ rest) = writeYear year ++ rest := by
  unfold writeYear
  split
  · exact trimStart_padded _ _ _
  · split <;> rfl

theorem readYear_writeYear (year : Int) (hrest : Ends rest) : readYear (writeYear year ++ rest) =
    some (year, rest) := by
  have hany : ∀ width n : Nat, readNumber (padded width n ++ rest).length (padded width n ++ rest) = some (n, rest) :=
    fun width n => readNumber_padded (by simp) hrest
  unfold writeYear
  split
  · rename_i hfour
    obtain ⟨c, cs, hcs, hc⟩ := exists_cons_padded 4 year.toNat
    have hnumber : readNumber 4 (padded 4 year.toNat ++ rest) = some (year.toNat, rest) :=
      readNumber_padded (Nat.le_of_eq (length_padded_of_lt (by decide) (by omega))) hrest
    have hminus : c ≠ '-' := by rintro rfl; cases hc
    have hplus : c ≠ '+' := by rintro rfl; cases hc
    rw [hcs, List.cons_append] at hnumber ⊢
    rw [readYear.eq_3 _ (fun _ h => hminus (List.cons.inj h).1) fun _ h => hplus (List.cons.inj h).1, hnumber]
    exact congrArg (fun y => some (y, rest)) (Int.toNat_of_nonneg hfour.1)
  · split
    · rename_i hnegative
      rw [List.cons_append, readYear, hany]
      exact congrArg (fun y => some (y, rest)) (by omega)
    · rename_i hpositive
      rw [List.cons_append, readYear, hany]
      exact congrArg (fun y => some (y, rest)) (Int.natAbs_of_nonneg (Int.not_lt.mp hpositive))

theorem readMark_padded {mark : Char} (hmark : Text.isBlank mark = false) (width n : Nat) (rest : List Char) :
    readMark mark (mark :: (padded width n ++ rest)) = some (padded width n ++ rest) := by
  simp [readMark, Text.trimStart_eq_self hmark, trimStart_padded]

/-- Digits of a fraction count as much as nine digits with zeros behind them. -/
theorem readNanos_padded {nanos : Nat} (hwidth : 0 < width) (hnine : width ≤ 9) (h : n < 10 ^ width)
    (hnanos : n * 10 ^ (9 - width) = nanos) (hrest : Ends rest) :
    readNanos ('.' :: (padded width n ++ rest)) = some (nanos, rest) := by
  have hdigits := takeWhile_digits (isDigit_padded width n) hrest
  have hleft := dropWhile_digits (isDigit_padded width n) hrest
  have hlength := length_padded_of_lt hwidth h
  have hvalue : Nat.ofDigitChars 10 (((padded width n).take 9).rightpad 9 '0') 0 = nanos := by
    rw [List.take_of_length_le (by omega), List.rightpad, Nat.ofDigitChars_append, Nat.ofDigitChars_replicate_zero,
      ofDigitChars_padded, hlength, Nat.mul_comm, hnanos]
  simp only [readNanos, hdigits, hleft, isEmpty_padded, hvalue, Bool.false_eq_true, if_false]

theorem readNanos_writeFraction {nanos : Nat} (h : nanos < nanosPerSecond) (hrest : Ends rest)
    (hpoint : '.' ∉ rest.head?) : readNanos (writeFraction .exact nanos ++ rest) = some (nanos, rest) := by
  unfold nanosPerSecond at h
  simp only [writeFraction]
  split
  · rename_i hzero
    rw [List.nil_append, readNanos.eq_2 _ fun cs hcs => hpoint (by simp [hcs]), hzero]
  · split
    · exact readNanos_padded (by decide) (by decide) (by omega) (by omega) hrest
    · split <;> exact readNanos_padded (by decide) (by decide) (by omega) (by omega) hrest

theorem ends_writeFraction (nanos : Nat) (hrest : Ends rest) : Ends (writeFraction .exact nanos ++ rest) := by
  simp only [writeFraction]
  split
  · exact hrest
  · split
    · exact ends_cons rfl _
    · split <;> exact ends_cons rfl _

/-! ### Dates -/

/-- No other instant is written in the same way: it is in no leap second but one at the end of a minute. -/
def HasOwnText (a : Instant) : Prop := a.nanos < nanosPerSecond ∨ a.seconds % 60 = 59

instance (a : Instant) : Decidable a.HasOwnText := by unfold HasOwnText; infer_instance

/-- What the text of an instant is read as: a leap second in the midst of a minute is taken for the second after it. -/
def readBack (a : Instant) : Instant :=
  if own : a.HasOwnText then a
  else
    ⟨a.seconds + 1, a.nanos - nanosPerSecond, by
      obtain ⟨hfirst, hlast, hnanos⟩ := a.representable
      obtain ⟨-, hmidst⟩ := not_or.mp own
      -- The very last second ends a minute.
      unfold lastSecond at hlast
      exact ⟨by omega, by unfold lastSecond; omega, by omega⟩⟩

theorem readBack_of_hasOwnText {a : Instant} (own : a.HasOwnText) : a.readBack = a := dif_pos own

theorem readBack_eq_self_iff {a : Instant} : a.readBack = a ↔ a.HasOwnText := by
  refine ⟨fun h => ?_, readBack_of_hasOwnText⟩
  by_cases own : a.HasOwnText
  · exact own
  · have hseconds := congrArg Instant.seconds h
    rw [readBack, dif_neg own] at hseconds
    dsimp only at hseconds
    omega

theorem hasOwnText_readBack (a : Instant) : a.readBack.HasOwnText := by
  unfold readBack
  split
  · assumption
  · have hnanos := a.representable.2.2
    refine Or.inl ?_
    dsimp only
    omega

/-- A leap second that is written is the second 60. -/
theorem leap_cases {a : Instant} (own : a.HasOwnText) :
    a.nanos / nanosPerSecond = 0 ∨ a.nanos / nanosPerSecond = 1 ∧ a.seconds % 60 = 59 := by
  have hnanos := a.representable.2.2
  unfold HasOwnText at own
  unfold nanosPerSecond at own hnanos ⊢
  omega

/-- The parts that are written of a date give the date again. -/
theorem ofClock?_parts {a : Instant} (own : a.HasOwnText) :
    let second := (a.seconds % 86400).toNat
    ofClock? (CalendarDate.ofDayNumber (a.seconds / 86400)) (second / 3600) (second / 60 % 60)
      (second % 60 + a.nanos / nanosPerSecond) (a.nanos % nanosPerSecond) 0 = some a := by
  intro second
  obtain ⟨hfirst, hlast, -⟩ := a.representable
  have hleap := leap_cases own
  have hnanos : a.nanos % nanosPerSecond + a.nanos / nanosPerSecond * nanosPerSecond = a.nanos := by
    rw [Nat.mul_comm, Nat.mod_add_div]
  have hsecond : (second : Int) = a.seconds % 86400 := Int.toNat_of_nonneg (Int.emod_nonneg _ (by decide))
  generalize a.nanos / nanosPerSecond = leap at hleap hnanos
  -- The second 60 stands for the second before it, and tells that this is over.
  have hsixty : (if second % 60 + leap = 60 then 1 else 0) = leap := by
    split <;> omega
  have hclock : a.seconds / 86400 * 86400 + (second / 3600 : Nat) * 3600 + (second / 60 % 60 : Nat) * 60 +
      (second % 60 + leap - leap : Nat) = a.seconds := by
    omega
  have hhour : second / 3600 < 24 := by omega
  have hminute : second / 60 % 60 < 60 := by omega
  have hmost : second % 60 + leap ≤ 60 := by omega
  have hof : of? (a.seconds - 0) a.nanos = some a := by
    rw [Int.sub_zero, of?, dif_pos a.representable]
  simp only [ofClock?, CalendarDate.valid_ofDayNumber, CalendarDate.dayNumber_ofDayNumber, hsixty, hclock, hhour,
    hminute, hmost, hnanos, hfirst, hlast, hof]
  rfl

theorem write_eq (a : Instant) :
    let date := CalendarDate.ofDayNumber (a.seconds / 86400)
    let second := (a.seconds % 86400).toNat
    a.write .exact =
      writeYear date.year ++ '-' :: (padded 2 date.month.toNat ++ '-' :: (padded 2 date.day.toNat ++
        'T' :: (padded 2 (second / 3600) ++ ':' :: (padded 2 (second / 60 % 60) ++
          ':' :: (padded 2 (second % 60 + a.nanos / nanosPerSecond) ++
            (writeFraction .exact (a.nanos % nanosPerSecond) ++ ['Z'])))))) := by
  simp [write]

/-- What a text is read as is written as this text. -/
theorem text_readBack (a : Instant) : a.readBack.text = a.text := by
  by_cases own : a.HasOwnText
  · rw [readBack_of_hasOwnText own]
  · have hnanos := a.representable.2.2
    obtain ⟨hleap, hmidst⟩ := not_or.mp own
    unfold nanosPerSecond at hnanos hleap
    -- The second after it is in the same minute.
    have hday : (a.seconds + 1) / 86400 = a.seconds / 86400 := by omega
    have hsecond : ((a.seconds + 1) % 86400).toNat = (a.seconds % 86400).toNat + 1 := by omega
    generalize hn : (a.seconds % 86400).toNat = second at hsecond
    have hhour : (second + 1) / 3600 = second / 3600 := by omega
    have hminute : (second + 1) / 60 % 60 = second / 60 % 60 := by omega
    have hlast : (second + 1) % 60 + (a.nanos - 1000000000) / 1000000000 = second % 60 +
      a.nanos / 1000000000 := by omega
    have hfraction : (a.nanos - 1000000000) % 1000000000 = a.nanos % 1000000000 := by omega
    rw [text, text, write_eq, write_eq, readBack, dif_neg own]
    simp only [nanosPerSecond, hday, hsecond, hn, hhour, hminute, hlast, hfraction]

/-- The text of a date with a text of its own is read as this date. -/
theorem read?_text_of_hasOwnText {a : Instant} (own : a.HasOwnText) : read? a.text = some a := by
  have hwrite := a.write_eq
  have hclock := ofClock?_parts own
  have hmonth := CalendarDate.month_ofDayNumber (a.seconds / 86400)
  have hday := CalendarDate.day_ofDayNumber (a.seconds / 86400)
  have hleap := leap_cases own
  generalize CalendarDate.ofDayNumber (a.seconds / 86400) = date at hwrite hclock hmonth hday
  generalize hsecond : (a.seconds % 86400).toNat = second at hwrite hclock
  obtain ⟨year, month, day⟩ := date
  dsimp only at hwrite hclock hmonth hday
  have hmonthTwo : month.toNat < 100 := by omega
  have hdayTwo : day.toNat < 100 := by omega
  have hhour : second / 3600 < 100 := by omega
  have hminute : second / 60 % 60 < 100 := by omega
  have hsixty : second % 60 + a.nanos / nanosPerSecond < 100 := by omega
  have hmonthBack : (month.toNat : Int) = month := Int.toNat_of_nonneg (by omega)
  have hdayBack : (day.toNat : Int) = day := Int.toNat_of_nonneg (by omega)
  have hnanos : readNanos (writeFraction .exact (a.nanos % nanosPerSecond) ++ ['Z']) =
      some (a.nanos % nanosPerSecond, ['Z']) :=
    readNanos_writeFraction (Nat.mod_lt _ (by decide)) (ends_cons rfl []) (by decide)
  have hdash : Text.isBlank '-' = false := rfl
  have hcolon : Text.isBlank ':' = false := rfl
  have hoffset : readOffset (Text.trimStart ['Z']) = some (0, []) := rfl
  rw [read?, text, String.toList_ofList, hwrite, trimStart_writeYear]
  -- Each part is read with all the text behind it for the rest; the letter before the time is passed over.
  refine Option.bind_eq_some_iff.mpr ⟨_, readYear_writeYear year (ends_cons rfl _), ?_⟩
  refine Option.bind_eq_some_iff.mpr ⟨_, readMark_padded hdash _ _ _, ?_⟩
  refine Option.bind_eq_some_iff.mpr ⟨_, readNumber_two hmonthTwo (ends_cons rfl _), ?_⟩
  refine Option.bind_eq_some_iff.mpr ⟨_, readMark_padded hdash _ _ _, ?_⟩
  refine Option.bind_eq_some_iff.mpr ⟨_, readNumber_two hdayTwo (ends_cons rfl _), ?_⟩
  refine Option.bind_eq_some_iff.mpr
    ⟨_, (congrArg _ (trimStart_padded _ _ _)).trans (readNumber_two hhour (ends_cons rfl _)), ?_⟩
  refine Option.bind_eq_some_iff.mpr ⟨_, readMark_padded hcolon _ _ _, ?_⟩
  refine Option.bind_eq_some_iff.mpr ⟨_, readNumber_two hminute (ends_cons rfl _), ?_⟩
  refine Option.bind_eq_some_iff.mpr ⟨_, readMark_padded hcolon _ _ _, ?_⟩
  refine Option.bind_eq_some_iff.mpr ⟨_, readNumber_two hsixty (ends_writeFraction _ (ends_cons rfl [])), ?_⟩
  refine Option.bind_eq_some_iff.mpr ⟨_, hnanos, ?_⟩
  refine Option.bind_eq_some_iff.mpr ⟨_, hoffset, ?_⟩
  dsimp only
  rw [hmonthBack, hdayBack]
  exact hclock

/-- The text of a date is read as this date, or as the second after it. -/
theorem read?_text (a : Instant) : read? a.text = some a.readBack := by
  rw [← text_readBack, read?_text_of_hasOwnText a.hasOwnText_readBack]

example : (⟨1483228799, 1500000000, by decide⟩ : Instant).text = "2016-12-31T23:59:60.500Z" := by decide +kernel

example : (⟨-62167219201, 1000, by decide⟩ : Instant).text = "-0001-12-31T23:59:59.000001Z" := by decide +kernel

end ProcessRuns.Instant
