/-! # Instants

Points of Coordinated Universal Time with a resolution of one nanosecond, over the years -262143 to 262142. A
leap second belongs to the second before it, which then has a thousand million nanoseconds or more; it may follow any
second, though only one at the end of a minute has a text of its own. -/

namespace ProcessRuns

namespace Instant

/-- The first second that can be represented, the start of the year -262143. -/
def firstSecond : Int := -8334601228800

/-- The last second that can be represented, the end of the year 262142. -/
def lastSecond : Int := 8210266876799

/-- The nanoseconds of a second that no leap second follows. -/
def nanosPerSecond : Nat := 1000000000

/-- The second is in range, and one leap second at most follows it. -/
def Representable (seconds : Int) (nanos : Nat) : Prop :=
  firstSecond ≤ seconds ∧ seconds ≤ lastSecond ∧ nanos < 2 * nanosPerSecond

instance (seconds : Int) (nanos : Nat) : Decidable (Representable seconds nanos) := by
  unfold Representable; infer_instance

end Instant

/-- A point in time by its second and the nanoseconds in it. -/
structure Instant where
  /-- Seconds since 1970-01-01, negative before. -/
  seconds : Int
  nanos : Nat
  representable : Instant.Representable seconds nanos
deriving DecidableEq

namespace Instant

/-- The start of 1970. -/
def epoch : Instant := ⟨0, 0, by decide⟩

instance : Inhabited Instant := ⟨epoch⟩

/-- The instant of a second and its nanoseconds, where there is one. -/
def of? (seconds : Int) (nanos : Nat) : Option Instant :=
  if h : Representable seconds nanos then some ⟨seconds, nanos, h⟩ else none

/-- Instants are ordered by second, then by nanosecond. -/
protected def lt (a b : Instant) : Prop := a.seconds < b.seconds ∨ (a.seconds = b.seconds ∧ a.nanos < b.nanos)

/-- One date is not after another. -/
protected def le (a b : Instant) : Prop := a.seconds < b.seconds ∨ (a.seconds = b.seconds ∧ a.nanos ≤ b.nanos)

instance : LT Instant := ⟨Instant.lt⟩
instance : LE Instant := ⟨Instant.le⟩
instance (a b : Instant) : Decidable (a < b) := by unfold LT.lt instLT Instant.lt; infer_instance
instance (a b : Instant) : Decidable (a ≤ b) := by unfold LE.le instLE Instant.le; infer_instance

/-- The later of two instants. -/
def latest (a b : Instant) : Instant := if a ≤ b then b else a

/-- The instant a whole number of seconds later; a leap second is left behind by any step. -/
def plus? (a : Instant) (seconds : Nat) : Option Instant :=
  if seconds = 0 then some a else of? (a.seconds + seconds) (a.nanos % nanosPerSecond)

theorem seconds_of_plus? {a b : Instant} {n : Nat} (h : a.plus? n = some b) : b.seconds = a.seconds + n := by
  unfold plus? of? at h
  split at h
  · next hn => simp only [Option.some.injEq] at h; subst h; omega
  · split at h
    · simp only [Option.some.injEq] at h; subst h; rfl
    · simp at h

theorem seconds_le_of_le {a b : Instant} (h : a ≤ b) : a.seconds ≤ b.seconds := by
  rcases h with h | h <;> omega

variable {a b c : Instant} {n : Nat}

theorem eq_of_parts (hseconds : a.seconds = b.seconds) (hnanos : a.nanos = b.nanos) : a = b := by
  obtain ⟨seconds, nanos, representable⟩ := a
  obtain ⟨seconds', nanos', representable'⟩ := b
  cases hseconds
  cases hnanos
  rfl

/-! ### The order -/

theorem le_iff : a ≤ b ↔ a.seconds < b.seconds ∨ a.seconds = b.seconds ∧ a.nanos ≤ b.nanos := Iff.rfl

theorem lt_iff : a < b ↔ a.seconds < b.seconds ∨ a.seconds = b.seconds ∧ a.nanos < b.nanos := Iff.rfl

theorem le_refl (a : Instant) : a ≤ a := Or.inr ⟨rfl, Nat.le_refl _⟩

theorem le_trans (hab : a ≤ b) (hbc : b ≤ c) : a ≤ c := by
  rw [le_iff] at hab hbc ⊢
  omega

theorem le_total (a b : Instant) : a ≤ b ∨ b ≤ a := by
  rw [le_iff, le_iff]
  omega

theorem le_antisymm (hab : a ≤ b) (hba : b ≤ a) : a = b := by
  rw [le_iff] at hab hba
  obtain ⟨hseconds, hnanos⟩ : a.seconds = b.seconds ∧ a.nanos = b.nanos := by omega
  exact eq_of_parts hseconds hnanos

theorem not_le_iff : ¬a ≤ b ↔ b < a := by
  rw [le_iff, lt_iff]
  omega

/-! ### Steps -/

theorem plus?_eq_some_iff : a.plus? n = some b ↔
    b.seconds = a.seconds + n ∧ b.nanos = if n = 0 then a.nanos else a.nanos % nanosPerSecond := by
  constructor
  · intro h
    refine ⟨seconds_of_plus? h, ?_⟩
    unfold plus? of? at h
    split at h
    · rw [← Option.some.inj h, if_pos ‹_›]
    · rw [if_neg ‹_›]
      split at h
      · rw [← Option.some.inj h]
      · cases h
  · rintro ⟨hseconds, hnanos⟩
    unfold plus? of?
    split
    · rename_i hn
      rw [if_pos hn] at hnanos
      exact congrArg some (eq_of_parts (by omega) hnanos.symm)
    · rename_i hn
      rw [if_neg hn] at hnanos
      have hb := b.representable
      rw [hseconds, hnanos] at hb
      rw [dif_pos hb]
      exact congrArg some (eq_of_parts hseconds.symm hnanos.symm)

/-- A step leads to a date exactly if its second is still one. -/
theorem plus?_eq_none_iff : a.plus? n = none ↔ lastSecond < a.seconds + n := by
  obtain ⟨hfirst, hlast, -⟩ := a.representable
  unfold plus?
  split
  · simp only [reduceCtorEq, false_iff]
    omega
  · have hfraction : a.nanos % nanosPerSecond < nanosPerSecond := Nat.mod_lt _ (by decide)
    unfold of?
    split
    · rename_i h
      obtain ⟨-, hin, -⟩ := h
      simp only [reduceCtorEq, false_iff]
      omega
    · rename_i h
      refine ⟨fun _ => Int.not_le.mp fun hin => h ⟨by omega, hin, by omega⟩, fun _ => rfl⟩

/-- One step after another is a step as long as both. -/
theorem plus?_of_plus? {m : Nat} (h : a.plus? m = some b) (n : Nat) : b.plus? n = a.plus? (m + n) := by
  obtain ⟨hseconds, hnanos⟩ := plus?_eq_some_iff.mp h
  apply Option.ext
  intro c
  rw [plus?_eq_some_iff, plus?_eq_some_iff, hseconds, hnanos]
  have hsecond : a.seconds + m + n = a.seconds + (m + n : Nat) := by omega
  have hfraction : (if n = 0 then (if m = 0 then a.nanos else a.nanos % nanosPerSecond)
      else (if m = 0 then a.nanos else a.nanos % nanosPerSecond) % nanosPerSecond) =
      if m + n = 0 then a.nanos else a.nanos % nanosPerSecond := by
    by_cases hm : m = 0
    · simp [hm]
    · by_cases hn : n = 0 <;> simp [hm, hn]
  rw [hsecond, hfraction]

theorem le_of_plus? (h : a.plus? n = some b) : a ≤ b := by
  obtain ⟨hseconds, hnanos⟩ := plus?_eq_some_iff.mp h
  rw [le_iff]
  split at hnanos <;> omega

end Instant

end ProcessRuns
