/-! # Keyed collections

Entries under distinct keys, in no order that matters. -/

namespace ProcessRuns

/-- At most one entry for each key. -/
structure Keyed (κ α : Type) where
  entries : List (κ × α) := []
deriving DecidableEq, Repr

namespace Keyed

variable {κ α : Type} [DecidableEq κ]

instance : EmptyCollection (Keyed κ α) := ⟨⟨[]⟩⟩
instance : Inhabited (Keyed κ α) := ⟨⟨[]⟩⟩

/-- How many entries there are. -/
def size (m : Keyed κ α) : Nat := m.entries.length

/-- The keys of all entries. -/
def keys (m : Keyed κ α) : List κ := m.entries.map Prod.fst

/-- The values of all entries. -/
def values (m : Keyed κ α) : List α := m.entries.map Prod.snd

/-- The value under a key. -/
def get? (m : Keyed κ α) (key : κ) : Option α :=
  (m.entries.find? fun e => e.1 = key).map Prod.snd

/-- Takes the entry of a key away. -/
def erase (m : Keyed κ α) (key : κ) : Keyed κ α := ⟨m.entries.filter fun e => e.1 ≠ key⟩

/-- Puts a value under a key: at the place of the entry that was there, or behind all others. -/
def put (key : κ) (value : α) : List (κ × α) → List (κ × α)
  | [] => [(key, value)]
  | e :: rest => if e.1 = key then (key, value) :: rest else e :: put key value rest

/-- Puts a value under a key, in place of the one that was there. -/
def set (m : Keyed κ α) (key : κ) (value : α) : Keyed κ α := ⟨put key value m.entries⟩

/-- Changes the entry of a key, where there is one. -/
def modify (m : Keyed κ α) (key : κ) (f : α → α) : Keyed κ α :=
  ⟨m.entries.map fun e => if e.1 = key then (e.1, f e.2) else e⟩

theorem get?_empty (key : κ) : (∅ : Keyed κ α).get? key = none := rfl

@[simp] theorem get?_erase_self (m : Keyed κ α) (key : κ) : (m.erase key).get? key = none := by
  simp [get?, erase, List.find?_eq_none]

theorem get?_erase_of_ne (m : Keyed κ α) {key other : κ} (h : other ≠ key) :
    (m.erase key).get? other = m.get? other := by
  unfold get? erase
  congr 1
  rw [List.find?_filter]
  congr 1
  funext e
  by_cases he : e.1 = other <;> simp [he, h]

theorem get?_cons (e : κ × α) (rest : List (κ × α)) (key : κ) :
    get? ⟨e :: rest⟩ key = if e.1 = key then some e.2 else get? ⟨rest⟩ key := by
  by_cases h : e.1 = key <;> simp [get?, h]

@[simp] theorem get?_set_self (m : Keyed κ α) (key : κ) (value : α) : (m.set key value).get? key = some value := by
  obtain ⟨entries⟩ := m
  induction entries with
  | nil => simp [set, put, get?_cons]
  | cons e rest ih =>
    by_cases h : e.1 = key
    · simp [set, put, h, get?_cons]
    · simpa [set, put, h, get?_cons] using ih

theorem get?_set_of_ne (m : Keyed κ α) {key other : κ} (value : α) (h : other ≠ key) :
    (m.set key value).get? other = m.get? other := by
  obtain ⟨entries⟩ := m
  induction entries with
  | nil => simp [set, put, get?_cons, Ne.symm h]
  | cons e rest ih =>
    by_cases he : e.1 = key
    · simp [set, put, he, get?_cons, Ne.symm h]
    · simp only [set, put, he, if_false, get?_cons] at ih ⊢
      rw [ih]

theorem set_set (m : Keyed κ α) (key : κ) (a b : α) : (m.set key a).set key b = m.set key b := by
  obtain ⟨entries⟩ := m
  suffices hput : put key b (put key a entries) = put key b entries by rw [set, set, set, hput]
  induction entries with
  | nil => simp [put]
  | cons e rest ih =>
    by_cases he : e.1 = key
    · simp [put, he]
    · simp [put, he, ih]

/-- An entry that is put back leaves all as it was. -/
theorem set_same {m : Keyed κ α} {key : κ} {value : α} (h : m.get? key = some value) : m.set key value = m := by
  obtain ⟨entries⟩ := m
  suffices hput : put key value entries = entries by rw [set, hput]
  induction entries with
  | nil => cases h
  | cons e rest ih =>
    rw [get?_cons] at h
    by_cases he : e.1 = key
    · rw [if_pos he, Option.some.injEq] at h
      simp [put, ← he, ← h]
    · rw [if_neg he] at h
      simp [put, he, ih h]

end Keyed

end ProcessRuns
