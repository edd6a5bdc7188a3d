/-! # Dictionaries

Entries under text keys, each key once, in the order of the keys. -/

namespace ProcessRuns

/-- The entries of a dictionary in the order of their keys. -/
abbrev Dictionary (α : Type) := List (String × α)

namespace Dictionary

variable {α : Type}

/-- The value under a key. -/
def get? (d : Dictionary α) (key : String) : Option α :=
  (d.find? fun e => e.1 == key).map Prod.snd

/-- Puts a value under a key, in place of the one that was there. -/
def set (key : String) (value : α) : Dictionary α → Dictionary α
  | [] => [(key, value)]
  | e :: rest =>
    if key = e.1 then (key, value) :: rest
    else if key < e.1 then (key, value) :: e :: rest
    else e :: set key value rest

/-- The dictionary of a list of entries, in which the last entry of a key counts. -/
def ofEntries (entries : List (String × α)) : Dictionary α :=
  entries.foldl (fun d e => d.set e.1 e.2) []

theorem get?_cons (e : String × α) (d : Dictionary α) (key : String) :
    get? (e :: d) key = if e.1 = key then some e.2 else get? d key := by
  by_cases h : e.1 = key <;> simp [get?, h]

theorem get?_set_self (d : Dictionary α) (key : String) (value : α) : (set key value d).get? key = some value := by
  induction d with
  | nil => simp [set, get?_cons]
  | cons e rest ih =>
    unfold set
    split
    · simp [get?_cons]
    · split
      · simp [get?_cons]
      · next h _ => simp [get?_cons, Ne.symm h, ih]

theorem get?_set_of_ne (d : Dictionary α) {key other : String} (value : α) (h : other ≠ key) :
    (set key value d).get? other = d.get? other := by
  induction d with
  | nil => simp [set, get?_cons, Ne.symm h]
  | cons e rest ih =>
    unfold set
    split
    · next he => simp [get?_cons, ← he, Ne.symm h]
    · split
      · simp [get?_cons, Ne.symm h]
      · simp [get?_cons, ih]

theorem mem_of_get? {d : Dictionary α} {key : String} {value : α} (h : d.get? key = some value) : (key, value) ∈ d := by
  obtain ⟨e, he, rfl⟩ := Option.map_eq_some_iff.mp h
  have hkey : e.1 = key := by simpa using List.find?_some he
  exact hkey ▸ List.mem_of_find?_eq_some he

theorem get?_map {β : Type} (f : α → β) (d : Dictionary α) (key : String) :
    get? (d.map fun e => (e.1, f e.2)) key = (d.get? key).map f := by
  induction d with
  | nil => rfl
  | cons e rest ih =>
    rw [List.map_cons, get?_cons, get?_cons, ih]
    split <;> rfl

theorem set_map {β : Type} (f : α → β) (d : Dictionary α) (key : String) (value : α) :
    set key (f value) (d.map fun e => (e.1, f e.2)) = (set key value d).map fun e => (e.1, f e.2) := by
  induction d with
  | nil => rfl
  | cons e rest ih =>
    rw [List.map_cons, set, set, ih]
    split
    · rfl
    · split <;> rfl

theorem get?_append (d d' : Dictionary α) (key : String) : get? (d ++ d') key = (get? d key).or (get? d' key) := by
  rw [get?, get?, get?, List.find?_append, Option.map_or]

/-- Of the entries under one key the last counts. -/
theorem get?_ofEntries (entries : List (String × α)) (key : String) :
    (ofEntries entries).get? key = get? entries.reverse key := by
  suffices hfold : ∀ d : Dictionary α,
      get? (entries.foldl (fun d e => d.set e.1 e.2) d) key = (get? entries.reverse key).or (d.get? key) by
    rw [ofEntries, hfold]
    exact Option.or_none
  induction entries with
  | nil => exact fun _ => rfl
  | cons e entries ih =>
    intro d
    rw [List.foldl_cons, ih, List.reverse_cons, get?_append, Option.or_assoc]
    congr 1
    by_cases hkey : key = e.1
    · rw [hkey, get?_set_self, get?_cons, if_pos rfl]
      rfl
    · rw [get?_set_of_ne _ _ hkey, get?_cons, if_neg (Ne.symm hkey)]
      rfl

/-! ### The order of the keys -/

/-- The keys go up, so each key is there once. -/
def Sorted (d : Dictionary α) : Prop := d.Pairwise fun a b => a.1 < b.1

theorem mem_set {key : String} {value : α} {d : Dictionary α} {e : String × α} (h : e ∈ set key value d) :
    e = (key, value) ∨ e ∈ d := by
  induction d with
  | nil => exact Or.inl (List.mem_singleton.mp h)
  | cons a rest ih =>
    unfold set at h
    split at h
    · rcases List.mem_cons.mp h with h | h
      · exact Or.inl h
      · exact Or.inr (List.mem_cons_of_mem a h)
    · split at h
      · exact List.mem_cons.mp h
      · rcases List.mem_cons.mp h with h | h
        · exact Or.inr (h ▸ List.mem_cons_self)
        · exact (ih h).imp_right (List.mem_cons_of_mem a)

theorem mem_ofEntries {entries : List (String × α)} {e : String × α} (h : e ∈ ofEntries entries) : e ∈ entries := by
  suffices hfold : ∀ d : Dictionary α, e ∈ entries.foldl (fun d e => d.set e.1 e.2) d → e ∈ entries ∨ e ∈ d by
    exact (hfold [] h).resolve_right List.not_mem_nil
  clear h
  induction entries with
  | nil => exact fun _ h => Or.inr h
  | cons a entries ih =>
    intro d h
    rcases ih _ h with h | h
    · exact Or.inl (List.mem_cons_of_mem a h)
    · rcases mem_set h with rfl | h
      · exact Or.inl List.mem_cons_self
      · exact Or.inr h

theorem lt_of_ne_of_not_lt {a b : String} (hne : a ≠ b) (h : ¬ a < b) : b < a :=
  Classical.byContradiction fun h' => hne (String.le_antisymm h' h)

theorem Sorted.set {d : Dictionary α} (h : d.Sorted) (key : String) (value : α) :
    Sorted (Dictionary.set key value d) := by
  induction d with
  | nil => exact List.pairwise_singleton _ _
  | cons a rest ih =>
    obtain ⟨hfirst, hrest⟩ := List.pairwise_cons.mp h
    unfold Dictionary.set
    split
    · rename_i hkey
      exact List.pairwise_cons.mpr ⟨fun e he => hkey ▸ hfirst e he, hrest⟩
    · rename_i hne
      split
      · rename_i hlt
        refine List.pairwise_cons.mpr ⟨fun e he => ?_, h⟩
        rcases List.mem_cons.mp he with rfl | he
        · exact hlt
        · exact String.lt_trans hlt (hfirst e he)
      · rename_i hlt
        refine List.pairwise_cons.mpr ⟨fun e he => ?_, ih hrest⟩
        rcases mem_set he with rfl | he
        · exact lt_of_ne_of_not_lt hne hlt
        · exact hfirst e he

theorem set_last {d : Dictionary α} {key : String} (h : ∀ e ∈ d, e.1 < key) (value : α) :
    set key value d = d ++ [(key, value)] := by
  induction d with
  | nil => rfl
  | cons a rest ih =>
    have hlt : a.1 < key := h a List.mem_cons_self
    have hne : key ≠ a.1 := fun he => String.lt_irrefl key (he ▸ hlt)
    have hnot : ¬ key < a.1 := fun h' => String.lt_irrefl key (String.lt_trans h' hlt)
    rw [set, if_neg hne, if_neg hnot, ih fun e he => h e (List.mem_cons_of_mem a he)]
    rfl

/-- Entries that are in order are a dictionary. -/
theorem Sorted.ofEntries {d : Dictionary α} (h : d.Sorted) : ofEntries d = d := by
  suffices hfold : ∀ (rest before : Dictionary α), Sorted (before ++ rest) →
      rest.foldl (fun d e => d.set e.1 e.2) before = before ++ rest by
    exact hfold d [] h
  intro rest
  induction rest with
  | nil => exact fun before _ => (List.append_nil before).symm
  | cons e rest ih =>
    intro before hsorted
    obtain ⟨-, -, hcross⟩ := List.pairwise_append.mp hsorted
    rw [List.foldl_cons, set_last fun a ha => hcross a ha e List.mem_cons_self, ih _ (by simpa using hsorted)]
    simp

theorem sorted_ofEntries (entries : List (String × α)) : (ofEntries entries).Sorted := by
  suffices hfold : ∀ d : Dictionary α, d.Sorted → Sorted (entries.foldl (fun d e => d.set e.1 e.2) d) by
    exact hfold [] .nil
  induction entries with
  | nil => exact fun _ h => h
  | cons e entries ih => exact fun d h => ih _ (h.set e.1 e.2)

theorem get?_eq_none {d : Dictionary α} {key : String} (h : ∀ e ∈ d, key < e.1) : d.get? key = none := by
  rw [get?, Option.map_eq_none_iff, List.find?_eq_none]
  intro e he heq
  exact String.lt_irrefl key (eq_of_beq heq ▸ h e he)

/-- A dictionary is what it says under each key. -/
theorem Sorted.ext {d d' : Dictionary α} (h : d.Sorted) (h' : d'.Sorted) (hget : ∀ key, d.get? key = d'.get? key) :
    d = d' := by
  induction d generalizing d' with
  | nil =>
    cases d' with
    | nil => rfl
    | cons e' rest' => simpa [get?, get?_cons] using hget e'.1
  | cons e rest ih =>
    cases d' with
    | nil => simpa [get?, get?_cons] using hget e.1
    | cons e' rest' =>
      obtain ⟨hfirst, hrest⟩ := List.pairwise_cons.mp h
      obtain ⟨hfirst', hrest'⟩ := List.pairwise_cons.mp h'
      have hkeys : e.1 = e'.1 := by
        refine Classical.byContradiction fun hne => ?_
        by_cases hlt : e.1 < e'.1
        · have hnone := get?_eq_none (List.forall_mem_cons.mpr ⟨hlt, fun a ha => String.lt_trans hlt (hfirst' a ha)⟩)
          simp [← hget, get?_cons] at hnone
        · have hlt := lt_of_ne_of_not_lt hne hlt
          have hnone := get?_eq_none (List.forall_mem_cons.mpr ⟨hlt, fun a ha => String.lt_trans hlt (hfirst a ha)⟩)
          simp [hget, get?_cons] at hnone
      have hvalue : e.2 = e'.2 := by simpa [get?_cons, hkeys] using hget e.1
      have htail : ∀ key, get? rest key = get? rest' key := by
        intro key
        by_cases hkey : e.1 = key
        · rw [get?_eq_none (hkey ▸ hfirst), get?_eq_none (hkey ▸ hkeys ▸ hfirst')]
        · simpa [get?_cons, hkey, hkeys ▸ hkey] using hget key
      rw [Prod.ext hkeys hvalue, ih hrest hrest' htail]

/-- Values under different keys can be put there in either order. -/
theorem Sorted.set_comm {d : Dictionary α} (h : d.Sorted) {key key' : String} (hne : key ≠ key') (value value' : α) :
    (d.set key value).set key' value' = (d.set key' value').set key value := by
  refine ((h.set _ _).set _ _).ext ((h.set _ _).set _ _) fun other => ?_
  by_cases hother : other = key
  · rw [hother, get?_set_self, get?_set_of_ne _ _ hne, get?_set_self]
  · rw [get?_set_of_ne _ value hother]
    by_cases hother' : other = key'
    · rw [hother', get?_set_self, get?_set_self]
    · rw [get?_set_of_ne _ _ hother', get?_set_of_ne _ _ hother', get?_set_of_ne _ _ hother]

end Dictionary

end ProcessRuns
