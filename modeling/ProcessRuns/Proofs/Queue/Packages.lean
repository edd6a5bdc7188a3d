import Mathlib.Data.List.Nodup
import ProcessRuns.Queue.Scheduler

/-! # The packages of a scheduler

Every operation moves packages between its caller, the primary queue and the queues behind the processes; none
is lost and none is made up. `Tidy` is what the collections of a scheduler keep under any operation with any
arguments; the rest of the file says what each operation does to the packages as a whole. -/

namespace ProcessRuns

namespace Keyed
variable {κ α : Type} [DecidableEq κ]

/-! ### Entries -/

theorem keys_put (key : κ) (value : α) (entries : List (κ × α)) :
    (put key value entries).map Prod.fst =
      if key ∈ entries.map Prod.fst then entries.map Prod.fst else entries.map Prod.fst ++ [key] := by
  induction entries with
  | nil => rfl
  | cons e rest ih =>
    by_cases h : e.1 = key
    · simp [put, h]
    · simp only [put, h, if_false, List.map_cons, ih, List.mem_cons, Ne.symm h, false_or]
      split <;> rfl

theorem nodup_keys_set {m : Keyed κ α} (h : m.keys.Nodup) (key : κ) (value : α) : (m.set key value).keys.Nodup := by
  show ((put key value m.entries).map Prod.fst).Nodup
  rw [keys_put]
  split
  · exact h
  · rename_i hk
    exact List.nodup_append.mpr ⟨h, List.nodup_singleton key, fun a ha b hb hab => by
      rw [List.mem_singleton.mp hb] at hab
      exact hk (hab ▸ ha)⟩

theorem nodup_keys_erase {m : Keyed κ α} (h : m.keys.Nodup) (key : κ) : (m.erase key).keys.Nodup :=
  h.sublist (List.filter_sublist.map Prod.fst)

theorem mem_put {key : κ} {value : α} {e : κ × α} {entries : List (κ × α)} (h : e ∈ put key value entries) :
    e = (key, value) ∨ e ∈ entries := by
  induction entries with
  | nil => exact Or.inl (List.mem_singleton.mp h)
  | cons e' rest ih =>
    simp only [put] at h
    split at h
    · rcases List.mem_cons.mp h with h | h
      · exact Or.inl h
      · exact Or.inr (List.mem_cons_of_mem _ h)
    · rcases List.mem_cons.mp h with h | h
      · exact Or.inr (h ▸ List.mem_cons_self)
      · exact (ih h).imp_right (List.mem_cons_of_mem _)

theorem mem_of_get? {m : Keyed κ α} {key : κ} {value : α} (h : m.get? key = some value) :
    (key, value) ∈ m.entries := by
  obtain ⟨e, he, rfl⟩ := Option.map_eq_some_iff.mp h
  have hk := List.find?_some he
  rw [← of_decide_eq_true hk]
  exact List.mem_of_find?_eq_some he

theorem get?_of_not_mem {m : Keyed κ α} {key : κ} (h : key ∉ m.keys) : m.get? key = none := by
  simp only [get?, Option.map_eq_none_iff, List.find?_eq_none, decide_eq_true_eq]
  exact fun e he hk => h (List.mem_map.mpr ⟨e, he, hk⟩)

/-! ### Queues under keys -/

theorem flatten_put_perm (key : κ) (value : List α) (entries : List (κ × List α)) :
    (((put key value entries).map Prod.snd).flatten ++ (get? ⟨entries⟩ key).getD []).Perm
      ((entries.map Prod.snd).flatten ++ value) := by
  induction entries with
  | nil => simp [put, get?]
  | cons e rest ih =>
    by_cases h : e.1 = key
    · simp only [put, h, if_true, List.map_cons, List.flatten_cons, get?_cons, Option.getD_some, List.append_assoc]
      refine List.perm_append_comm.trans ?_
      rw [← List.append_assoc]
      exact List.perm_append_comm.append_right value
    · simp only [put, h, if_false, List.map_cons, List.flatten_cons, get?_cons, List.append_assoc]
      exact ih.append_left e.2

theorem values_set_perm (m : Keyed κ (List α)) (key : κ) (value : List α) :
    ((m.set key value).values.flatten ++ (m.get? key).getD []).Perm (m.values.flatten ++ value) :=
  flatten_put_perm key value m.entries

theorem values_erase_perm {m : Keyed κ (List α)} (h : m.keys.Nodup) (key : κ) :
    m.values.flatten.Perm ((m.get? key).getD [] ++ (m.erase key).values.flatten) := by
  obtain ⟨entries⟩ := m
  induction entries with
  | nil => exact List.Perm.refl _
  | cons e rest ih =>
    have hrest : (rest.map Prod.fst).Nodup := (List.nodup_cons.mp h).2
    have hfresh : e.1 ∉ rest.map Prod.fst := (List.nodup_cons.mp h).1
    have ih := ih hrest
    by_cases hk : e.1 = key
    · have hnone : get? (⟨rest⟩ : Keyed κ (List α)) key = none := get?_of_not_mem (hk ▸ hfresh)
      simp only [hnone, Option.getD_none, List.nil_append] at ih
      simpa [values, erase, get?_cons, hk] using ih.append_left e.2
    · simp only [values, erase, get?_cons, hk, if_false, List.filter_cons, ne_eq, not_false_eq_true, decide_true,
        if_true, List.map_cons, List.flatten_cons] at ih ⊢
      refine (ih.append_left e.2).trans ?_
      rw [← List.append_assoc, ← List.append_assoc]
      exact List.perm_append_comm.append_right _

end Keyed

namespace Scheduler

variable {s t : Scheduler} {p : Package}

/-- The packages that were not dispatched: the primary queue, then those that wait. -/
def packages (s : Scheduler) : List Package := s.queued ++ s.waiting.values.flatten

/-- What the collections of a scheduler keep: the sets have no member twice, each process has one queue behind it
at most, no such queue is empty, it holds packages of its process only, and its process is active. -/
structure Tidy (s : Scheduler) : Prop where
  active : s.active.Nodup
  running : s.running.Nodup
  keys : s.waiting.keys.Nodup
  filled : ∀ e ∈ s.waiting.entries, e.2 ≠ []
  own : ∀ e ∈ s.waiting.entries, ∀ p ∈ e.2, p.processId = e.1
  behind : ∀ pid, s.waitQueue pid ≠ [] → pid ∈ s.active

/-- What the queues behind the processes keep whatever is done to them, by disciplined callers or not. -/
structure Sorted (s : Scheduler) : Prop where
  keys : s.waiting.keys.Nodup
  filled : ∀ e ∈ s.waiting.entries, e.2 ≠ []
  own : ∀ e ∈ s.waiting.entries, ∀ p ∈ e.2, p.processId = e.1

theorem Tidy.sorted (h : s.Tidy) : s.Sorted := ⟨h.keys, h.filled, h.own⟩

/-! ### Sets of processes -/

@[simp] theorem mem_adding {id pid : ProcessId} {set : List ProcessId} :
    id ∈ adding pid set ↔ id = pid ∨ id ∈ set := by
  unfold adding
  split
  · rename_i h
    exact ⟨Or.inr, fun h' => h'.elim (fun e => e ▸ h) fun h' => h'⟩
  · rw [List.mem_append, List.mem_singleton, or_comm]

@[simp] theorem mem_dropping {id pid : ProcessId} {set : List ProcessId} :
    id ∈ dropping pid set ↔ id ∈ set ∧ id ≠ pid := by
  simp [dropping]

theorem nodup_adding {set : List ProcessId} (h : set.Nodup) (pid : ProcessId) : (adding pid set).Nodup := by
  unfold adding
  split
  · exact h
  · rename_i hp
    refine List.nodup_append.mpr ⟨h, List.nodup_singleton pid, fun a ha b hb hab => hp ?_⟩
    rwa [← List.mem_singleton.mp hb, ← hab]

theorem nodup_dropping {set : List ProcessId} (h : set.Nodup) (pid : ProcessId) : (dropping pid set).Nodup :=
  h.sublist List.filter_sublist

/-! ### The queue behind a process -/

theorem waitQueue_eq (s : Scheduler) (pid : ProcessId) : s.waitQueue pid = (s.waiting.get? pid).getD [] := rfl

theorem mem_waitQueue_entry {pid : ProcessId} (h : p ∈ s.waitQueue pid) :
    ∃ e ∈ s.waiting.entries, e.1 = pid ∧ p ∈ e.2 := by
  rw [waitQueue_eq] at h
  cases hq : s.waiting.get? pid with
  | none => simp [hq] at h
  | some queue => exact ⟨(pid, queue), Keyed.mem_of_get? hq, rfl, by simpa [hq] using h⟩

theorem Sorted.processId_of_mem (h : s.Sorted) {pid : ProcessId} (hp : p ∈ s.waitQueue pid) : p.processId = pid := by
  obtain ⟨e, he, rfl, hpe⟩ := mem_waitQueue_entry hp
  exact h.own e he p hpe

theorem Tidy.processId_of_mem (h : s.Tidy) {pid : ProcessId} (hp : p ∈ s.waitQueue pid) : p.processId = pid :=
  h.sorted.processId_of_mem hp

theorem mem_packages_of_waiting {pid : ProcessId} (h : p ∈ s.waitQueue pid) : p ∈ s.packages := by
  obtain ⟨e, he, -, hpe⟩ := mem_waitQueue_entry h
  exact List.mem_append_right _ (List.mem_flatten.mpr ⟨e.2, List.mem_map_of_mem he, hpe⟩)

theorem waitQueue_wait (s : Scheduler) (p : Package) (pid : ProcessId) :
    (s.wait p).waitQueue pid = if pid = p.processId then s.waitQueue pid ++ [p] else s.waitQueue pid := by
  by_cases h : pid = p.processId
  · subst h
    simp [wait, waitQueue]
  · simp [wait, waitQueue, Keyed.get?_set_of_ne _ _ h, h]

theorem waitQueue_keepWaiting (s : Scheduler) (pid : ProcessId) (rest : List Package) (id : ProcessId) :
    ((s.keepWaiting pid rest).get? id).getD [] = if id = pid then rest else s.waitQueue id := by
  unfold keepWaiting
  split
  · rename_i hrest
    rw [List.isEmpty_iff] at hrest
    by_cases h : id = pid
    · simp [h, hrest]
    · simp [Keyed.get?_erase_of_ne _ h, h, waitQueue]
  · by_cases h : id = pid
    · simp [h]
    · simp [Keyed.get?_set_of_ne _ _ h, h, waitQueue]

theorem waitQueue_erase (s : Scheduler) (pid : ProcessId) {t : Scheduler} (h : t.waiting = s.waiting.erase pid)
    (id : ProcessId) :
    t.waitQueue id = if id = pid then [] else s.waitQueue id := by
  by_cases hid : id = pid
  · simp [waitQueue, h, hid]
  · simp [waitQueue, h, hid, Keyed.get?_erase_of_ne _ hid]

/-! ### What each operation does to the packages -/

theorem packages_enqueue (s : Scheduler) (p : Package) : (s.enqueue p).packages.Perm (p :: s.packages) := by
  show ((s.queued ++ [p]) ++ s.waiting.values.flatten).Perm (p :: (s.queued ++ s.waiting.values.flatten))
  rw [List.append_assoc]
  exact List.perm_middle

theorem packages_wait (s : Scheduler) (p : Package) : (s.wait p).packages.Perm (p :: s.packages) := by
  have hset := Keyed.values_set_perm s.waiting p.processId (s.waitQueue p.processId ++ [p])
  rw [← waitQueue_eq, ← List.append_assoc] at hset
  -- The old queue stands on both sides; what is left is the new package.
  have hnew : (s.wait p).waiting.values.flatten.Perm (s.waiting.values.flatten ++ [p]) :=
    (List.perm_append_right_iff (s.waitQueue p.processId)).mp <|
      hset.trans <| by
        rw [List.append_assoc, List.append_assoc]
        exact List.perm_append_comm.append_left _
  show (s.queued ++ (s.wait p).waiting.values.flatten).Perm (p :: (s.queued ++ s.waiting.values.flatten))
  refine (hnew.append_left s.queued).trans ?_
  rw [← List.append_assoc]
  exact List.perm_append_singleton p _

theorem pop?_eq_some (h : s.pop? = some (p, t)) :
    s.queued = p :: t.queued ∧ t.running = adding p.processId s.running ∧ t.active = s.active ∧
      t.waiting = s.waiting := by
  unfold pop? at h
  split at h
  · cases h
  · rename_i q rest hq
    cases h
    exact ⟨hq, rfl, rfl, rfl⟩

theorem packages_pop? (h : s.pop? = some (p, t)) : s.packages = p :: t.packages := by
  obtain ⟨hq, -, -, hw⟩ := pop?_eq_some h
  simp [packages, hq, hw]

/-- The end of a run: the next waiting package moves to the primary queue, or the process becomes idle. -/
theorem finish_cases (s : Scheduler) (pid : ProcessId) :
    (∃ p rest, s.waitQueue pid = p :: rest ∧ (s.finish pid).1 = true ∧
      (s.finish pid).2 = { s with
        queued := s.queued ++ [p], running := dropping pid s.running, waiting := s.keepWaiting pid rest }) ∨
    (s.waitQueue pid = [] ∧ (s.finish pid).1 = false ∧
      (s.finish pid).2 = { s with
        active := dropping pid s.active, running := dropping pid s.running, waiting := s.waiting.erase pid }) := by
  have hq : ({ s with running := dropping pid s.running } : Scheduler).waitQueue pid = s.waitQueue pid := rfl
  unfold finish
  simp only [hq]
  split
  · rename_i p rest h
    exact Or.inl ⟨p, rest, h, rfl, rfl⟩
  · rename_i h
    exact Or.inr ⟨h, rfl, rfl⟩

theorem keepWaiting_perm (hk : s.waiting.keys.Nodup) {pid : ProcessId} {rest : List Package}
    (hq : s.waitQueue pid = p :: rest) :
    s.waiting.values.flatten.Perm (p :: (s.keepWaiting pid rest).values.flatten) := by
  unfold keepWaiting
  split
  · rename_i hrest
    have h := Keyed.values_erase_perm hk pid
    rwa [← waitQueue_eq, hq, List.isEmpty_iff.mp hrest] at h
  · have h := Keyed.values_set_perm s.waiting pid rest
    rw [← waitQueue_eq, hq] at h
    refine (List.perm_append_right_iff rest).mp (h.symm.trans ?_)
    exact List.perm_middle

theorem packages_finish (h : s.Sorted) (pid : ProcessId) : (s.finish pid).2.packages.Perm s.packages := by
  rcases finish_cases s pid with ⟨p, rest, hq, -, hs⟩ | ⟨hq, -, hs⟩
  · rw [hs]
    show ((s.queued ++ [p]) ++ (s.keepWaiting pid rest).values.flatten).Perm (s.queued ++ s.waiting.values.flatten)
    rw [List.append_assoc]
    exact (keepWaiting_perm h.keys hq).symm.append_left s.queued
  · rw [hs]
    have he := Keyed.values_erase_perm h.keys pid
    rw [← waitQueue_eq, hq] at he
    exact he.symm.append_left s.queued

theorem packages_remove (h : s.Sorted) (pid : ProcessId) :
    s.packages.Perm ((s.remove pid).1 ++ (s.remove pid).2.packages) := by
  have hw := Keyed.values_erase_perm h.keys pid
  rw [← waitQueue_eq] at hw
  have hq := (List.filter_append_perm (fun p : Package => decide (p.processId = pid)) s.queued).symm
  refine (hq.append hw).trans ?_
  simp only [remove, packages, List.append_assoc, ne_eq, decide_not]
  refine List.Perm.append_left _ ?_
  rw [← List.append_assoc, ← List.append_assoc]
  exact List.perm_append_comm.append_right _

/-! ### Every operation keeps the queues behind the processes sorted -/

namespace Sorted

theorem empty : ({} : Scheduler).Sorted where
  keys := List.nodup_nil
  filled _ he := absurd he List.not_mem_nil
  own _ he := absurd he List.not_mem_nil

theorem of_waiting (h : s.Sorted) (same : t.waiting = s.waiting) : t.Sorted :=
  ⟨same ▸ h.keys, same ▸ h.filled, same ▸ h.own⟩

/-- A process has other packages behind it, some and its own. -/
theorem set (h : s.Sorted) {pid : ProcessId} {queue : List Package} (ht : t.waiting = s.waiting.set pid queue)
    (some : queue ≠ []) (own : ∀ q ∈ queue, q.processId = pid) : t.Sorted where
  keys := ht ▸ Keyed.nodup_keys_set h.keys pid queue
  filled e he := by
    rcases Keyed.mem_put (ht ▸ he : e ∈ (s.waiting.set pid queue).entries) with rfl | he
    · exact some
    · exact h.filled e he
  own e he := by
    rcases Keyed.mem_put (ht ▸ he : e ∈ (s.waiting.set pid queue).entries) with rfl | he
    · exact own
    · exact h.own e he

theorem erase (h : s.Sorted) (pid : ProcessId) (ht : t.waiting = s.waiting.erase pid) : t.Sorted where
  keys := ht ▸ Keyed.nodup_keys_erase h.keys pid
  filled e he := h.filled e (List.mem_filter.mp (ht ▸ he : e ∈ (s.waiting.erase pid).entries)).1
  own e he := h.own e (List.mem_filter.mp (ht ▸ he : e ∈ (s.waiting.erase pid).entries)).1

theorem enqueue (h : s.Sorted) (p : Package) : (s.enqueue p).Sorted := h.of_waiting rfl

theorem wait (h : s.Sorted) (p : Package) : (s.wait p).Sorted := by
  refine h.set rfl (by simp) fun q hq => ?_
  rcases List.mem_append.mp hq with hq | hq
  · exact h.processId_of_mem hq
  · rw [List.mem_singleton.mp hq]

theorem pop? (h : s.Sorted) (hp : s.pop? = some (p, t)) : t.Sorted := by
  obtain ⟨-, -, -, hw⟩ := pop?_eq_some hp
  exact h.of_waiting hw

theorem finish (h : s.Sorted) (pid : ProcessId) : (s.finish pid).2.Sorted := by
  rcases finish_cases s pid with ⟨p, rest, hq, -, hs⟩ | ⟨-, -, hs⟩ <;> rw [hs]
  · by_cases hrest : rest.isEmpty = true
    · exact h.erase pid (by simp [keepWaiting, hrest])
    · have hw : s.keepWaiting pid rest = s.waiting.set pid rest := by simp [keepWaiting, hrest]
      refine h.set hw (by simpa using hrest) fun q hmem => ?_
      exact h.processId_of_mem (hq ▸ List.mem_cons_of_mem p hmem)
  · exact h.erase pid rfl

theorem remove (h : s.Sorted) (pid : ProcessId) : (s.remove pid).2.Sorted := h.erase pid rfl

end Sorted

/-! ### Every operation keeps the collections tidy -/

theorem isActive_iff {pid : ProcessId} : s.isActive pid = true ↔ pid ∈ s.active := decide_eq_true_iff

namespace Tidy

theorem of_sorted (h : s.Sorted) (active : s.active.Nodup) (running : s.running.Nodup)
    (behind : ∀ pid, s.waitQueue pid ≠ [] → pid ∈ s.active) : s.Tidy :=
  ⟨active, running, h.keys, h.filled, h.own, behind⟩

theorem empty : ({} : Scheduler).Tidy :=
  of_sorted .empty List.nodup_nil List.nodup_nil fun _ hw => absurd rfl hw

theorem enqueue (h : s.Tidy) (p : Package) : (s.enqueue p).Tidy :=
  of_sorted (h.sorted.enqueue p) (nodup_adding h.active _) h.running fun pid hw =>
    mem_adding.mpr (Or.inr (h.behind pid hw))

theorem wait (h : s.Tidy) (active : s.isActive p.processId = true) : (s.wait p).Tidy := by
  refine of_sorted (h.sorted.wait p) h.active h.running fun pid hw => ?_
  rw [waitQueue_wait] at hw
  by_cases hp : pid = p.processId
  · exact hp ▸ isActive_iff.mp active
  · exact h.behind pid (by rwa [if_neg hp] at hw)

theorem pop? (h : s.Tidy) (hp : s.pop? = some (p, t)) : t.Tidy := by
  obtain ⟨-, hr, ha, hw⟩ := pop?_eq_some hp
  refine of_sorted (h.sorted.pop? hp) (ha ▸ h.active) (hr ▸ nodup_adding h.running _) fun pid hq => ?_
  rw [waitQueue, hw] at hq
  exact ha ▸ h.behind pid hq

/-- A process may go from the active ones when nothing is behind it any more. -/
theorem erase (h : s.Tidy) (pid : ProcessId) {t : Scheduler} (ht : t.waiting = s.waiting.erase pid)
    (hr : t.running.Nodup) (ha : t.active.Nodup) (stays : ∀ id ∈ s.active, id ≠ pid → id ∈ t.active) :
    t.Tidy := by
  refine of_sorted (h.sorted.erase pid ht) ha hr fun id hw => ?_
  rw [waitQueue_erase s pid ht] at hw
  have hid : id ≠ pid := fun hid => hw (if_pos hid)
  exact stays id (h.behind id (by rwa [if_neg hid] at hw)) hid

theorem finish (h : s.Tidy) (pid : ProcessId) : (s.finish pid).2.Tidy := by
  have hsorted := h.sorted.finish pid
  have hr := nodup_dropping h.running pid
  rcases finish_cases s pid with ⟨p, rest, hq, -, hs⟩ | ⟨-, -, hs⟩ <;> rw [hs] at hsorted ⊢
  · refine of_sorted hsorted h.active hr fun id hid => ?_
    by_cases hp : id = pid
    · exact hp ▸ h.behind pid (by simp [hq])
    · refine h.behind id fun hnil => hid ?_
      rw [waitQueue, waitQueue_keepWaiting, if_neg hp, hnil]
  · exact h.erase pid rfl hr (nodup_dropping h.active pid) fun id ha hid => mem_dropping.mpr ⟨ha, hid⟩

theorem remove (h : s.Tidy) (pid : ProcessId) : (s.remove pid).2.Tidy := by
  have hactive : (s.remove pid).2.active = if pid ∈ s.running then s.active else dropping pid s.active := rfl
  refine h.erase pid rfl h.running ?_ fun id ha hid => ?_ <;> rw [hactive] <;> split
  · exact h.active
  · exact nodup_dropping h.active pid
  · exact ha
  · exact mem_dropping.mpr ⟨ha, hid⟩

end Tidy

/-! ### The packages of one process -/

/-- The packages of a process in the order in which they are dispatched. -/
def lineOf (s : Scheduler) (pid : ProcessId) : List Package :=
  (s.queued.filter fun p => p.processId = pid) ++ s.waitQueue pid

theorem lineOf_enqueue (h : s.Tidy) (idle : s.isActive p.processId = false) (pid : ProcessId) :
    (s.enqueue p).lineOf pid = s.lineOf pid ++ if p.processId = pid then [p] else [] := by
  show ((s.queued ++ [p]).filter _) ++ s.waitQueue pid = _
  rw [List.filter_append, lineOf]
  by_cases hp : p.processId = pid
  · have hnil : s.waitQueue pid = [] := by
      by_contra hw
      rw [isActive_iff.mpr (hp ▸ h.behind pid hw)] at idle
      cases idle
    simp [hp, hnil]
  · simp [hp]

theorem lineOf_wait (s : Scheduler) (p : Package) (pid : ProcessId) :
    (s.wait p).lineOf pid = s.lineOf pid ++ if p.processId = pid then [p] else [] := by
  show (s.queued.filter _) ++ (s.wait p).waitQueue pid = _
  rw [waitQueue_wait, lineOf]
  by_cases hp : pid = p.processId
  · simp [hp]
  · simp [hp, Ne.symm hp]

theorem lineOf_pop? (h : s.pop? = some (p, t)) (pid : ProcessId) :
    s.lineOf pid = (if p.processId = pid then [p] else []) ++ t.lineOf pid := by
  obtain ⟨hq, -, -, hw⟩ := pop?_eq_some h
  rw [lineOf, hq, List.filter_cons, lineOf, waitQueue, waitQueue, hw]
  by_cases hp : p.processId = pid <;> simp [hp]

theorem lineOf_finish (h : s.Tidy) (pid id : ProcessId) : (s.finish pid).2.lineOf id = s.lineOf id := by
  rcases finish_cases s pid with ⟨p, rest, hq, -, hs⟩ | ⟨hq, -, hs⟩ <;> rw [hs]
  · have hp : p.processId = pid := h.processId_of_mem (hq ▸ List.mem_cons_self)
    show ((s.queued ++ [p]).filter _) ++ ((s.keepWaiting pid rest).get? id).getD [] = _
    rw [List.filter_append, waitQueue_keepWaiting, lineOf]
    by_cases hid : id = pid
    · simp [hid, hp, hq]
    · simp [hid, hp, Ne.symm hid]
  · show (s.queued.filter _) ++ _ = _
    rw [waitQueue_erase s pid rfl, lineOf]
    by_cases hid : id = pid
    · simp [hid, hq]
    · simp [hid]

theorem waitQueue_finish_subset (s : Scheduler) (pid id : ProcessId) :
    (s.finish pid).2.waitQueue id ⊆ s.waitQueue id := by
  rcases finish_cases s pid with ⟨p, rest, hq, -, hs⟩ | ⟨-, -, hs⟩ <;> rw [hs]
  · show ((s.keepWaiting pid rest).get? id).getD [] ⊆ _
    rw [waitQueue_keepWaiting]
    split
    · rename_i hid
      rw [hid, hq]
      exact List.subset_cons_self p rest
    · exact List.Subset.refl _
  · rw [waitQueue_erase s pid rfl]
    split
    · exact List.nil_subset _
    · exact List.Subset.refl _

theorem waitQueue_remove_subset (s : Scheduler) (pid id : ProcessId) :
    (s.remove pid).2.waitQueue id ⊆ s.waitQueue id := by
  rw [waitQueue_erase s pid rfl]
  split
  · exact List.nil_subset _
  · exact List.Subset.refl _

theorem remove_fst (s : Scheduler) (pid : ProcessId) : (s.remove pid).1 = s.lineOf pid := rfl

theorem lineOf_remove (s : Scheduler) (pid id : ProcessId) :
    (s.remove pid).2.lineOf id = if id = pid then [] else s.lineOf id := by
  show ((s.queued.filter _).filter _) ++ _ = _
  rw [waitQueue_erase s pid rfl, lineOf, List.filter_filter]
  by_cases hid : id = pid
  · simp [hid]
  · simp only [hid, if_false]
    congr 1
    refine List.filter_congr fun p _ => ?_
    by_cases hp : p.processId = id <;> simp [hp, hid]

end Scheduler

end ProcessRuns
