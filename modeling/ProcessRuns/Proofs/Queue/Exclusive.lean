import Mathlib.Data.List.Perm.Basic
import ProcessRuns.Proofs.Queue.Packages

/-! # One package of a process at a time

The primary queue, the active and the running processes and the queues behind them are changed by different
activities. What ties them together is `Exclusive`, stated over the number of runs that each process has under
way; `Moves` lists what an activity may do to the queues, and each of these steps keeps it. -/

namespace ProcessRuns

namespace Scheduler

variable {s t : Scheduler} {p : Package} {n n' : ProcessId → Nat}

/-- The packages of a process on the primary queue. -/
def queuedCount (s : Scheduler) (pid : ProcessId) : Nat := s.queued.countP fun p => p.processId = pid

/-- A process with one package queued or under way is active, any other is idle; `n` counts the runs under way. -/
structure Exclusive (s : Scheduler) (n : ProcessId → Nat) : Prop where
  one : ∀ pid, s.queuedCount pid + n pid ≤ 1
  active : ∀ pid, pid ∈ s.active ↔ s.queuedCount pid + n pid = 1
  running : ∀ pid, pid ∈ s.running ↔ n pid = 1

/-- What an activity may do to the queues, with the runs under way before and after. -/
inductive Moves : Scheduler → (ProcessId → Nat) → Scheduler → (ProcessId → Nat) → Prop where
  | keep (s : Scheduler) (n : ProcessId → Nat) : Moves s n s n
  | enqueue {s : Scheduler} (n : ProcessId → Nat) {p : Package} (idle : s.isActive p.processId = false) :
      Moves s n (s.enqueue p) n
  | wait {s : Scheduler} (n : ProcessId → Nat) {p : Package} (active : s.isActive p.processId = true) :
      Moves s n (s.wait p) n
  | pop {s t : Scheduler} (n : ProcessId → Nat) {p : Package} (popped : s.pop? = some (p, t)) :
    Moves s n t fun id => n id + if p.processId = id then 1 else 0
  | finish {n n' : ProcessId → Nat} (s : Scheduler) {pid : ProcessId}
    (ends : ∀ id, n id = n' id + if pid = id then 1 else 0) :
    Moves s n (s.finish pid).2 n'
  | remove (s : Scheduler) (n : ProcessId → Nat) (pid : ProcessId) : Moves s n (s.remove pid).2 n

theorem Moves.tidy (h : Moves s n t n') (hs : s.Tidy) : t.Tidy := by
  cases h with
  | keep => exact hs
  | enqueue _ _ => exact hs.enqueue _
  | wait _ active => exact hs.wait active
  | pop _ popped => exact hs.pop? popped
  | finish _ _ => exact hs.finish _
  | remove => exact hs.remove _

theorem countP_queued_append (s : Scheduler) (p : Package) (pid : ProcessId) :
    (s.queued ++ [p]).countP (fun p => p.processId = pid) = s.queuedCount pid + if p.processId = pid then 1 else 0 := by
  rw [List.countP_append, List.countP_singleton, queuedCount]
  simp only [decide_eq_true_eq]

theorem countP_queued_filter (s : Scheduler) (pid id : ProcessId) :
    (s.queued.filter fun p => p.processId ≠ pid).countP (fun p => p.processId = id) =
      if id = pid then 0 else s.queuedCount id := by
  rw [List.countP_filter]
  split
  · rename_i h
    rw [List.countP_eq_zero]
    simp [h]
  · rename_i h
    refine List.countP_congr fun p _ => ?_
    simp only [ne_eq, Bool.and_eq_true, decide_eq_true_eq]
    exact ⟨fun hp => hp.1, fun hp => ⟨hp, fun hq => h (hp ▸ hq)⟩⟩

namespace Exclusive

theorem empty : ({} : Scheduler).Exclusive fun _ => 0 where
  one _ := Nat.zero_le 1
  active _ := by simp [queuedCount]
  running _ := by simp

theorem enqueue (h : s.Exclusive n) (idle : s.isActive p.processId = false) : (s.enqueue p).Exclusive n := by
  have hidle : p.processId ∉ s.active := fun ha => by simp [isActive_iff.mpr ha] at idle
  have hzero : s.queuedCount p.processId + n p.processId = 0 := by
    have h1 := h.one p.processId
    have h2 := mt (h.active p.processId).mpr hidle
    omega
  have hcount : ∀ pid, (s.enqueue p).queuedCount pid = s.queuedCount pid + if p.processId = pid then 1 else 0 :=
    countP_queued_append s p
  refine ⟨fun pid => ?_, fun pid => ?_, h.running⟩
  · rw [hcount]
    by_cases hp : p.processId = pid
    · subst hp
      simp only [if_true]
      omega
    · simpa [hp] using h.one pid
  · show pid ∈ adding p.processId s.active ↔ _
    rw [hcount, mem_adding]
    by_cases hp : p.processId = pid
    · subst hp
      simp only [true_or, if_true, true_iff]
      omega
    · simpa [hp, Ne.symm hp] using h.active pid

theorem wait (h : s.Exclusive n) (p : Package) : (s.wait p).Exclusive n := ⟨h.one, h.active, h.running⟩

theorem pop? (h : s.Exclusive n) (popped : s.pop? = some (p, t)) :
    t.Exclusive fun id => n id + if p.processId = id then 1 else 0 := by
  obtain ⟨hq, hr, ha, -⟩ := pop?_eq_some popped
  have hcount : ∀ pid, s.queuedCount pid = t.queuedCount pid + if p.processId = pid then 1 else 0 := fun pid => by
    rw [queuedCount, hq, List.countP_cons, queuedCount]
    simp only [decide_eq_true_eq]
  refine ⟨fun pid => ?_, fun pid => ?_, fun pid => ?_⟩
  · have h1 := h.one pid
    rw [hcount] at h1
    omega
  · have h1 := h.active pid
    rw [hcount] at h1
    rw [ha, h1]
    omega
  · have h1 := h.one pid
    rw [hcount] at h1
    rw [hr, mem_adding, h.running]
    by_cases hp : p.processId = pid
    · simp only [hp, if_true, true_or, true_iff] at h1 ⊢
      omega
    · simp [hp, Ne.symm hp]

theorem finish {pid : ProcessId} (tidy : s.Tidy) (h : s.Exclusive n)
    (ends : ∀ id, n id = n' id + if pid = id then 1 else 0) : (s.finish pid).2.Exclusive n' := by
  -- The process had one run under way, so nothing of it was queued, and it was active.
  have hone := h.one pid
  have hpid : n pid = n' pid + 1 := by simpa using ends pid
  have hother : ∀ id, id ≠ pid → n' id = n id := fun id hid => by simpa [Ne.symm hid] using (ends id).symm
  have hrunning : ∀ id, id ∈ dropping pid s.running ↔ n' id = 1 := fun id => by
    rw [mem_dropping, h.running]
    by_cases hid : id = pid
    · subst hid
      simp only [ne_eq, not_true_eq_false, and_false, false_iff]
      omega
    · simp [hid, hother id hid]
  rcases finish_cases s pid with ⟨p, rest, hq, -, hs⟩ | ⟨hq, -, hs⟩ <;> rw [hs]
  · -- The promoted package takes the place of the run.
    have hp : p.processId = pid := tidy.processId_of_mem (hq ▸ List.mem_cons_self)
    have hactive : pid ∈ s.active := tidy.behind pid (by simp [hq])
    refine ⟨fun id => ?_, fun id => ?_, hrunning⟩
    · show (s.queued ++ [p]).countP _ + n' id ≤ 1
      rw [countP_queued_append, hp]
      by_cases hid : id = pid
      · subst hid
        simp only [if_true]
        omega
      · simpa [Ne.symm hid, hother id hid] using h.one id
    · show id ∈ s.active ↔ (s.queued ++ [p]).countP _ + n' id = 1
      rw [countP_queued_append, hp]
      by_cases hid : id = pid
      · subst hid
        simp only [hactive, if_true, true_iff]
        omega
      · simpa [Ne.symm hid, hother id hid] using h.active id
  · refine ⟨fun id => ?_, fun id => ?_, hrunning⟩
    · have := h.one id
      have := ends id
      show s.queuedCount id + n' id ≤ 1
      omega
    · show id ∈ dropping pid s.active ↔ s.queuedCount id + n' id = 1
      rw [mem_dropping, h.active]
      by_cases hid : id = pid
      · subst hid
        simp only [ne_eq, not_true_eq_false, and_false, false_iff]
        omega
      · simp [hid, hother id hid]

theorem remove (h : s.Exclusive n) (pid : ProcessId) : (s.remove pid).2.Exclusive n := by
  have hcount : ∀ id, (s.remove pid).2.queuedCount id = if id = pid then 0 else s.queuedCount id :=
    countP_queued_filter s pid
  have hone := h.one pid
  -- The process stays active exactly if a run of it is under way.
  have hactive : ∀ id, id ∈ (s.remove pid).2.active ↔ id ∈ s.active ∧ (id = pid → n pid = 1) := fun id => by
    show id ∈ (if pid ∈ s.running then s.active else dropping pid s.active) ↔ _
    split
    · rename_i hr
      exact ⟨fun ha => ⟨ha, fun _ => (h.running pid).mp hr⟩, fun ha => ha.1⟩
    · rename_i hr
      rw [mem_dropping]
      exact and_congr_right fun _ => ⟨fun hne he => absurd he hne, fun hn he => hr ((h.running pid).mpr (hn he))⟩
  refine ⟨fun id => ?_, fun id => ?_, h.running⟩
  · have := h.one id
    rw [hcount]
    split <;> omega
  · rw [hactive, hcount, h.active]
    by_cases hid : id = pid
    · subst hid
      simp only [true_imp_iff, if_true]
      omega
    · simp [hid]

theorem length_active (h : s.Exclusive n) (tidy : s.Tidy) : s.active.length = s.queued.length + s.running.length := by
  have hperm : s.active.Perm (s.queued.map (·.processId) ++ s.running) := by
    refine List.perm_iff_count.mpr fun pid => ?_
    have hq : (s.queued.map (·.processId)).count pid = s.queuedCount pid := by
      rw [List.count, List.countP_map, queuedCount]
      rfl
    rw [List.count_append, tidy.active.count, tidy.running.count, hq]
    have := h.one pid
    have := h.active pid
    have := h.running pid
    split <;> split <;> simp_all <;> omega
  simpa using hperm.length_eq

end Exclusive

theorem Moves.exclusive (h : Moves s n t n') (tidy : s.Tidy) (hs : s.Exclusive n) : t.Exclusive n' := by
  cases h with
  | keep => exact hs
  | enqueue _ idle => exact hs.enqueue idle
  | wait _ _ => exact hs.wait _
  | pop _ popped => exact hs.pop? popped
  | finish _ ends => exact hs.finish tidy ends
  | remove => exact hs.remove _

end Scheduler

end ProcessRuns
