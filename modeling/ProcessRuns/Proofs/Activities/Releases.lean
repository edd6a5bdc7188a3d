import Mathlib.Data.List.Induction
import ProcessRuns.Proofs.Activities.Exclusion

/-! # Releases from outside

The end of a run releases its process. Whoever does so from outside does not have to wait for a run to end: the
queues take the process as released whether a run of it is over, under way or still to come. So a release from outside
does no harm exactly if its process is idle at that moment. -/

namespace ProcessRuns

namespace Scheduler

variable {s : Scheduler} {n : ProcessId → Nat} {pid : ProcessId}

/-- The queues of an idle process that is released stay as they are. -/
theorem Exclusive.finish_idle (h : s.Exclusive n) (tidy : s.Tidy) (idle : pid ∉ s.active) :
    (s.finish pid).2.Exclusive n := by
  have hnone : n pid ≠ 1 := fun hn => by
    have hone := h.one pid
    exact idle ((h.active pid).mpr (by omega))
  rcases finish_cases s pid with ⟨p, rest, hq, -, -⟩ | ⟨-, -, hs⟩
  · exact absurd (tidy.behind pid (by simp [hq])) idle
  · rw [hs]
    refine ⟨h.one, fun id => ?_, fun id => ?_⟩
    · show id ∈ dropping pid s.active ↔ s.queuedCount id + n id = 1
      rw [mem_dropping, ← h.active]
      exact ⟨fun ha => ha.1, fun ha => ⟨ha, fun hid => idle (hid ▸ ha)⟩⟩
    · show id ∈ dropping pid s.running ↔ n id = 1
      rw [mem_dropping, h.running]
      exact ⟨fun hr => hr.1, fun hr => ⟨hr, fun hid => hnone (hid ▸ hr)⟩⟩

/-- An active process that is released while its package is queued or under way has two of them if one was waiting,
and is taken for idle if none was. -/
theorem Exclusive.finish_active (h : s.Exclusive n) (tidy : s.Tidy) (active : pid ∈ s.active) :
    (s.waitQueue pid ≠ [] → (s.finish pid).2.queuedCount pid + n pid = 2) ∧
    (s.waitQueue pid = [] → (s.finish pid).2.queuedCount pid + n pid = 1 ∧ pid ∉ (s.finish pid).2.active) := by
  have hone := (h.active pid).mp active
  rcases finish_cases s pid with ⟨p, rest, hq, -, hs⟩ | ⟨hq, -, hs⟩ <;> rw [hs]
  · refine ⟨fun _ => ?_, fun hnil => absurd (hq.symm.trans hnil) (List.cons_ne_nil p rest)⟩
    have hp : p.processId = pid := tidy.processId_of_mem (hq ▸ List.mem_cons_self)
    show (s.queued ++ [p]).countP _ + n pid = 2
    rw [countP_queued_append, if_pos hp]
    omega
  · exact ⟨fun hne => absurd hq hne, fun _ => ⟨hone, fun ha => (mem_dropping.mp ha).2 rfl⟩⟩

end Scheduler

namespace Activities

variable {σ : Type} {s : Activities σ} {pid : ProcessId}

/-- No process has two packages queued or under way, and none has one without being active. -/
def KeepsApart (s : Activities σ) : Prop := ∀ pid,
  s.shared.scheduler.queuedCount pid + s.underWay pid ≤ 1 ∧
    (0 < s.shared.scheduler.queuedCount pid + s.underWay pid → pid ∈ s.shared.scheduler.active)

theorem Exclusive.keepsApart (h : s.Exclusive) : s.KeepsApart := fun pid =>
  ⟨h.2.one pid, fun hpos => (h.2.active pid).mpr (Nat.le_antisymm (h.2.one pid) hpos)⟩

theorem Exclusive.release_idle (h : s.Exclusive) (idle : pid ∉ s.shared.scheduler.active) : (s.release pid).Exclusive :=
  ⟨h.1.finish pid, h.2.finish_idle h.1 idle⟩

theorem Exclusive.release_active (h : s.Exclusive) (active : pid ∈ s.shared.scheduler.active) :
    ¬ (s.release pid).KeepsApart := by
  intro hapart
  obtain ⟨hone, hactive⟩ := hapart pid
  obtain ⟨htwo, hidle⟩ := h.2.finish_active h.1 active
  by_cases hq : s.shared.scheduler.waitQueue pid = []
  · obtain ⟨hcount, hnot⟩ := hidle hq
    exact hnot (hactive (Nat.lt_of_lt_of_eq Nat.zero_lt_one hcount.symm))
  · exact absurd (htwo hq ▸ hone : 2 ≤ 1) (by decide)

variable [Storage σ]

/-- A move that releases no process but an idle one keeps runs apart. -/
theorem Exclusive.step (h : s.Exclusive) {m : Move}
    (idle : ∀ pid, m = .release pid → pid ∉ s.shared.scheduler.active) :
    (s.step m).Exclusive := by
  cases hm : m.isRelease with
  | false =>
    have hmoves := moves_step (step_cases s m) hm
    exact ⟨hmoves.tidy h.1, hmoves.exclusive h.1 h.2⟩
  | true =>
    cases m with
    | release pid => exact h.release_idle (idle pid rfl)
    | _ => cases hm

theorem exclusive_after_idle {moves : List Move} (h : s.Exclusive)
    (idle : ∀ done pid rest, moves = done ++ .release pid :: rest → pid ∉ (s.after done).shared.scheduler.active) :
    (s.after moves).Exclusive := by
  induction moves using List.reverseRecOn with
  | nil => exact h
  | append_singleton moves m ih =>
    rw [after_append]
    refine Exclusive.step (ih fun done pid rest hmoves => ?_) fun pid hm => ?_
    · exact idle done pid (rest ++ [m]) (by rw [hmoves, List.append_assoc, List.cons_append])
    · exact idle moves pid [] (by rw [hm])

/-- As long as only idle processes are released from outside, no process has two packages queued or under way, and
none has one without being active. The first release of a process that is active breaks this at once: if a package was
waiting behind the process there are two then, and otherwise the process is taken for idle with its package queued or
under way. -/
theorem release_is_harmless_iff_idle (kind : ServiceKind) (instanceId cores workers : Nat) (logger : Logger)
    (registry : Registry) (storage : σ) (moves : List Move)
    (idle : ∀ done pid rest, moves = done ++ .release pid :: rest →
      pid ∉ ((ofService (Service.create kind instanceId cores workers logger registry storage)).after
        done).shared.scheduler.active)
    (pid : ProcessId) :
    let s := (ofService (Service.create kind instanceId cores workers logger registry storage)).after moves
    let t := s.step (.release pid)
    s.KeepsApart ∧ (t.KeepsApart ↔ pid ∉ s.shared.scheduler.active) ∧
    (pid ∈ s.shared.scheduler.active → s.shared.scheduler.waitQueue pid ≠ [] →
      t.shared.scheduler.queuedCount pid + t.underWay pid = 2) ∧
    (pid ∈ s.shared.scheduler.active → s.shared.scheduler.waitQueue pid = [] →
      t.shared.scheduler.queuedCount pid + t.underWay pid = 1 ∧ pid ∉ t.shared.scheduler.active) := by
  intro s t
  have h : s.Exclusive := exclusive_after_idle (exclusive_start _ rfl) idle
  refine ⟨h.keepsApart, ⟨?_, ?_⟩, ?_, ?_⟩
  · exact fun hapart active => h.release_active active hapart
  · exact fun hidle => (h.release_idle hidle).keepsApart
  · exact fun active => (h.2.finish_active h.1 active).1
  · exact fun active => (h.2.finish_active h.1 active).2

/-- While a package waits behind the run of its process, the process is released from outside; what waited is
dispatched beside the run. -/
theorem release_is_harmless_iff_idle_of_secondRequest :
    (∀ done pid rest, secondRequest ≠ done ++ .release pid :: rest) ∧
      let s := (ofService (Service.create .collector 1 4 2 ⟨some soloTable⟩ soloRegistry soloLog)).after secondRequest
      1 ∈ s.shared.scheduler.active ∧ ¬ (s.step (.release 1)).KeepsApart ∧
        (s.step (.release 1)).shared.scheduler.queuedCount 1 + (s.step (.release 1)).underWay 1 = 2 ∧
        (s.after [.release 1, .nudge, .loop, .loop]).underWay 1 = 2 := by
  have own : ∀ m ∈ secondRequest, m.isRelease = false := by decide
  have none : ∀ done pid rest, secondRequest ≠ done ++ .release pid :: rest := fun done pid rest h =>
    absurd (own (.release pid) (h ▸ List.mem_append_right done List.mem_cons_self)) (by simp [Move.isRelease])
  have h := release_is_harmless_iff_idle .collector 1 4 2 ⟨some soloTable⟩ soloRegistry soloLog secondRequest
    (fun done pid rest hmoves => absurd hmoves (none done pid rest)) 1
  have active : 1 ∈ ((ofService (Service.create .collector 1 4 2 ⟨some soloTable⟩ soloRegistry soloLog)).after
      secondRequest).shared.scheduler.active := by decide +kernel
  have waits : ((ofService (Service.create .collector 1 4 2 ⟨some soloTable⟩ soloRegistry soloLog)).after
      secondRequest).shared.scheduler.waitQueue 1 ≠ [] := by decide +kernel
  exact ⟨none, active, fun hapart => h.2.1.mp hapart active, h.2.2.1 active waits, by decide +kernel⟩

end Activities

end ProcessRuns
