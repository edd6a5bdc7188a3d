import ProcessRuns.Proofs.Queue.Packages

/-! # What becomes of the packages

The operations of a scheduler in any order and with any arguments: processes may wait that are not active, be
released that do not run, and be removed at any time. `Traffic` puts down what went in and what came out; together
with what is pending it adds up, and a removal takes out exactly what is pending of its process. -/

namespace ProcessRuns

namespace Keyed
variable {κ α : Type} [DecidableEq κ] {key : α → κ} {m : Keyed κ (List α)}

/-- Where every queue holds elements of its own key only, those of one key are its queue. -/
theorem filter_values_eq (keys : m.keys.Nodup) (own : ∀ e ∈ m.entries, ∀ a ∈ e.2, key a = e.1) (k : κ) :
    m.values.flatten.filter (fun a => key a = k) = (m.get? k).getD [] := by
  obtain ⟨entries⟩ := m
  induction entries with
  | nil => rfl
  | cons e rest ih =>
    obtain ⟨hfresh, hrest⟩ := List.nodup_cons.mp keys
    have ih := ih hrest fun e' he' => own e' (List.mem_cons_of_mem e he')
    have hown := own e List.mem_cons_self
    rw [get?_cons]
    show (e.2 ++ (rest.map Prod.snd).flatten).filter _ = _
    rw [List.filter_append, show (rest.map Prod.snd).flatten.filter _ = _ from ih]
    by_cases hk : e.1 = k
    · have hnone : get? (⟨rest⟩ : Keyed κ (List α)) k = none := get?_of_not_mem (hk ▸ hfresh)
      rw [if_pos hk, hnone, Option.getD_none, List.append_nil, Option.getD_some]
      exact List.filter_eq_self.mpr fun a ha => decide_eq_true ((hown a ha).trans hk)
    · rw [if_neg hk, List.filter_eq_nil_iff.mpr fun a ha => by simp [hown a ha, hk], List.nil_append]

theorem filter_values_ne (own : ∀ e ∈ m.entries, ∀ a ∈ e.2, key a = e.1) (k : κ) :
    m.values.flatten.filter (fun a => key a ≠ k) = (m.erase k).values.flatten := by
  obtain ⟨entries⟩ := m
  induction entries with
  | nil => rfl
  | cons e rest ih =>
    have ih := ih fun e' he' => own e' (List.mem_cons_of_mem e he')
    have hown := own e List.mem_cons_self
    simp only [values, erase, List.map_cons, List.flatten_cons, List.filter_append, List.filter_cons] at ih ⊢
    rw [ih]
    by_cases hk : e.1 = k
    · rw [List.filter_eq_nil_iff.mpr fun a ha => by simp [hown a ha, hk]]
      simp [hk]
    · rw [List.filter_eq_self.mpr fun a ha => by simp [hown a ha, hk]]
      simp [hk]

end Keyed

namespace Scheduler

/-- What may be done to the queues. -/
inductive Operation where
  | enqueue (p : Package)
  | wait (p : Package)
  | pop
  | finish (pid : ProcessId)
  | remove (pid : ProcessId)

/-- What an operation returns of packages, and the queues after it. -/
def perform (s : Scheduler) : Operation → List Package × Scheduler
  | .enqueue p => ([], s.enqueue p)
  | .wait p => ([], s.wait p)
  | .pop => s.pop?.elim ([], s) fun (p, t) => ([p], t)
  | .finish pid => ([], (s.finish pid).2)
  | .remove pid => s.remove pid

/-- The packages that went in and out, oldest first. -/
structure Traffic where
  /-- Handed over to stand in the primary queue or behind a process. -/
  given : List Package := []
  /-- Taken to be dispatched. -/
  popped : List Package := []
  /-- Taken out by removal. -/
  removed : List Package := []

/-- Puts down an operation and what it returned. -/
def Traffic.note (t : Traffic) (returned : List Package) : Operation → Traffic
  | .enqueue p | .wait p => { t with given := t.given ++ [p] }
  | .pop => { t with popped := t.popped ++ returned }
  | .finish _ => t
  | .remove _ => { t with removed := t.removed ++ returned }

/-- The traffic and the queues after some more operations. -/
def operate (t : Traffic) (s : Scheduler) (operations : List Operation) : Traffic × Scheduler :=
  operations.foldl (fun (t, s) o => (t.note (s.perform o).1 o, (s.perform o).2)) (t, s)

variable {s : Scheduler}

theorem Sorted.perform (h : s.Sorted) (o : Operation) : (s.perform o).2.Sorted := by
  cases o with
  | enqueue p => exact h.enqueue p
  | wait p => exact h.wait p
  | pop =>
    simp only [Scheduler.perform]
    cases hp : s.pop? with
    | none => exact h
    | some popped => exact h.pop? hp
  | finish pid => exact h.finish pid
  | remove pid => exact h.remove pid

/-! ### A removal -/

/-- What a removal takes out is what is pending of its process, in its order. -/
theorem Sorted.remove_fst (h : s.Sorted) (pid : ProcessId) :
    (s.remove pid).1 = s.packages.filter fun p => p.processId = pid := by
  rw [packages, List.filter_append, Keyed.filter_values_eq h.keys h.own]
  rfl

/-- What a removal leaves is what is pending of the other processes, in its order. -/
theorem Sorted.packages_remove (h : s.Sorted) (pid : ProcessId) :
    (s.remove pid).2.packages = s.packages.filter fun p => p.processId ≠ pid := by
  rw [packages, packages, List.filter_append, Keyed.filter_values_ne h.own]
  rfl

/-! ### Conservation -/

namespace Traffic

variable {t : Traffic}

/-- All that came out, and all that is pending, went in once. -/
def Balanced (t : Traffic) (s : Scheduler) : Prop := t.given.Perm (t.popped ++ t.removed ++ s.packages)

theorem Balanced.note (h : t.Balanced s) (sorted : s.Sorted) (o : Operation) :
    (t.note (s.perform o).1 o).Balanced (s.perform o).2 := by
  have hgiven : ∀ {p : Package} {u : Scheduler}, u.packages.Perm (p :: s.packages) →
      (t.given ++ [p]).Perm (t.popped ++ t.removed ++ u.packages) := fun {p u} hu =>
    (List.perm_append_singleton p t.given).trans <|
      (h.cons p).trans <| List.perm_middle.symm.trans (hu.symm.append_left _)
  cases o with
  | enqueue p => exact hgiven (s.packages_enqueue p)
  | wait p => exact hgiven (s.packages_wait p)
  | pop =>
    simp only [perform, Traffic.note, Balanced]
    cases hp : s.pop? with
    | none =>
      rw [Option.elim_none, List.append_nil]
      exact h
    | some popped =>
      refine h.trans ?_
      rw [packages_pop? hp]
      simp only [Option.elim_some, List.append_assoc]
      exact List.perm_middle.append_left t.popped
  | finish pid => exact h.trans ((packages_finish sorted pid).symm.append_left _)
  | remove pid =>
    refine h.trans ?_
    show (t.popped ++ t.removed ++ s.packages).Perm (t.popped ++ (t.removed ++ (s.remove pid).1) ++
      (s.remove pid).2.packages)
    rw [← List.append_assoc, List.append_assoc (t.popped ++ t.removed)]
    exact (packages_remove sorted pid).append_left _

theorem operate_balanced (h : t.Balanced s) (sorted : s.Sorted) (operations : List Operation) :
    (operate t s operations).1.Balanced (operate t s operations).2 ∧ (operate t s operations).2.Sorted :=
  List.foldlRecOn (motive := fun x : Traffic × Scheduler => x.1.Balanced x.2 ∧ x.2.Sorted) operations _ ⟨h, sorted⟩
    fun _ hx o _ => ⟨hx.1.note hx.2 o, hx.2.perform o⟩

end Traffic

/-- Whatever is done to the queues, in any order and with any arguments, the packages that were handed over are those
that were taken to be dispatched, those that were taken out by removal, those on the primary queue and those that
wait, each as often as it was handed over and as it was. A removal takes out exactly what is pending of its process,
what is queued before what waits, and leaves the others where they are and in their order. -/
theorem packages_are_conserved (operations : List Operation) :
    let (t, s) := operate {} {} operations
    t.given.Perm (t.popped ++ t.removed ++ s.queued ++ s.waiting.values.flatten) ∧
    ∀ pid,
      (s.remove pid).1 = (s.queued.filter fun p => p.processId = pid) ++ s.waitQueue pid ∧
      (s.remove pid).1 = ((s.queued ++ s.waiting.values.flatten).filter fun p => p.processId = pid) ∧
      (s.remove pid).2.queued = (s.queued.filter fun p => p.processId ≠ pid) ∧
      (s.remove pid).2.waiting.values.flatten = (s.waiting.values.flatten.filter fun p => p.processId ≠ pid) ∧
      ∀ id, (s.remove pid).2.waitQueue id = if id = pid then [] else s.waitQueue id := by
  obtain ⟨balanced, sorted⟩ := Traffic.operate_balanced (t := {}) (s := {}) .nil .empty operations
  refine ⟨?_, fun pid => ⟨rfl, sorted.remove_fst pid, rfl, (Keyed.filter_values_ne sorted.own pid).symm, ?_⟩⟩
  · rw [List.append_assoc]
    exact balanced
  · exact waitQueue_erase _ pid rfl

end Scheduler

end ProcessRuns
