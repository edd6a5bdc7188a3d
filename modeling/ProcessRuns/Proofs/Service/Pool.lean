import Mathlib.Algebra.BigOperators.Group.List.Basic
import Mathlib.Algebra.GroupWithZero.Nat
import ProcessRuns.Service.Pool

/-! # The permits of a pool

A permit of the pool is free, in somebody's hands, or lies ready for the main loop. Withdrawals still have to take
what was ordered and not asked for yet, and what those in line miss. `Accounts` says that the permits add up to
the size of the pool and to what is still to be withdrawn; every operation of the pool keeps it. -/

namespace ProcessRuns

namespace Claim

/-- The permits that a withdrawal in line misses. -/
def missing : Claim → Nat
  | worker => 0
  | withdrawal n => n

end Claim

namespace Pool

variable {pool : Pool} {held extra k n : Nat} {inLine : Bool}

/-- The permits that those in line miss. -/
def missing (line : List Claim) : Nat := (line.map Claim.missing).sum

/-- What the withdrawals still have to take. -/
def due (pool : Pool) : Nat := pool.orders.sum + missing pool.line

/-- Another withdrawal will be the next one to ask. -/
def overtake (pool : Pool) (i : Nat) : Pool :=
  match pool.orders[i]? with
  | some n => { pool with orders := n :: pool.orders.eraseIdx i }
  | none => pool

@[simp] theorem missing_nil : missing [] = 0 := rfl

@[simp] theorem missing_cons (c : Claim) (line : List Claim) : missing (c :: line) = c.missing + missing line :=
    List.sum_cons

@[simp] theorem missing_append (line rest : List Claim) : missing (line ++ rest) = missing line + missing rest := by
  rw [missing, missing, missing, List.map_append, List.sum_append]

theorem missing_filter_worker (line : List Claim) : missing (line.filter fun c => c ≠ .worker) = missing line := by
  induction line with
  | nil => rfl
  | cons c line ih => cases c <;> simpa [Claim.missing] using ih

@[simp] theorem size_abandon (pool : Pool) : pool.abandon.size = pool.size := by
  unfold abandon
  split <;> rfl

@[simp] theorem size_withdraw (pool : Pool) : pool.withdraw.size = pool.size := by
  unfold withdraw
  split
  · rfl
  · split <;> rfl

@[simp] theorem size_overtake (pool : Pool) (i : Nat) : (pool.overtake i).size = pool.size := by
  unfold overtake
  split <;> rfl

@[simp] theorem size_resize (pool : Pool) (n : Nat) : (pool.resize n).2.size = n := by
  unfold resize
  split
  · rfl
  · split
    · rfl
    · exact Nat.le_antisymm (Nat.le_of_not_lt ‹_›) (Nat.le_of_not_lt ‹_›)

theorem distribute_zero (line : List Claim) : distribute 0 line = (0, line, false) := by
  cases line <;> rfl

/-- Permits that are handed out are left over, taken by withdrawals, or granted; what waits on gets nothing. -/
theorem distribute_balance (n : Nat) {line : List Claim} (one : line.count .worker ≤ 1) {left : Nat} {rest : List Claim}
    {granted : Bool} (h : distribute n line = (left, rest, granted)) :
    left + missing line + granted.toNat = n + missing rest ∧ rest.count .worker + granted.toNat = line.count .worker ∧
      (rest ≠ [] → left = 0) := by
  induction line generalizing n left rest granted with
  | nil =>
    cases h
    exact ⟨rfl, rfl, fun hne => absurd rfl hne⟩
  | cons c line ih =>
    match n, c with
    | 0, c =>
      rw [distribute_zero] at h
      cases h
      exact ⟨by simp, rfl, fun _ => rfl⟩
    | n + 1, .worker =>
      rw [List.count_cons_self] at one
      rcases hd : distribute n line with ⟨l, r, g⟩
      simp only [distribute, hd] at h
      cases h
      obtain ⟨hsum, hcount, hleft⟩ := ih n (by omega) hd
      rw [List.count_cons_self, missing_cons, Claim.missing, Bool.toNat_true]
      exact ⟨by omega, by omega, hleft⟩
    | n + 1, .withdrawal m =>
      rw [List.count_cons_of_ne Claim.noConfusion] at one ⊢
      rw [missing_cons, Claim.missing]
      simp only [distribute] at h
      split at h
      · obtain ⟨hsum, hcount, hleft⟩ := ih _ one h
        exact ⟨by omega, hcount, hleft⟩
      · cases h
        rw [missing_cons, Claim.missing, List.count_cons_of_ne Claim.noConfusion]
        exact ⟨by simp only [Bool.toNat_false]; omega, rfl, fun _ => rfl⟩

/-- The permits of a pool of which `held` are in somebody's hands add up, up to `extra` that are never withdrawn;
`inLine` says whether the main loop waits for one. -/
structure Accounts (pool : Pool) (inLine : Bool) (held extra : Nat) : Prop where
  queue : pool.line.count .worker + pool.granted.toNat = inLine.toNat
  busy : pool.line ≠ [] → pool.free = 0
  sum : pool.free + held + pool.granted.toNat = pool.size + pool.due + extra

namespace Accounts

theorem ofSize (n : Nat) : (Pool.ofSize n).Accounts false 0 0 := ⟨rfl, fun h => absurd rfl h, rfl⟩

theorem one (h : pool.Accounts inLine held extra) : pool.line.count .worker ≤ 1 := by
  have hqueue := h.queue
  have hone := inLine.toNat_le
  omega

/-- Permits come back, or new ones are added. -/
theorem add (h : pool.Accounts inLine (held + k) extra) : (pool.add k).2.Accounts inLine held extra := by
  rcases hd : distribute k pool.line with ⟨left, rest, granted⟩
  obtain ⟨hbalance, hcount, hleft⟩ := distribute_balance k h.one hd
  have hqueue := h.queue
  have hsum := h.sum
  -- Whoever is in line gets a permit before one is left over, and nobody is granted two.
  have hgranted : (pool.granted || granted).toNat = pool.granted.toNat + granted.toNat := by
    have hone := inLine.toNat_le
    cases hg : pool.granted with
    | false => rw [Bool.false_or, Bool.toNat_false, Nat.zero_add]
    | true =>
      rw [hg, Bool.toNat_true] at hqueue
      have hnone : granted.toNat = 0 := by omega
      rw [Bool.true_or, Bool.toNat_true, hnone]
  simp only [Pool.add, hd]
  refine ⟨?_, fun hne => ?_, ?_⟩
  · simp only [hgranted]
    omega
  · have hline : pool.line ≠ [] := fun hnil => hne (by rw [hnil, distribute] at hd; cases hd; rfl)
    simp only [h.busy hline, hleft hne]
  · simp only [due, hgranted] at hsum ⊢
    omega

/-- Adding permits exceeds the maximum exactly if the pool and what is ordered and not asked for do, beyond the
permits in hand and the one that the main loop waits for. -/
theorem add_exceeds_iff (h : pool.Accounts inLine (held + k) extra) (some : 0 < k) :
    (pool.add k).1 = false ↔ maxPermits + held + inLine.toNat < pool.size + pool.orders.sum + extra := by
  have after := h.add
  rcases hd : distribute k pool.line with ⟨left, rest, granted⟩
  obtain ⟨hbalance, hcount, hleft⟩ := distribute_balance k h.one hd
  have hqueue := after.queue
  have hsum := after.sum
  simp only [Pool.add, hd, due] at hqueue hsum ⊢
  cases left with
  | zero =>
    have hfree : pool.free = 0 := by
      refine h.busy fun hnil => ?_
      rw [hnil, distribute] at hd
      cases hd
      exact absurd some (Nat.lt_irrefl 0)
    rw [hfree] at hsum
    simp only [BEq.rfl, Bool.true_or, Bool.true_eq_false, false_iff, Nat.not_lt]
    omega
  | succ left =>
    have hnil : rest = [] := Decidable.byContradiction fun hne => Nat.succ_ne_zero left (hleft hne)
    subst hnil
    simp only [List.count_nil, missing_nil] at hqueue hsum
    simp only [Nat.add_one_ne_zero, Bool.or_eq_false_iff, beq_eq_false_iff_ne, ne_eq, not_false_eq_true,
      true_and, decide_eq_false_iff_not, Nat.not_le]
    omega

theorem release (h : pool.Accounts inLine (held + 1) extra) : pool.release.Accounts inLine held extra := h.add

theorem take (h : pool.Accounts inLine held extra) (free : 0 < pool.free) :
    Accounts { pool with free := pool.free - 1 } inLine (held + 1) extra := by
  have hsum := h.sum
  refine ⟨h.queue, fun hne => ?_, ?_⟩
  · have hbusy := h.busy hne
    omega
  · simp only [due] at hsum ⊢
    omega

theorem lineUp (h : pool.Accounts false held extra) (busy : pool.free = 0) :
    Accounts { pool with line := pool.line ++ [.worker] } true held extra := by
  have hqueue := h.queue
  have hsum := h.sum
  refine ⟨?_, fun _ => busy, ?_⟩
  · simp only [List.count_append, List.count_singleton_self, Bool.toNat_false, Bool.toNat_true] at hqueue ⊢
    omega
  · simpa only [due, missing_append, missing_cons, missing_nil, Claim.missing, Nat.add_zero] using hsum

theorem accept (h : pool.Accounts inLine held extra) (granted : pool.granted = true) :
    Accounts { pool with granted := false } false (held + 1) extra := by
  have hqueue := h.queue
  have hsum := h.sum
  have hone := inLine.toNat_le
  rw [granted, Bool.toNat_true] at hqueue hsum
  refine ⟨?_, h.busy, ?_⟩
  · simp only [Bool.toNat_false]
    omega
  · simp only [due, Bool.toNat_false] at hsum ⊢
    omega

theorem abandon (h : pool.Accounts inLine held extra) : pool.abandon.Accounts false held extra := by
  cases hgranted : pool.granted with
  | true =>
    rw [Pool.abandon, hgranted, if_pos rfl]
    exact (h.accept hgranted).release
  | false =>
    rw [Pool.abandon, hgranted, if_neg Bool.false_ne_true]
    refine ⟨?_, fun hne => h.busy fun hnil => hne ?_, ?_⟩
    · have hnone : (pool.line.filter fun c => c ≠ .worker).count .worker = 0 :=
        List.count_eq_zero.mpr fun h => of_decide_eq_true (List.mem_filter.mp h).2 rfl
      simpa only [Bool.toNat_false, Nat.add_zero] using hnone
    · rw [hnil, List.filter_nil]
    · simpa only [due, missing_filter_worker, hgranted] using h.sum

theorem withdraw (h : pool.Accounts inLine held extra) : pool.withdraw.Accounts inLine held extra := by
  unfold Pool.withdraw
  split
  · exact h
  · rename_i n orders horders
    have hqueue := h.queue
    have hsum := h.sum
    simp only [due, horders, List.sum_cons] at hsum
    split
    · refine ⟨hqueue, fun hne => ?_, ?_⟩
      · simp only [h.busy hne, Nat.zero_sub]
      · simp only [due]
        omega
    · refine ⟨?_, fun _ => rfl, ?_⟩
      · rw [List.count_append, List.count_singleton, if_neg (fun h => Claim.noConfusion (beq_iff_eq.mp h))]
        exact hqueue
      · simp only [due, missing_append, missing_cons, missing_nil, Claim.missing]
        omega

theorem overtake (h : pool.Accounts inLine held extra) (i : Nat) : (pool.overtake i).Accounts inLine held extra := by
  unfold Pool.overtake
  split
  · rename_i n hn
    refine ⟨h.queue, h.busy, ?_⟩
    obtain ⟨hi, rfl⟩ := List.getElem?_eq_some_iff.mp hn
    have hsum : (pool.orders[i] :: pool.orders.eraseIdx i).sum = pool.orders.sum :=
      List.sum_cons.trans (List.CommMonoid.add_sum_eraseIdx hi)
    simpa only [due, hsum] using h.sum
  · exact h

theorem grow (h : pool.Accounts inLine held extra) (grow : pool.size < n) :
    Accounts { pool with size := n } inLine (held + (n - pool.size)) extra := by
  have hsum := h.sum
  refine ⟨h.queue, h.busy, ?_⟩
  simp only [due] at hsum ⊢
  omega

/-- A shrink withdraws no more than one request can take, and the rest stays in the pool. -/
theorem resize (h : pool.Accounts inLine held extra) (n : Nat) :
    (pool.resize n).2.Accounts inLine held (extra + (pool.size - n - maxRequest)) := by
  unfold Pool.resize
  split
  · rename_i hgrow
    rw [Nat.sub_eq_zero_of_le (Nat.le_of_lt hgrow), Nat.zero_sub, Nat.add_zero]
    exact (h.grow hgrow).add
  · split
    · rename_i hshrink
      have hsum := h.sum
      refine ⟨h.queue, h.busy, ?_⟩
      simp only [due, List.sum_append, List.sum_singleton] at hsum ⊢
      omega
    · rename_i hle hge
      rw [Nat.sub_eq_zero_of_le (Nat.le_of_not_lt hge), Nat.zero_sub, Nat.add_zero]
      exact h

theorem resize_exceeds_iff (h : pool.Accounts inLine held extra) (n : Nat) :
    (pool.resize n).1 = false ↔
      pool.size < n ∧ maxPermits + held + inLine.toNat < n + pool.orders.sum + extra := by
  unfold Pool.resize
  split
  · rename_i hgrow
    rw [(h.grow hgrow).add_exceeds_iff (by omega), and_iff_right hgrow]
  · rename_i hle
    split <;> simp only [Bool.true_eq_false, hle, false_and]

end Accounts

end Pool

end ProcessRuns
