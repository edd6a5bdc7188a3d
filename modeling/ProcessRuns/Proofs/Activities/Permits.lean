import ProcessRuns.Proofs.Activities.Wakeups
import ProcessRuns.Proofs.Service.Pool

/-! # Permits add up

The permits of the pool are free, with the main loop, or with the runs, whatever comes between the steps of all
of them and however often the pool is resized. A shrink takes its permits with one request, and one request takes
`Pool.maxRequest` at most; what a larger shrink goes short of stays in the pool for good. -/

namespace ProcessRuns

namespace Run

/-- The run has not given its permit back. -/
def holdsPermit (r : Run) : Bool :=
  match r.stage with
  | .finished => false
  | _ => true

end Run

/-- A move of an interleaving in which the withdrawals ask for their permits in any order. -/
inductive PoolMove where
  | move (m : Move)
  /-- Another withdrawal will be the next one to ask. -/
  | overtake (i : Nat)

namespace PoolMove

/-- The number of workers asked for last. -/
def sizeAfter (size : Nat) : PoolMove → Nat
  | .move (.resize cores workers) => Pool.resolve cores workers
  | _ => size

/-- The permits that a resize fails to ask back. -/
def shortOf (size : Nat) (m : PoolMove) : Nat := size - m.sizeAfter size - Pool.maxRequest

/-- What all the shrinks go short of, in a pool of a size. -/
def shortfall : Nat → List PoolMove → Nat
  | _, [] => 0
  | size, m :: moves => m.shortOf size + shortfall (m.sizeAfter size) moves

end PoolMove

theorem Shared.pool_wake {σ : Type} (s : Shared σ) : s.wake.pool = s.pool := by
  rcases s.wake_cases with ⟨-, h⟩ | ⟨-, h⟩ <;> rw [h]

namespace Activities

variable {σ : Type} {s t : Activities σ} {i : Nat} {workers extra : Nat}

/-- The runs that hold a permit; every job runs under one of them. -/
def underPermit (s : Activities σ) : Nat := s.runs.countP (·.holdsPermit)

/-- The permits in the hands of the main loop and the runs. -/
def inHand (s : Activities σ) : Nat := s.underPermit + s.shared.loop.holdsPermit.toNat

/-- The main loop is in line for a permit. -/
def isInLine (s : Activities σ) : Bool := s.shared.loop = .inLine

/-- What a move leads to, if those in line may be overtaken as well. -/
def poolStep [Storage σ] (s : Activities σ) : PoolMove → Activities σ
  | .move m => s.step m
  | .overtake i => { s with shared := { s.shared with pool := s.shared.pool.overtake i } }

/-- Where such an interleaving leads. -/
def poolAfter [Storage σ] (s : Activities σ) (moves : List PoolMove) : Activities σ := moves.foldl poolStep s

/-- The permits of a pool of some workers are accounted for, up to `extra` that are never withdrawn. -/
structure Accounted (s : Activities σ) (workers extra : Nat) : Prop where
  size : s.shared.pool.size = workers
  accounts : s.shared.pool.Accounts s.isInLine s.inHand extra

/-- The main loop stands where it stood, as far as permits go. -/
structure SamePlace (p q : LoopPhase) : Prop where
  hand : q.holdsPermit = p.holdsPermit
  line : q = .inLine ↔ p = .inLine

theorem SamePlace.refl (p : LoopPhase) : SamePlace p p := ⟨rfl, Iff.rfl⟩

theorem SamePlace.passing {p q a : LoopPhase} (here : p = a) (hand : q.holdsPermit = a.holdsPermit) (ha : a ≠ .inLine)
    (hq : q ≠ .inLine) : SamePlace p q := by
  rw [here]
  exact ⟨hand, fun h => absurd h hq, fun h => absurd h ha⟩

theorem samePlace_wake (s : Shared σ) : SamePlace s.loop s.wake.loop := by
  rcases s.wake_cases with ⟨hasleep, h⟩ | ⟨-, h⟩ <;> rw [h]
  · exact .passing hasleep rfl LoopPhase.noConfusion LoopPhase.noConfusion
  · exact SamePlace.refl _

theorem Accounted.keep (h : s.Accounted workers extra) (pool : t.shared.pool = s.shared.pool)
    (place : SamePlace s.shared.loop t.shared.loop) (runs : t.underPermit = s.underPermit) :
    t.Accounted workers extra := by
  refine ⟨pool ▸ h.size, ?_⟩
  rw [inHand, isInLine, pool, runs, place.hand, decide_eq_decide.mpr place.line]
  exact h.accounts

theorem Accounted.of_shared (h : s.Accounted workers extra) {u : Shared σ} (pool : u.pool = s.shared.pool)
    (place : SamePlace s.shared.loop u.loop) : Accounted { s with shared := u } workers extra := h.keep pool place rfl

theorem underPermit_set {r r' : Run} (here : s.runs[i]? = some r) (runs : t.runs = s.runs.set i r') :
    t.underPermit + r.holdsPermit.toNat = s.underPermit + r'.holdsPermit.toNat := by
  have h := countP_set here r' (·.holdsPermit)
  rw [underPermit, runs, underPermit]
  cases hr : r.holdsPermit <;> cases hr' : r'.holdsPermit <;> simpa [hr, hr'] using h

/-- A step of the main loop takes a permit, waits for one, or hands the one that it has to a run. -/
theorem accounted_loop (h : s.Accounted workers extra) : s.loop.Accounted workers extra := by
  have hturn := s.shared.turned
  have haccounts := h.accounts
  rw [isInLine, inHand] at haccounts
  unfold loop
  generalize s.shared.loopStep = turn at hturn ⊢
  cases hturn with
  | rest | wait => exact h
  | take asking free =>
    rw [asking] at haccounts
    exact ⟨h.size, haccounts.take free⟩
  | lineUp asking busy =>
    rw [asking] at haccounts
    exact ⟨h.size, haccounts.lineUp busy⟩
  | accept inLine granted =>
    rw [inLine] at haccounts
    exact ⟨h.size, haccounts.accept granted⟩
  -- The permit goes from the main loop to the run, so as many are in hand as before.
  | @dispatch p scheduler looking popped =>
    rw [looking] at haccounts
    refine ⟨h.size, ?_⟩
    have hruns : (s.runs ++ [({ package := p } : Run)]).countP (·.holdsPermit) = s.underPermit + 1 := by
      rw [List.countP_append, List.countP_singleton]
      rfl
    rw [isInLine, inHand, underPermit, hruns]
    exact haccounts
  | settle looking empty => exact h.keep rfl (.passing looking rfl LoopPhase.noConfusion LoopPhase.noConfusion) rfl
  | heed settling kept => exact h.keep rfl (.passing settling rfl LoopPhase.noConfusion LoopPhase.noConfusion) rfl
  | sleep settling kept => exact h.keep rfl (.passing settling rfl LoopPhase.noConfusion LoopPhase.noConfusion) rfl

theorem accounted_halt (h : s.Accounted workers extra) :
    Accounted { s with shared := s.shared.loopStop } workers extra := by
  have haccounts := h.accounts
  rw [isInLine, inHand] at haccounts
  unfold Shared.loopStop
  cases hloop : s.shared.loop with
  | asking => exact h.keep rfl (.passing hloop rfl LoopPhase.noConfusion LoopPhase.noConfusion) rfl
  | inLine => exact ⟨(s.shared.pool.size_abandon).trans h.size, (hloop ▸ haccounts).abandon⟩
  | settling | asleep =>
    rw [hloop] at haccounts
    exact ⟨h.size, haccounts.release⟩
  | idle | looking | stopped => exact h

theorem Accounted.of_elim {α : Type} {x : Option α} {f : α → Activities σ} (h : s.Accounted workers extra)
    (each : ∀ a, x = some a → (f a).Accounted workers extra) : (x.elim s f).Accounted workers extra := by
  cases x with
  | none => exact h
  | some a => exact each a rfl

section
variable [Storage σ]

theorem accounted_stepAdmission (h : s.Accounted workers extra) (i : Nat) (a : Admission) (now : Instant) :
    (s.stepAdmission i a now).Accounted workers extra := by
  cases a with
  | find pid date =>
    rcases Admission.step_find now s.shared pid date with hstep | hstep <;> rw [stepAdmission, hstep] <;>
      exact h.keep rfl (.refl _) rfl
  | openRegister logger pid date =>
    rcases Admission.step_openRegister now s.shared logger pid date with ⟨_, _, -, hstep⟩ | ⟨_, _, -, hstep⟩ <;>
      rw [stepAdmission, hstep] <;> exact h.keep rfl (.refl _) rfl
  | place logger p =>
    rcases Admission.step_place now s.shared logger p with ⟨-, hstep⟩ | ⟨-, -, hstep⟩ | ⟨-, -, hstep⟩ <;>
      rw [stepAdmission, hstep] <;> exact h.keep rfl (.refl _) rfl
  | wake p => exact h.keep s.shared.pool_wake (samePlace_wake _) rfl
  | takeLog | mark | announce | done => exact h.keep rfl (.refl _) rfl

theorem accounted_stepRemoval (h : s.Accounted workers extra) (i : Nat) (r : Removal) (now : Instant) :
    (s.stepRemoval i r now).Accounted workers extra := by
  cases r with
  | close logger count packages => cases packages <;> exact h.keep rfl (.refl _) rfl
  | forget | strip | takeLog | announce | done => exact h.keep rfl (.refl _) rfl

/-- Only the last step of a run gives its permit back, and no other touches the pool. -/
theorem permit_step {r : Run} (stays : r.stage ≠ .leave) (now : Instant) (s : Shared σ) :
    (r.step now s).1.holdsPermit = r.holdsPermit ∧ (r.step now s).2.pool = s.pool ∧
      SamePlace s.loop (r.step now s).2.loop := by
  obtain ⟨p, logger, stage⟩ := r
  cases stage with
  | leave => exact absurd rfl stays
  | takeLog =>
    refine ⟨?_, rfl, .refl _⟩
    simp only [Run.step]
    cases p.onQueue <;> rfl
  | check =>
    refine ⟨?_, rfl, .refl _⟩
    simp only [Run.step]
    cases s.owned <;> rfl
  | explain e =>
    simp only [Run.step]
    cases e.message? <;> exact ⟨rfl, rfl, .refl _⟩
  | release e =>
    refine ⟨?_, rfl, .refl _⟩
    simp only [Run.step]
    cases (s.scheduler.finish p.processId).1 <;> rfl
  | wake e => exact ⟨rfl, s.pool_wake, samePlace_wake s⟩
  | mark | announce | stampStart | working | stampEnd | close | report | finished => exact ⟨rfl, rfl, .refl _⟩

theorem accounted_stepRun (h : s.Accounted workers extra) {r : Run} (here : s.runs[i]? = some r) (now : Instant) :
    (s.stepRun i r now).Accounted workers extra := by
  have hset := underPermit_set (t := s.stepRun i r now) here rfl
  by_cases hleave : r.stage = .leave
  · obtain ⟨p, logger, stage⟩ := r
    subst hleave
    have haccounts := h.accounts
    have hgiven : (s.stepRun i ⟨p, logger, .leave⟩ now).underPermit + 1 = s.underPermit := hset
    rw [inHand, ← hgiven, Nat.add_right_comm] at haccounts
    exact ⟨h.size, haccounts.release⟩
  · obtain ⟨hpermit, hpool, hplace⟩ := permit_step hleave now s.shared
    rw [hpermit] at hset
    exact h.keep hpool hplace (Nat.add_right_cancel hset)

theorem accounted_perform (h : s.Accounted workers extra) (c : JobContext) (now : Instant) (action : JobAction) :
    Accounted { s with shared := (c.perform now action s.shared).2 } workers extra := by
  obtain ⟨u, -, hu⟩ := c.perform_snd now action s.shared
  rw [hu]
  exact h.keep rfl (.refl _) rfl

theorem accounted_step (h : s.Accounted workers extra) (m : PoolMove) :
    (s.poolStep m).Accounted (m.sizeAfter workers) (extra + m.shortOf workers) := by
  -- Only a change of size may fall short; all other moves leave the workers and the shortfall as they are.
  have other (same : m.sizeAfter workers = workers) (h : (s.poolStep m).Accounted workers extra) :
      (s.poolStep m).Accounted (m.sizeAfter workers) (extra + m.shortOf workers) := by
    rwa [PoolMove.shortOf, same, Nat.sub_self, Nat.zero_sub, Nat.add_zero]
  cases m with
  | overtake i => exact other rfl ⟨(s.shared.pool.size_overtake i).trans h.size, h.accounts.overtake i⟩
  | move m =>
    cases m with
    | resize cores workers =>
      refine ⟨s.shared.pool.size_resize _, ?_⟩
      have hresized := h.accounts.resize (Pool.resolve cores workers)
      rwa [h.size] at hresized
    | withdraw => exact other rfl ⟨s.shared.pool.size_withdraw.trans h.size, h.accounts.withdraw⟩
    | loop => exact other rfl (accounted_loop h)
    | halt => exact other rfl (accounted_halt h)
    | admission i now => exact other rfl (h.of_elim fun a _ => accounted_stepAdmission h i a now)
    | removal i now => exact other rfl (h.of_elim fun r _ => accounted_stepRemoval h i r now)
    | run i now => exact other rfl (h.of_elim fun r here => accounted_stepRun h here now)
    | act i action now =>
      refine other rfl (h.of_elim fun r _ => ?_)
      simp only [act]
      split
      · exact accounted_perform h r.context now action
      · exact h
    | answer i result =>
      refine other rfl (h.of_elim fun r here => h.keep rfl (.refl _) ?_)
      have hset := underPermit_set (t := { s with runs := s.runs.set i (r.answered result) }) here rfl
      obtain ⟨p, logger, stage⟩ := r
      cases stage <;> exact Nat.add_right_cancel hset
    | launch =>
      refine other rfl ?_
      simp only [poolStep, step, launch]
      split
      · rename_i hidle
        exact h.keep rfl (.passing hidle rfl LoopPhase.noConfusion LoopPhase.noConfusion) rfl
      · exact h
    | nudge =>
      refine other rfl ?_
      simp only [poolStep, step, nudge]
      split
      · exact h
      · exact h.keep s.shared.pool_wake (samePlace_wake _) rfl
    | select name =>
      refine other rfl ?_
      simp only [poolStep, step, Shared.selectTable, Action.within]
      exact h.of_shared rfl (.refl _)
    | outside context action now => exact other rfl (accounted_perform h context now action)
    | lookUp | define | undefine | disown => exact other rfl (h.of_shared rfl (.refl _))
    | request | forget | release => exact other rfl (h.keep rfl (.refl _) rfl)

theorem accounted_after (h : s.Accounted workers extra) (moves : List PoolMove) :
    ∃ n, (s.poolAfter moves).Accounted n (extra + PoolMove.shortfall workers moves) := by
  induction moves generalizing s workers extra with
  | nil => exact ⟨workers, h⟩
  | cons m moves ih =>
    rw [PoolMove.shortfall, ← Nat.add_assoc]
    exact ih (accounted_step h m)

/-- The free permits, those in the hands of the main loop and the runs and the one that lies ready for the main
loop are as many as the pool is to have, what is still to be withdrawn, and what earlier shrinks went short of; so
they add up as they should exactly if no shrink took more than one request takes. Growing the pool, or giving a
permit back, exceeds the maximum exactly if the size, what withdrawals did not ask for yet and what shrinks went
short of exceed it by more than is in hand or the main loop is about to get. And no more jobs run at one time than
the pool is to have once nothing is to be withdrawn, up to what shrinks went short of. -/
theorem permits_add_up (kind : ServiceKind) (instanceId cores workers : Nat) (logger : Logger) (registry : Registry)
    (storage : σ) (moves : List PoolMove) :
    let s := (ofService (Service.create kind instanceId cores workers logger registry storage)).poolAfter moves
    let pool := s.shared.pool
    let short := PoolMove.shortfall (Pool.resolve cores workers) moves
    pool.free + s.inHand + pool.granted.toNat = pool.size + pool.due + short ∧
    (pool.free + s.inHand + pool.granted.toNat = pool.size + pool.due ↔ short = 0) ∧
    (∀ n, (pool.resize n).1 = false ↔
      pool.size < n ∧ Pool.maxPermits + s.inHand + s.isInLine.toNat < n + pool.orders.sum + short) ∧
    (0 < s.inHand → ((pool.add 1).1 = false ↔
      Pool.maxPermits + s.inHand + s.isInLine.toNat ≤ pool.size + pool.orders.sum + short)) ∧
    s.underPermit ≤ pool.size + pool.due + short := by
  intro s pool short
  have hstart : (ofService (Service.create kind instanceId cores workers logger registry storage)).Accounted
      (Pool.resolve cores workers) 0 := ⟨rfl, Pool.Accounts.ofSize _⟩
  have haccounts : pool.Accounts s.isInLine s.inHand short := by
    obtain ⟨n, -, h⟩ := accounted_after hstart moves
    rwa [Nat.zero_add] at h
  have hsum := haccounts.sum
  refine ⟨hsum, ⟨fun h => ?_, fun h => ?_⟩, haccounts.resize_exceeds_iff, fun hhand => ?_, ?_⟩
  · omega
  · rw [hsum, h, Nat.add_zero]
  · obtain ⟨held, hheld⟩ : ∃ held, s.inHand = held + 1 := Nat.exists_eq_succ_of_ne_zero (Nat.ne_of_gt hhand)
    rw [hheld] at haccounts ⊢
    rw [haccounts.add_exceeds_iff Nat.zero_lt_one]
    exact Nat.lt_iff_add_one_le.trans (by rw [Nat.add_right_comm, Nat.add_assoc _ held])
  · have hjobs : s.underPermit ≤ s.inHand := Nat.le_add_right _ _
    omega

end

/-- Two processes are requested, the pool is to shrink to one worker, and then both are dispatched. -/
def largeShrink : List Move :=
  [.launch, .request 1 .epoch, .request 2 .epoch] ++ List.replicate 6 (.admission 0 .epoch) ++
    List.replicate 6 (.admission 1 .epoch) ++ [.resize 4 1, .withdraw] ++ List.replicate 4 .loop ++
    List.replicate 4 (.run 0 .epoch) ++ List.replicate 4 (.run 1 .epoch)

/-- A pool of more than 2^32 workers was made one of one worker. -/
def afterLargeShrink : Activities Memory :=
  (ofService (Service.create .collector 1 4 4294967298 ⟨some soloTable⟩ (soloRegistry.add ⟨2, 1, true, none⟩)
    soloLog)).poolAfter (largeShrink.map .move)

/-- The shrink goes two permits short, and two jobs run. -/
theorem permits_add_up_of_largeShrink :
    afterLargeShrink.underPermit = 2 ∧ afterLargeShrink.shared.pool.size = 1 ∧ afterLargeShrink.shared.pool.due = 0 ∧
      PoolMove.shortfall (Pool.resolve 4 4294967298) (largeShrink.map .move) = 2 ∧
      afterLargeShrink.shared.pool.free + afterLargeShrink.inHand + afterLargeShrink.shared.pool.granted.toNat = 3 ∧
      0 < afterLargeShrink.inHand ∧ (afterLargeShrink.shared.pool.add 1).1 = true := by
  have hsize : afterLargeShrink.shared.pool.size = 1 := by decide +kernel
  have hdue : afterLargeShrink.shared.pool.due = 0 := by decide +kernel
  have hshort : PoolMove.shortfall (Pool.resolve 4 4294967298) (largeShrink.map .move) = 2 := by decide +kernel
  have hhand : 0 < afterLargeShrink.inHand := by decide +kernel
  obtain ⟨hsum, -, -, hrelease, -⟩ := permits_add_up .collector 1 4 4294967298 ⟨some soloTable⟩
    (soloRegistry.add ⟨2, 1, true, none⟩) soloLog (largeShrink.map .move)
  have hfits : ¬ Pool.maxPermits + afterLargeShrink.inHand + afterLargeShrink.isInLine.toNat ≤
      afterLargeShrink.shared.pool.size + afterLargeShrink.shared.pool.orders.sum +
        PoolMove.shortfall (Pool.resolve 4 4294967298) (largeShrink.map .move) := by
    decide +kernel
  rw [afterLargeShrink] at *
  refine ⟨by decide +kernel, hsize, hdue, hshort, ?_, hhand, ?_⟩
  · rw [hsum, hsize, hdue, hshort]
  · rw [← Bool.not_eq_false]
    exact mt (hrelease hhand).mp hfits

end Activities

end ProcessRuns
