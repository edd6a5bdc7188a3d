import ProcessRuns.Proofs.Activities.Aired
import ProcessRuns.Proofs.Activities.Closings
import ProcessRuns.Proofs.Activities.Registers

/-! # What is told of a register

Of each register its request tells once where the package was put, and beside that either its removal tells once that it
was taken out, or its run tells that it begins and then that it has ended. The request and those who take the package
from it do not wait for each other: the package is in the queues before the request tells so. -/

namespace ProcessRuns

namespace Event

/-- Tells that a package was let in. -/
def isAdmission : Event → Bool
  | queued _ | onQueue _ => true
  | _ => false

end Event

/-- What is told of a register beside its admission. -/
inductive Passage : List Event → Prop where
  | pending : Passage []
  | dropped : Passage [.notExecuted]
  | begun (date : Instant) : Passage [.running date]
  | ended (date : Instant) (report : Finished) : Passage [.running date, .finished report]

/-- A register's admission is told first, if anything is. -/
def InOrder (events : List Event) : Prop :=
  events = [] ∨ ∃ e rest, events = e :: rest ∧ e.isAdmission = true ∧ Passage rest

/-- What is told of a register, oldest first. -/
def told (id : RegisterId) (notices : List Notice) : List Event :=
  (notices.filter (·.registerId = id)).map (·.event)

/-- What some deeds tell of a register. -/
def toldOf (id : RegisterId) (ds : List Deed) : List Event := told id (ds.filterMap (·.notice?))

section
variable {id : RegisterId} {p : Package} {e : Event} {ds : List Deed}

theorem told_append (ns more : List Notice) : told id (ns ++ more) = told id ns ++ told id more := by
  rw [told, List.filter_append, List.map_append]
  rfl

theorem told_cons (n : Notice) (ns : List Notice) :
    told id (n :: ns) = (if n.registerId = id then [n.event] else []) ++ told id ns := by
  unfold told
  rw [List.filter_cons]
  by_cases h : n.registerId = id <;> simp [h]

theorem told_notice {ns : List Notice} : told p.registerId (p.notice e :: ns) = e :: told p.registerId ns := by
  rw [told_cons]
  exact congrArg (· ++ _) (if_pos rfl)

theorem toldOf_announces : toldOf id (.announces (p.notice e) :: ds) =
    (if p.registerId = id then [e] else []) ++ toldOf id ds := told_cons _ _

theorem toldOf_queues : toldOf id (.queues p :: ds) = toldOf id ds := rfl

theorem toldOf_waits : toldOf id (.waits p :: ds) = toldOf id ds := rfl

theorem toldOf_releases {pid : ProcessId} : toldOf id (.releases pid :: ds) = toldOf id ds := rfl

theorem toldOf_nil : toldOf id [] = [] := rfl

/-! ### One activity -/

/-- A request tells of its register once it is done. -/
theorem Admission.Did.told {i : Nat} {ts : List Ticket} {a : Admission} {t : Ticket} (h : a.Did i ts ds) (one : t ∈ ts)
    (mine : t.package.registerId = id) :
    if a.isDone then toldOf id ds = [.queued t.package.executionDate] ∨
      toldOf id ds = [.onQueue t.package.executionDate]
    else toldOf id ds = [] := by
  cases a with
  | find | takeLog | openRegister =>
    rw [h.1] at one
    cases one
  | place | mark =>
    rw [h.2]
    rfl
  | wake p =>
    rw [h.1]
    rfl
  | announce p event =>
    rcases h.1 with ⟨-, hds⟩ | ⟨-, hds⟩ <;> rw [hds] <;> rfl
  | done =>
    rcases h with ⟨hts, -⟩ | ⟨log, p, hts, hds⟩
    · rw [hts] at one
      cases one
    · rw [hts] at one
      obtain rfl := List.mem_singleton.mp one
      have hid : p.registerId = id := mine
      rcases hds with hds | hds <;> rw [hds]
      · refine Or.inl ?_
        rw [toldOf_queues, toldOf_announces, if_pos hid]
        rfl
      · refine Or.inr ?_
        rw [toldOf_waits, toldOf_announces, if_pos hid]
        rfl

/-- A request tells of no other register. -/
theorem Admission.Did.told_nil {i : Nat} {ts : List Ticket} {a : Admission} (h : a.Did i ts ds)
    (apart : ∀ t ∈ ts, t.package.registerId ≠ id) : toldOf id ds = [] := by
  cases a with
  | find | takeLog | openRegister | place | mark =>
    rw [h.2]
    rfl
  | wake p =>
    rw [h.1]
    rfl
  | announce p event =>
    rcases h.1 with ⟨-, hds⟩ | ⟨-, hds⟩ <;> rw [hds] <;> rfl
  | done =>
    rcases h with ⟨-, hds⟩ | ⟨log, p, hts, hds⟩
    · rw [hds]
      rfl
    · have hid : p.registerId ≠ id := apart _ (hts ▸ List.mem_singleton.mpr rfl)
      rcases hds with hds | hds <;> rw [hds]
      · rw [toldOf_queues, toldOf_announces, if_neg hid]
        rfl
      · rw [toldOf_waits, toldOf_announces, if_neg hid]
        rfl

theorem Run.Did.told {r : Run} (h : r.Did ds) (mine : r.package.registerId = id) :
    (toldOf id ds = [] ∨ toldOf id ds = [.running r.package.executionDate]) ∧ r.stage ≠ .finished ∨
      ∃ e : Ending, toldOf id ds = [.running r.package.executionDate, .finished (e.report r.package)] := by
  obtain ⟨p, logger, stage⟩ := r
  have hid : p.registerId = id := mine
  cases stage with
  | takeLog | mark | announce =>
    obtain rfl : ds = [] := h
    exact Or.inl ⟨Or.inl rfl, Run.Stage.noConfusion⟩
  | stampStart | check | working | stampEnd | explain | close | release | wake | report =>
    obtain rfl : ds = _ := h
    refine Or.inl ⟨Or.inr ?_, Run.Stage.noConfusion⟩
    rw [Run.started, toldOf_announces, if_pos hid]
    rfl
  | leave | finished =>
    obtain ⟨e, rfl⟩ := h
    refine Or.inr ⟨e, ?_⟩
    rw [Run.started, toldOf_announces, if_pos hid, toldOf_releases, toldOf_announces, if_pos hid]
    rfl

theorem Run.Did.told_nil {r : Run} (h : r.Did ds) (apart : r.package.registerId ≠ id) : toldOf id ds = [] := by
  obtain ⟨p, logger, stage⟩ := r
  have hid : p.registerId ≠ id := apart
  cases stage with
  | takeLog | mark | announce =>
    obtain rfl : ds = [] := h
    rfl
  | stampStart | check | working | stampEnd | explain | close | release | wake | report =>
    obtain rfl : ds = _ := h
    rw [Run.started, toldOf_announces, if_neg hid]
    rfl
  | leave | finished =>
    obtain ⟨e, rfl⟩ := h
    rw [Run.started, toldOf_announces, if_neg hid, toldOf_releases, toldOf_announces, if_neg hid]
    rfl

theorem toldOf_dropped (pid : ProcessId) (taken telling : List Package) :
    toldOf id (Removal.dropped pid taken telling) = (telling.filter (·.registerId = id)).map fun _ => .notExecuted := by
  show toldOf id (telling.map fun p => .announces (p.notice .notExecuted)) = _
  induction telling with
  | nil => rfl
  | cons p telling ih =>
    rw [List.map_cons, toldOf_announces, ih, List.filter_cons]
    by_cases h : p.registerId = id <;> simp [h]

/-- A removal has told of some of the packages that it took out, and of all of them once it is done. -/
theorem Removal.Did.told {r : Removal} (h : r.Did ds) :
    ds = [] ∨ ∃ pid telling rest, ds = dropped pid (telling ++ rest) telling ∧
        (∀ count, r = .done count → rest = []) := by
  cases r with
  | forget | strip => exact Or.inl h
  | takeLog packages =>
    obtain ⟨pid, rfl⟩ := h
    refine Or.inr ⟨pid, [], packages, rfl, ?_⟩
    intro count hno
    cases hno
  | close logger count packages =>
    obtain ⟨pid, telling, rfl, -⟩ := h
    refine Or.inr ⟨pid, telling, packages, rfl, ?_⟩
    intro count hno
    cases hno
  | announce logger count p packages =>
    obtain ⟨pid, telling, rfl, -⟩ := h
    refine Or.inr ⟨pid, telling, p :: packages, rfl, ?_⟩
    intro count hno
    cases hno
  | done count =>
    obtain ⟨pid, taken, rfl, -⟩ := h
    exact Or.inr ⟨pid, taken, [], by rw [List.append_nil], fun _ _ => rfl⟩

end

/-! ### All activities -/

/-- Who takes a register from its request, and then tells of it. -/
def Course.teller : Course → Place
  | dispatched i _ | started i _ | ended i _ _ => .run i
  | stripped i _ | dropped i _ => .removal i
  | _ => .nowhere

theorem Course.teller_of_run {x : Course} {i : Nat} (h : x.place = .run i) : x.teller = .run i := by
  cases x <;> first | exact h | cases h

theorem Course.teller_of_removal {x : Course} {i : Nat} (h : x.removal? = some i) : x.teller = .removal i := by
  cases x <;> cases h <;> rfl

namespace Activities

variable {σ : Type} {s t : Activities σ} {m : Move} {c : RegisterId → Course} {ds : List (Place × Deed)}

/-- What is told of a register, and by whom. -/
def toldBy (id : RegisterId) (ds : List (Place × Deed)) : List (Place × Event) :=
  ds.filterMap fun d => d.2.notice?.bind fun n => if n.registerId = id then some (d.1, n.event) else none

theorem toldBy_announces {id : RegisterId} {place : Place} {n : Notice} :
    toldBy id ((place, .announces n) :: ds) =
      (if n.registerId = id then [(place, n.event)] else []) ++ toldBy id ds := by
  unfold toldBy
  rw [List.filterMap_cons]
  by_cases h : n.registerId = id <;> simp [Deed.notice?, h]

theorem told_deeds (id : RegisterId) (ds : List (Place × Deed)) :
    told id (ds.filterMap (·.2.notice?)) = (toldBy id ds).map Prod.snd := by
  induction ds with
  | nil => rfl
  | cons d ds ih =>
    obtain ⟨place, d⟩ := d
    cases d with
    | announces n =>
      show told id (n :: ds.filterMap (·.2.notice?)) = (toldBy id ((place, .announces n) :: ds)).map Prod.snd
      rw [told_cons, ih, toldBy_announces, List.map_append]
      split <;> rfl
    | queues | waits | strips | releases => exact ih

theorem told_place (id : RegisterId) (place : Place) (ds : List (Place × Deed)) :
    toldOf id (deedsOf place ds) = ((toldBy id ds).filter (·.1 = place)).map Prod.snd := by
  induction ds with
  | nil => rfl
  | cons d ds ih =>
    obtain ⟨other, d⟩ := d
    have hdeeds : deedsOf place ((other, d) :: ds) = (if other = place then [d] else []) ++ deedsOf place ds := by
      unfold deedsOf
      rw [List.filter_cons]
      by_cases h : other = place <;> simp [h]
    have htold : toldBy id ((other, d) :: ds) = (toldOf id [d]).map (other, ·) ++ toldBy id ds := by
      cases d with
      | announces n =>
        show _ = (told id [n]).map (other, ·) ++ _
        rw [told_cons, toldBy_announces]
        split <;> rfl
      | queues | waits | strips | releases => rfl
    rw [hdeeds, htold, List.filter_append, List.map_append, ← ih, List.filter_map, List.map_map]
    by_cases h : other = place
    · rw [if_pos h, List.filter_eq_self.mpr (by simp [h])]
      rw [toldOf, List.filterMap_append, told_append]
      exact congrArg (· ++ _) (List.map_id _).symm
    · rw [if_neg h, List.filter_eq_nil_iff.mpr (by simp [h])]
      rfl

/-- Only a request, a run or a removal that tells of a register is among those who do. -/
theorem mem_toldBy {id : RegisterId} {x : Place × Event} (h : x ∈ toldBy id ds) :
    (∃ n, (x.1, Deed.announces n) ∈ ds) ∧ x.2 ∈ toldOf id (deedsOf x.1 ds) := by
  refine ⟨?_, ?_⟩
  · obtain ⟨⟨place, d⟩, hd, hx⟩ := List.mem_filterMap.mp h
    obtain ⟨n, hn, hx⟩ := Option.bind_eq_some_iff.mp hx
    obtain rfl : d = .announces n := by
      cases d <;> cases hn
      rfl
    split at hx
    · obtain rfl := Option.some.inj hx
      exact ⟨n, hd⟩
    · cases hx
  · rw [told_place]
    exact List.mem_map_of_mem (List.mem_filter.mpr ⟨h, by simp⟩)

theorem strips_of_deedsOf {i : Nat} {pid : ProcessId} {taken telling : List Package}
    (h : deedsOf (.removal i) ds = Removal.dropped pid taken telling) :
    (Place.removal i, Deed.strips pid taken) ∈ ds := by
  have hmem : Deed.strips pid taken ∈ deedsOf (.removal i) ds := h ▸ List.mem_cons_self
  obtain ⟨⟨place, d⟩, hd, rfl⟩ := List.mem_map.mp hmem
  obtain ⟨hd, hplace⟩ := List.mem_filter.mp hd
  rwa [← show place = .removal i from of_decide_eq_true hplace]

/-- The registers that were opened are distinct, and a removal took out what the record says, each register once. -/
structure Taken (s : Activities σ) (ds : List (Place × Deed)) : Prop where
  opened : s.record.openedIds.Nodup
  taken : ∀ i pid ps, (Place.removal i, Deed.strips pid ps) ∈ ds →
    s.record.takenIds i = ps.map (·.registerId) ∧ (ps.map (·.registerId)).Nodup

section
variable {id : RegisterId} {x : Place × Event} {i : Nat}

/-- A request tells of the register that was opened for it, and only of its admission. -/
theorem told_by_request (hd : s.Did ds) (hx : x.2 ∈ toldOf id (deedsOf (.admission i) ds)) :
    ∃ u ∈ s.record.opened, u.request = i ∧ u.package.registerId = id ∧
      (x.2 = .queued u.package.executionDate ∨ x.2 = .onQueue u.package.executionDate) := by
  have hdid := hd.admission i
  cases here : s.admissions[i]? with
  | none =>
    rw [here] at hdid
    rw [hdid.2] at hx
    cases hx
  | some a =>
    rw [here] at hdid
    by_cases apart : ∀ t ∈ s.record.opened.filter (·.request = i), t.package.registerId ≠ id
    · rw [Admission.Did.told_nil hdid apart] at hx
      cases hx
    · push Not at apart
      obtain ⟨u, hu, mine⟩ := apart
      have htold := Admission.Did.told hdid hu mine
      obtain ⟨hopened, hrequest⟩ := List.mem_filter.mp hu
      refine ⟨u, hopened, of_decide_eq_true hrequest, mine, ?_⟩
      split at htold
      · rcases htold with htold | htold <;> rw [htold] at hx
        · exact Or.inl (List.mem_singleton.mp hx)
        · exact Or.inr (List.mem_singleton.mp hx)
      · rw [htold] at hx
        cases hx

theorem told_by_run (hd : s.Did ds) (hx : x.2 ∈ toldOf id (deedsOf (.run i) ds)) :
    ∃ r, s.runs[i]? = some r ∧ r.package.registerId = id ∧
      (x.2 = .running r.package.executionDate ∨ ∃ e : Ending, x.2 = .finished (e.report r.package)) := by
  have hdid := hd.run i
  cases here : s.runs[i]? with
  | none =>
    rw [here] at hdid
    have hdid : deedsOf (.run i) ds = [] := hdid
    rw [hdid] at hx
    cases hx
  | some r =>
    rw [here] at hdid
    by_cases mine : r.package.registerId = id
    · refine ⟨r, rfl, mine, ?_⟩
      rcases Run.Did.told hdid mine with ⟨htold | htold, -⟩ | ⟨e, htold⟩ <;> rw [htold] at hx
      · cases hx
      · exact Or.inl (List.mem_singleton.mp hx)
      · exact (List.mem_pair.mp hx).imp_right fun hx => ⟨e, hx⟩
    · rw [Run.Did.told_nil hdid mine] at hx
      cases hx

theorem told_by_removal (hd : s.Did ds) (ht : s.Taken ds) (hx : x.2 ∈ toldOf id (deedsOf (.removal i) ds)) :
    id ∈ s.record.takenIds i ∧ x.2 = .notExecuted := by
  have hdid := hd.removal i
  cases here : s.removals[i]? with
  | none =>
    rw [here] at hdid
    have hdid : deedsOf (.removal i) ds = [] := hdid
    rw [hdid] at hx
    cases hx
  | some r =>
    rw [here] at hdid
    rcases Removal.Did.told hdid with hnil | ⟨pid, telling, rest, hds, -⟩
    · rw [hnil] at hx
      cases hx
    · have hstrips := strips_of_deedsOf hds
      rw [hds, toldOf_dropped] at hx
      obtain ⟨p, hp, hevent⟩ := List.mem_map.mp hx
      obtain ⟨hp, hid⟩ := List.mem_filter.mp hp
      rw [(ht.taken i pid _ hstrips).1]
      exact ⟨List.mem_map.mpr ⟨p, List.mem_append_left _ hp, of_decide_eq_true hid⟩, hevent.symm⟩

end

/-- A removal tells of a register once at most, as it took each register out once. -/
theorem Taken.once (h : s.Taken ds) {id : RegisterId} {i : Nat} {pid : ProcessId} {telling rest : List Package}
    (hds : deedsOf (.removal i) ds = Removal.dropped pid (telling ++ rest) telling) :
    toldOf id (deedsOf (.removal i) ds) = if id ∈ telling.map (·.registerId) then [.notExecuted] else [] := by
  have hnodup := (h.taken i pid _ (strips_of_deedsOf hds)).2
  rw [List.map_append] at hnodup
  have hcount := List.count_eq_one_of_mem (a := id) (List.nodup_append.mp hnodup).1
  have hlength : (telling.map (·.registerId)).count id = (telling.filter (·.registerId = id)).length := by
    rw [List.count_eq_countP, List.countP_map, List.countP_eq_length_filter]
    rfl
  rw [hds, toldOf_dropped, List.map_const']
  show List.replicate (telling.filter (·.registerId = id)).length _ = _
  rw [← hlength]
  split
  · rename_i hmem
    rw [hcount hmem]
    rfl
  · rename_i hmem
    rw [List.count_eq_zero_of_not_mem hmem]
    rfl

theorem Taken.passage (h : s.Taken ds) {id : RegisterId} {i : Nat} {r : Removal}
    (did : r.Did (deedsOf (.removal i) ds)) :
    Passage (toldOf id (deedsOf (.removal i) ds)) := by
  rcases did.told with hnil | ⟨pid, telling, rest, hds, -⟩
  · rw [hnil]
    exact .pending
  · rw [h.once hds]
    split
    · exact .dropped
    · exact .pending

/-- What is told of the registers is told by those who have them in hand. -/
structure Voiced (s : Activities σ) (ds : List (Place × Deed)) (c : RegisterId → Course) : Prop where
  recorded : s.Recorded
  located : s.Located c
  did : s.Did ds
  taken : s.Taken ds
  acts : ∀ d ∈ ds, (∃ i, d.1 = .admission i) ∨ (∃ i, d.1 = .removal i) ∨ ∃ i, d.1 = .run i
  notices : s.shared.notices = ds.filterMap (·.2.notice?)

namespace Voiced

variable {id : RegisterId} {u : Ticket}

/-- Whoever tells of a register is the request that it was opened for, the run that has its package or the removal that
has taken it out. -/
theorem sources (h : s.Voiced ds c) {x : Place × Event} (hx : x ∈ toldBy id ds) :
    (∃ u ∈ s.record.opened, u.package.registerId = id ∧ x.1 = .admission u.request ∧
      (x.2 = .queued u.package.executionDate ∨ x.2 = .onQueue u.package.executionDate)) ∨
    (∃ i r, s.runs[i]? = some r ∧ r.package.registerId = id ∧ x.1 = .run i ∧
      (x.2 = .running r.package.executionDate ∨ ∃ e : Ending, x.2 = .finished (e.report r.package))) ∨
    ∃ i, id ∈ s.record.takenIds i ∧ x.1 = .removal i ∧ x.2 = .notExecuted := by
  obtain ⟨place, event⟩ := x
  obtain ⟨⟨n, hn⟩, hevent⟩ := mem_toldBy hx
  rcases h.acts _ hn with ⟨i, hi⟩ | ⟨i, hi⟩ | ⟨i, hi⟩ <;> obtain rfl : place = _ := hi
  · obtain ⟨u, hopened, hrequest, hid, hevent⟩ := told_by_request h.did hevent
    exact Or.inl ⟨u, hopened, hid, hrequest ▸ rfl, hevent⟩
  · obtain ⟨htaken, hevent⟩ := told_by_removal h.did h.taken hevent
    exact Or.inr (Or.inr ⟨i, htaken, rfl, hevent⟩)
  · obtain ⟨r, here, hid, hevent⟩ := told_by_run h.did hevent
    exact Or.inr (Or.inl ⟨i, r, here, hid, rfl, hevent⟩)

theorem teller_of_run (h : s.Voiced ds c) {i : Nat} {r : Run} (here : s.runs[i]? = some r) :
    (c r.package.registerId).teller = .run i :=
  Course.teller_of_run (h.located.placed.at_run here).1

theorem teller_of_taken (h : s.Voiced ds c) {i : Nat} (taken : id ∈ s.record.takenIds i) : (c id).teller = .removal i :=
  Course.teller_of_removal ((h.located.stripped id i).mpr taken)

theorem teller (h : s.Voiced ds c) {x : Place × Event} (hx : x ∈ toldBy id ds) :
    (∃ u ∈ s.record.opened, u.package.registerId = id ∧ x.1 = .admission u.request ∧ x.2.isAdmission = true) ∨
      x.1 = (c id).teller ∧ x.1 ≠ .nowhere ∧ x.2.isAdmission = false := by
  rcases h.sources hx with ⟨u, hu, hid, hplace, hevent⟩ | ⟨i, r, here, rfl, hplace, hevent⟩ |
    ⟨i, taken, hplace, hevent⟩
  · refine Or.inl ⟨u, hu, hid, hplace, ?_⟩
    rcases hevent with hevent | hevent <;> rw [hevent] <;> rfl
  · rw [hplace, h.teller_of_run here]
    refine Or.inr ⟨rfl, Place.noConfusion, ?_⟩
    rcases hevent with hevent | ⟨e, hevent⟩ <;> rw [hevent] <;> rfl
  · rw [hplace, h.teller_of_taken taken, hevent]
    exact Or.inr ⟨rfl, Place.noConfusion, rfl⟩

theorem unique (h : s.Voiced ds c) {u v : Ticket} (hu : u ∈ s.record.opened) (hv : v ∈ s.record.opened)
    (same : u.package.registerId = v.package.registerId) : u = v :=
  List.inj_on_of_nodup_map h.taken.opened hu hv same

theorem told_eq (h : s.Voiced ds c) : told id s.shared.notices = (toldBy id ds).map Prod.snd := by
  rw [h.notices]
  exact told_deeds id ds

/-- Nothing is told of a register that was not opened. -/
theorem unopened (h : s.Voiced ds c) (hid : id ∉ s.record.openedIds) : told id s.shared.notices = [] := by
  rw [h.told_eq, List.map_eq_nil_iff, List.eq_nil_iff_forall_not_mem]
  intro x hx
  rcases h.teller hx with ⟨u, hu, rfl, -⟩ | ⟨hplace, hsome, -⟩
  · exact hid (List.mem_map_of_mem hu)
  · have hopen : (c id).isOpened = false := Bool.eq_false_iff.mpr fun hopen => hid ((h.located.opened id).mp hopen)
    have hcourse : c id = .unopened := by
      cases hc : c id <;> rw [hc] at hopen <;> first | rfl | cases hopen
    rw [hplace, hcourse] at hsome
    exact hsome rfl

/-- The request tells of the admission, and whoever took the package of the rest. -/
theorem shares (h : s.Voiced ds c) (hu : u ∈ s.record.opened) :
    (told u.package.registerId s.shared.notices).filter (·.isAdmission) =
        toldOf u.package.registerId (deedsOf (.admission u.request) ds) ∧
      (told u.package.registerId s.shared.notices).filter (!·.isAdmission) =
        toldOf u.package.registerId (deedsOf (c u.package.registerId).teller ds) := by
  have hteller : ∀ x ∈ toldBy u.package.registerId ds,
      x.1 = .admission u.request ∧ x.2.isAdmission = true ∨
        x.1 = (c u.package.registerId).teller ∧ x.2.isAdmission = false := by
    intro x hx
    rcases h.teller hx with ⟨v, hv, hid, hplace, hadmission⟩ | ⟨hplace, -, hother⟩
    · obtain rfl := h.unique hv hu hid
      exact Or.inl ⟨hplace, hadmission⟩
    · exact Or.inr ⟨hplace, hother⟩
  have apart : ∀ i, (c u.package.registerId).teller ≠ .admission i := by
    intro i
    cases c u.package.registerId <;> exact Place.noConfusion
  rw [h.told_eq, List.filter_map, List.filter_map, told_place, told_place]
  constructor <;> congr 1 <;> refine List.filter_congr fun x hx => ?_
  · rcases hteller x hx with ⟨hplace, hadmission⟩ | ⟨hplace, hother⟩
    · simp [hplace, hadmission]
    · simp [hplace, hother, apart]
  · rcases hteller x hx with ⟨hplace, hadmission⟩ | ⟨hplace, hother⟩
    · simp [hplace, hadmission, (apart _).symm]
    · simp [hplace, hother]

theorem nobody (h : s.Voiced ds c) : deedsOf .nowhere ds = [] := by
  rw [deedsOf, List.map_eq_nil_iff, List.filter_eq_nil_iff]
  intro d hd hplace
  rcases h.acts d hd with ⟨i, hi⟩ | ⟨i, hi⟩ | ⟨i, hi⟩ <;> simp [hi] at hplace

/-- The package of a run is the one that was let in, but for the mark of having waited. -/
theorem package_of_run (h : s.Voiced ds c) (hu : u ∈ s.record.opened) {r : Run} (hr : r ∈ s.runs)
    (same : r.package.registerId = u.package.registerId) :
    ({ r.package with onQueue := false } : Package) = u.package := by
  have hmem : r.package ∈ s.record.dispatched.map (·.package) := h.recorded.dispatched ▸ List.mem_map_of_mem hr
  obtain ⟨v, hv, hpackage⟩ := List.mem_map.mp hmem
  have horigin := h.unique (h.recorded.origins v (Or.inr (Or.inl hv))) hu
    ((congrArg Package.registerId hpackage).trans same)
  rw [← horigin, ← hpackage]
  rfl

theorem admission (h : s.Voiced ds c) (hu : u ∈ s.record.opened) :
    if (s.admissions[u.request]?).any (·.isDone) then
      (told u.package.registerId s.shared.notices).filter (·.isAdmission) = [.queued u.package.executionDate] ∨
        (told u.package.registerId s.shared.notices).filter (·.isAdmission) = [.onQueue u.package.executionDate]
    else (told u.package.registerId s.shared.notices).filter (·.isAdmission) = [] := by
  have hmine : u ∈ s.record.opened.filter (·.request = u.request) := List.mem_filter.mpr ⟨hu, by simp⟩
  have hdid := h.did.admission u.request
  rw [(h.shares hu).1]
  cases here : s.admissions[u.request]? with
  | none =>
    rw [here] at hdid
    rw [hdid.1] at hmine
    cases hmine
  | some a =>
    rw [here] at hdid
    exact Admission.Did.told hdid hmine rfl

theorem passage (h : s.Voiced ds c) (hu : u ∈ s.record.opened) :
    Passage ((told u.package.registerId s.shared.notices).filter (!·.isAdmission)) := by
  have hthere := h.located.placed.there u.package.registerId
  have hstripped := h.located.stripped u.package.registerId
  -- Whoever has the package tells the rest: a run, a removal, or nobody yet.
  have byRun : ∀ i, (c u.package.registerId).place = .run i →
      Passage (toldOf u.package.registerId (deedsOf (.run i) ds)) := by
    intro i hplace
    rw [hplace] at hthere
    obtain ⟨p, hp, hid⟩ := List.mem_map.mp (hthere Place.noConfusion)
    obtain ⟨r, here, rfl⟩ := mem_heldAt_run hp
    have hdid := h.did.run i
    rw [here] at hdid
    rcases Run.Did.told hdid hid with ⟨htold | htold, -⟩ | ⟨e, htold⟩ <;> rw [htold]
    · exact .pending
    · exact .begun _
    · exact .ended _ _
  have byRemoval : ∀ i, (c u.package.registerId).removal? = some i →
      Passage (toldOf u.package.registerId (deedsOf (.removal i) ds)) := by
    intro i hremoval
    have hdid := h.did.removal i
    cases here : s.removals[i]? with
    | none =>
      rw [here] at hdid
      have hdid : deedsOf (.removal i) ds = [] := hdid
      rw [hdid]
      exact .pending
    | some r =>
      rw [here] at hdid
      exact h.taken.passage hdid
  rw [(h.shares hu).2]
  cases hc : c u.package.registerId with
  | unopened | admitted | queued =>
    show Passage (toldOf _ (deedsOf .nowhere ds))
    rw [h.nobody]
    exact .pending
  | dispatched i | started i | ended i => exact byRun i (by rw [hc]; rfl)
  | stripped i | dropped i => exact byRemoval i (by rw [hc]; rfl)

/-- Nothing but the admission is told before somebody takes the package from the queues. -/
theorem silent (h : s.Voiced ds c) (hu : u ∈ s.record.opened) (free : (c u.package.registerId).teller = .nowhere)
    (unfinished : (s.admissions[u.request]?).any (·.isDone) = false) :
    told u.package.registerId s.shared.notices = [] := by
  have hadmission := h.admission hu
  rw [unfinished, if_neg Bool.false_ne_true] at hadmission
  have hrest := (h.shares hu).2
  rw [free, h.nobody, toldOf_nil] at hrest
  rw [List.filter_eq_nil_iff] at hadmission hrest
  refine List.eq_nil_iff_forall_not_mem.mpr fun e he => ?_
  have hadmission := hadmission e he
  have hrest := hrest e he
  cases ha : e.isAdmission <;> simp [ha] at hadmission hrest

theorem announcing (h : s.Voiced ds c) {i : Nat} {p : Package} {event : Event}
    (here : s.admissions[i]? = some (.announce p event)) :
    event.isAdmission = true ∧ ∃ u ∈ s.record.opened, u.request = i ∧ u.package.registerId = p.registerId := by
  have hdid := h.did.admission i
  rw [here] at hdid
  obtain ⟨hevent, log, hts⟩ := hdid
  refine ⟨?_, ?_⟩
  · rcases hevent with ⟨rfl, -⟩ | ⟨rfl, -⟩ <;> rfl
  · have hmine := List.mem_singleton_self (⟨i, log, p⟩ : Ticket).origin
    rw [← hts] at hmine
    obtain ⟨hopened, hrequest⟩ := List.mem_filter.mp hmine
    exact ⟨_, hopened, of_decide_eq_true hrequest, rfl⟩

/-- What is told is in order exactly if its admission was told first. -/
theorem inOrder_iff (h : s.Voiced ds c) (hu : u ∈ s.record.opened) {before after : List Event} {e : Event}
    (all : told u.package.registerId s.shared.notices = before ++ e :: after) (admission : e.isAdmission = true)
    (only : before.filter (·.isAdmission) = []) : InOrder (before ++ e :: after) ↔ before = [] := by
  constructor
  · intro hordered
    cases before with
    | nil => rfl
    | cons x before =>
      have hx := List.filter_eq_nil_iff.mp only x List.mem_cons_self
      rcases hordered with hno | ⟨e', rest, heq, he', -⟩
      · cases hno
      · obtain rfl := (List.cons.inj heq).1
        exact absurd he' hx
  · rintro rfl
    have hadmission := h.admission hu
    have hpassage := h.passage hu
    rw [all, List.nil_append, List.filter_cons] at hadmission hpassage
    rw [admission] at hadmission hpassage
    -- There is one admission, so what is told after it is the rest.
    have hone : after.filter (·.isAdmission) = [] := by
      split at hadmission
      · rcases hadmission with hadmission | hadmission <;> exact (List.cons.inj hadmission).2
      · cases hadmission
    have hafter : after.filter (!·.isAdmission) = after := by
      refine List.filter_eq_self.mpr fun x hx => ?_
      simpa using List.filter_eq_nil_iff.mp hone x hx
    refine Or.inr ⟨e, after, rfl, admission, ?_⟩
    rw [← hafter]
    exact hpassage

end Voiced

variable [Storage σ]

theorem takenIds_step (other : ∀ i now pid, m = .removal i now → s.removals[i]? ≠ some (.strip pid)) :
    (s.step m).record.takenIds = s.record.takenIds := by
  obtain ⟨t, ht⟩ : ∃ t, s.step m = t := ⟨_, rfl⟩
  have hm := step_cases s m
  rw [ht] at hm ⊢
  cases hm with
  | alike halike => rw [halike.record]
  | forget pid => exact funext s.record.takenIds_concat
  | @admission i now a here => exact s.record.takenIds_admitted i a _
  | @removal i now r here =>
    show (s.record.removed i r).takenIds = _
    cases r with
    | strip pid => exact absurd here (other i now pid rfl)
    | forget | takeLog | close | announce | done => rfl
  | dispatch popped =>
    show (s.record.dispatch _).takenIds = _
    unfold Record.dispatch
    split <;> rfl
  | request | run | answer | release | select => rfl

theorem strips_of_deed? {place : Place} {pid : ProcessId} {ps : List Package}
    (h : s.deed? m = some (place, .strips pid ps)) :
    ∃ i now pid, m = .removal i now ∧ s.removals[i]? = some (.strip pid) := by
  cases m with
  | removal i now =>
    obtain ⟨r, here, hr⟩ := Option.bind_eq_some_iff.mp h
    obtain ⟨d, hd, hplace⟩ := Option.map_eq_some_iff.mp hr
    obtain rfl := congrArg Prod.snd hplace
    cases r with
    | strip pid => exact ⟨i, now, pid, rfl, here⟩
    | announce | forget | takeLog | close | done => cases hd
  | admission i now =>
    obtain ⟨a, -, ha⟩ := Option.bind_eq_some_iff.mp h
    obtain ⟨d, hd, hplace⟩ := Option.map_eq_some_iff.mp ha
    obtain rfl := congrArg Prod.snd hplace
    unfold Admission.deed? at hd
    split at hd <;> cases hd
  | run i now =>
    obtain ⟨r, -, hr⟩ := Option.bind_eq_some_iff.mp h
    obtain ⟨d, hd, hplace⟩ := Option.map_eq_some_iff.mp hr
    obtain rfl := congrArg Prod.snd hplace
    unfold Run.deed? at hd
    split at hd <;> cases hd
  | _ => cases h

variable [RowStorage σ] [EntryStorage σ] {table : LogTable} {start : RegisterId → Option Entry} {ks : List Closing}

namespace Taken

/-- A number that is given to a register was not given before. -/
theorem nodup_openedIds (h : s.Taken ds) (hs : Orderly ⟨some table⟩ s) (he : Entered table start s c ks) (m : Move) :
    (s.step m).record.openedIds.Nodup := by
  rcases opened_stepped (step_cases s m) with hopened | ⟨i, logger, pid, date, now, id, here, started, -, hopened⟩ <;>
    rw [Record.openedIds, hopened]
  · exact h.opened
  · have hlogger : logger = ⟨some table⟩ := hs.admissions _ (List.mem_of_getElem? here)
    rw [hlogger] at started
    rw [List.map_append]
    refine List.nodup_append.mpr ⟨h.opened, List.nodup_singleton _, ?_⟩
    rintro old hold _ hnew rfl
    obtain rfl := List.mem_singleton.mp hnew
    have hopen := (he.located.opened _).mpr hold
    rw [he.fresh started] at hopen
    cases hopen

omit [Storage σ] [RowStorage σ] [EntryStorage σ] in
/-- A removal that is about to take packages out has done nothing before. -/
theorem not_strips (hd : s.Did ds) {i : Nat} {pid owner : ProcessId} {ps : List Package}
    (here : s.removals[i]? = some (.strip pid)) : (Place.removal i, Deed.strips owner ps) ∉ ds := by
  intro hmem
  have hnone := hd.removal i
  rw [here] at hnone
  have hnone : deedsOf (.removal i) ds = [] := hnone
  have hdid : Deed.strips owner ps ∈ deedsOf (.removal i) ds :=
    List.mem_map.mpr ⟨_, List.mem_filter.mpr ⟨hmem, by simp⟩, rfl⟩
  rw [hnone] at hdid
  cases hdid

theorem step (h : s.Taken ds) (hd : s.Did ds) (hr : s.Recorded) (hs : Orderly ⟨some table⟩ s)
    (he : Entered table start s c ks) (m : Move) : (s.step m).Taken (ds ++ (s.deed? m).toList) := by
  refine ⟨h.nodup_openedIds hs he m, ?_⟩
  by_cases hstrip : ∃ i now pid, m = .removal i now ∧ s.removals[i]? = some (.strip pid)
  · obtain ⟨i, now, pid, rfl, here⟩ := hstrip
    have hstep : s.step (.removal i now) = s.stepRemoval i (.strip pid) now := by
      simp only [Activities.step, here, Option.elim_some]
    have hdeed : s.deed? (.removal i now) = some (.removal i, .strips pid (s.shared.scheduler.remove pid).1) := by
      simp only [deed?, here, Option.bind_some, Removal.deed?, Option.map_some]
    rw [hstep, hdeed]
    intro j owner ps hmem
    rw [hr.takenIds_strip here now j]
    rcases List.mem_append.mp hmem with hold | hnew
    · rw [if_neg fun hj => not_strips hd here (hj ▸ hold)]
      exact h.taken j owner ps hold
    · obtain ⟨hi, -, rfl⟩ : j = i ∧ owner = pid ∧ ps = (s.shared.scheduler.remove pid).1 := by simpa using hnew
      have hperm := (Scheduler.packages_remove hr.tidy.sorted pid).map (·.registerId)
      rw [if_pos hi, Scheduler.remove_fst]
      refine ⟨rfl, ?_⟩
      rw [Scheduler.remove_fst, List.map_append] at hperm
      exact (List.nodup_append.mp (hperm.nodup_iff.mp (he.located.placed.distinct .queues))).1
  · have hsame := takenIds_step (s := s) (m := m) fun i now pid hm here => hstrip ⟨i, now, pid, hm, here⟩
    intro j owner ps hmem
    rw [hsame]
    rcases List.mem_append.mp hmem with hold | hnew
    · exact h.taken j owner ps hold
    -- Packages are taken out by a removal that is about to, and by nobody else.
    · refine absurd (Option.mem_toList.mp hnew) fun hdeed => hstrip ?_
      exact strips_of_deed? hdeed

end Taken

theorem taken_after (service : Service σ) (fresh : service.shared.scheduler = {})
    (hl : service.shared.logger = ⟨some table⟩) (sound : RowStorage.Sound service.shared.storage) {moves : List Move}
    (stays : ∀ m ∈ moves, m.isSelect = false) :
    ((ofService service).after moves).Taken ((ofService service).deeds moves) := by
  induction moves using List.reverseRecOn with
  | nil => exact ⟨List.nodup_nil, fun _ _ _ hno => by cases hno⟩
  | append_singleton moves m ih =>
    have hbefore : ∀ m ∈ moves, m.isSelect = false := fun m' hm' => stays m' (List.mem_append_left _ hm')
    obtain ⟨hr, hs, c, hc⟩ := entered_after service fresh hl sound hbefore
    have hstep := (ih hbefore).step ((did_start service).after moves) hr hs hc m
    rw [after_append, deeds_append, deeds, deeds, List.append_nil]
    exact hstep

omit [RowStorage σ] [EntryStorage σ] in
theorem acts_of_deeds {moves : List Move} {d : Place × Deed} (h : d ∈ s.deeds moves) :
    (∃ i, d.1 = .admission i) ∨ (∃ i, d.1 = .removal i) ∨ ∃ i, d.1 = .run i := by
  obtain ⟨_, _, _, -, hd⟩ := mem_deeds h
  exact place_of_deed? hd

theorem voiced_after (service : Service σ) (fresh : service.shared.scheduler = {})
    (silent : service.shared.notices = [])
    (hl : service.shared.logger = ⟨some table⟩) (sound : RowStorage.Sound service.shared.storage) {moves : List Move}
    (stays : ∀ m ∈ moves, m.isSelect = false) :
    ∃ c, ((ofService service).after moves).Voiced ((ofService service).deeds moves) c := by
  obtain ⟨hr, -, c, hc⟩ := entered_after service fresh hl sound stays
  refine ⟨c, hr, hc.located, (did_start service).after moves, taken_after service fresh hl sound stays,
    fun d => acts_of_deeds, ?_⟩
  rw [notices_after, show (ofService service).shared.notices = [] from silent]
  rfl

omit [RowStorage σ] [EntryStorage σ] in
theorem opened_after {u : Ticket} (h : u ∈ s.record.opened) (moves : List Move) :
    u ∈ (s.after moves).record.opened := by
  refine after_keep (P := fun s => u ∈ s.record.opened) s h fun s h m _ => ?_
  rcases opened_stepped (step_cases s m) with hopened | ⟨_, _, _, _, _, _, -, -, -, hopened⟩ <;> rw [hopened]
  · exact h
  · exact List.mem_append_left _ h

/-- What is told of the register of a ticket is what its request and whoever took its package have come to. -/
structure Account (s : Activities σ) (u : Ticket) (events : List Event) : Prop where
  admission : if (s.admissions[u.request]?).any (·.isDone) then
      events.filter (·.isAdmission) = [.queued u.package.executionDate] ∨
        events.filter (·.isAdmission) = [.onQueue u.package.executionDate]
    else events.filter (·.isAdmission) = []
  passage : Passage (events.filter (!·.isAdmission))
  /-- The run that has the package tells of its start and of its end, and a removal that took it out of that. -/
  mine : ∀ e ∈ events, e.isAdmission = false →
    (∃ r ∈ s.runs, ({ r.package with onQueue := false } : Package) = u.package ∧
      (e = .running u.package.executionDate ∨ ∃ ending : Ending, e = .finished (ending.report r.package))) ∨
    (∃ i, u.package.registerId ∈ s.record.takenIds i) ∧ e = .notExecuted
  ended : ∀ r ∈ s.runs, r.package.registerId = u.package.registerId → r.stage = .finished → ∃ ending : Ending,
    events.filter (!·.isAdmission) = [.running u.package.executionDate, .finished (ending.report r.package)]
  dropped : ∀ i count, u.package.registerId ∈ s.record.takenIds i → s.removals[i]? = some (.done count) →
    events.filter (!·.isAdmission) = [.notExecuted]

omit [Storage σ] [RowStorage σ] [EntryStorage σ] in
theorem Voiced.account (h : s.Voiced ds c) {u : Ticket} (hu : u ∈ s.record.opened) :
    s.Account u (told u.package.registerId s.shared.notices) where
  admission := h.admission hu
  passage := h.passage hu
  mine e he hother := by
    rw [h.told_eq] at he
    obtain ⟨x, hx, rfl⟩ := List.mem_map.mp he
    rcases h.sources hx with ⟨v, -, -, -, hevent⟩ | ⟨i, r, here, hid, -, hevent⟩ | ⟨i, htaken, -, hevent⟩
    · rcases hevent with hevent | hevent <;> rw [hevent] at hother <;> cases hother
    · have hr := List.mem_of_getElem? here
      have hpackage := h.package_of_run hu hr hid
      refine Or.inl ⟨r, hr, hpackage, ?_⟩
      rwa [← hpackage]
    · exact Or.inr ⟨⟨i, htaken⟩, hevent⟩
  ended r hr hid hover := by
    obtain ⟨i, here⟩ := List.mem_iff_getElem?.mp hr
    have hpackage := h.package_of_run hu hr hid
    have hdid := h.did.run i
    have hteller := h.teller_of_run here
    rw [here] at hdid
    rw [hid] at hteller
    rw [(h.shares hu).2, hteller, ← hpackage]
    rcases Run.Did.told hdid rfl with ⟨-, hno⟩ | ⟨ending, htold⟩
    · exact absurd hover hno
    · exact ⟨ending, htold⟩
  dropped i count htaken hdone := by
    have hdid := h.did.removal i
    rw [hdone] at hdid
    obtain ⟨pid, taken, hds, -⟩ := hdid
    have hteller := h.teller_of_taken htaken
    rw [(h.taken.taken i pid taken (strips_of_deedsOf hds)).1] at htaken
    have hall : deedsOf (.removal i) ds = Removal.dropped pid (taken ++ []) taken := by rwa [List.append_nil]
    rw [(h.shares hu).2, hteller, h.taken.once hall, if_pos htaken]

omit [RowStorage σ] [EntryStorage σ] in
/-- When a request announces, its event comes in order exactly if nothing was told of its register before. -/
theorem Voiced.inOrder_announced {c' : RegisterId → Course} {ds' : List (Place × Deed)} {before after : List Move}
    {i : Nat} {now : Instant} {p : Package} {event : Event}
    (h : (s.after (before ++ .admission i now :: after)).Voiced ds c) (h' : (s.after before).Voiced ds' c')
    (here : (s.after before).admissions[i]? = some (.announce p event)) :
    InOrder (told p.registerId (s.after (before ++ .admission i now :: after)).shared.notices) ↔
      told p.registerId (s.after before).shared.notices = [] := by
  obtain ⟨hadmission, u, hu, rfl, hid⟩ := h'.announcing here
  have hdeed : (s.after before).deed? (.admission u.request now) =
      some (.admission u.request, .announces (p.notice event)) := by
    simp only [deed?, here, Option.bind_some]
    rfl
  -- The announcement parts what is told before it from what is told after it. Before it the admission is not told:
  -- the request tells it once, and is only about to.
  have htold : told p.registerId (s.after (before ++ .admission u.request now :: after)).shared.notices =
      told p.registerId (s.after before).shared.notices ++ event :: told p.registerId
        ((((s.after before).step (.admission u.request now)).deeds after).filterMap (·.2.notice?)) := by
    rw [after_append, notices_after, told_append, deeds, hdeed]
    exact congrArg (_ ++ ·) told_notice
  have hno := h'.admission hu
  rw [here, if_neg (by exact Bool.false_ne_true)] at hno
  rw [← hid] at htold ⊢
  have hopened : u ∈ (s.after (before ++ .admission u.request now :: after)).record.opened := by
    rw [after_append]
    exact opened_after hu _
  rw [htold]
  exact h.inOrder_iff hopened htold hadmission hno

omit [Storage σ] [RowStorage σ] [EntryStorage σ] in
/-- Whoever takes a package from the queues tells the rest of its register, so nothing is told while it is there and its
request is only about to tell. -/
theorem Voiced.silent_of_queued (h : s.Voiced ds c) {i : Nat} {p : Package} {event : Event}
    (here : s.admissions[i]? = some (.announce p event)) (hp : p ∈ s.shared.scheduler.packages) :
    told p.registerId s.shared.notices = [] := by
  obtain ⟨-, u, hu, rfl, hid⟩ := h.announcing here
  have hplace := (h.located.placed.here .queues p hp).1
  rw [← hid] at hplace ⊢
  refine h.silent hu (by rw [Course.eq_queued hplace]; rfl) ?_
  rw [here]
  rfl

/-- For every interleaving without a selection, whichever calls of the storage fail: nothing is told of a register that
was not opened; of every other its request tells once it is done, and whoever took its package tells the rest in its
order. A register's admission is told first exactly if nothing was told of it when its request came to tell, as is so
while its package is still in the queues. However the channel receives, whoever subscribes and whenever it begins to
listen, what is told is heard in this order, from the subscription and from the launch on; and every service is such an
interleaving of its activities and its channel. -/
theorem announcements_follow_the_course (kind : ServiceKind) (instanceId cores workers : Nat) (registry : Registry)
    {storage : σ} (sound : RowStorage.Sound storage) (table : LogTable) {moves : List Move}
    (stays : ∀ m ∈ moves, m.isSelect = false) :
    let service := Service.create kind instanceId cores workers ⟨some table⟩ registry storage
    let first := ofService service
    let s := first.after moves
    (∀ id, id ∉ s.record.openedIds → told id s.shared.notices = []) ∧
    (∀ u ∈ s.record.opened, s.Account u (told u.package.registerId s.shared.notices)) ∧
    (∀ before i now after p event, moves = before ++ .admission i now :: after →
      (first.after before).admissions[i]? = some (.announce p event) →
      (InOrder (told p.registerId s.shared.notices) ↔ told p.registerId (first.after before).shared.notices = []) ∧
      (p ∈ (first.after before).shared.scheduler.packages →
        told p.registerId (first.after before).shared.notices = [])) ∧
    (∀ airings : List Airing, airings.filterMap (·.move?) = moves →
      ((Aired.ofService service).after airings).activities = s ∧ (Aired.ofService service).Tells airings) ∧
    ∀ before calls : List (Instant × ServiceCall), ∃ early late : List Airing,
      early.filterMap (·.subscriber?) = before.filterMap (·.2.subscriber?) ∧
      late.filterMap (·.subscriber?) = calls.filterMap (·.2.subscriber?) ∧
      ((∀ c ∈ before ++ calls, c.2.isSelect = false) →
        ∀ m ∈ (early ++ late).filterMap (·.move?), m.isSelect = false) ∧
      Aired.Follows (service.afterCalls before) ((Aired.ofService service).after early) ∧
      Aired.Follows (service.afterCalls (before ++ calls)) ((Aired.ofService service).after (early ++ late)) := by
  intro service first s
  obtain ⟨c, hc⟩ := voiced_after service rfl rfl rfl sound stays
  refine ⟨fun id => hc.unopened, fun u hu => hc.account hu, ?_, fun airings hmoves => ⟨?_, ?_⟩,
    Aired.follows_calls (Aired.follows_start kind instanceId cores workers ⟨some table⟩ registry storage)⟩
  · rintro before i now after p event rfl here
    have hbefore : ∀ m ∈ before, m.isSelect = false := fun m hm => stays m (List.mem_append_left _ hm)
    obtain ⟨c', hc'⟩ := voiced_after service rfl rfl rfl sound hbefore
    exact ⟨hc.inOrder_announced hc' here, hc'.silent_of_queued here⟩
  · rw [Aired.activities_after, hmoves]
    rfl
  · exact Aired.tells_start kind instanceId cores workers ⟨some table⟩ registry storage airings

theorem announcements_follow_the_course_of_removalBehindRun :
    RowStorage.Sound soloLog ∧ (∀ m ∈ removalBehindRun, m.isSelect = false) ∧
      let s := (ofService (Service.create .collector 1 4 2 ⟨some soloTable⟩ soloRegistry soloLog)).after
        removalBehindRun
      (told 1 s.shared.notices).map (·.isAdmission) = [true, false, false] ∧ InOrder (told 1 s.shared.notices) ∧
        (told 2 s.shared.notices).map (·.isAdmission) = [true, false] := by
  have stays : ∀ m ∈ removalBehindRun, m.isSelect = false := by decide
  obtain ⟨-, -, horder, -, -⟩ :=
    announcements_follow_the_course .collector 1 4 2 soloRegistry sound_soloLog soloTable stays
  refine ⟨sound_soloLog, stays, by decide +kernel, ?_, by decide +kernel⟩
  refine (horder (removalBehindRun.take 7) 0 .epoch (removalBehindRun.drop 8) ⟨1, 1, .epoch, false⟩
    (.queued .epoch) rfl rfl).1.mpr ?_
  decide +kernel

/-- A run begins before the request that let its package in tells of it. -/
def admissionOvertaken : List Move :=
  [.request 1 .epoch, .launch] ++ List.replicate 5 (.admission 0 .epoch) ++ [.loop, .loop, .run 0 .epoch, .run 0 .epoch,
    .admission 0 .epoch]

/-- A process is requested before the launch. -/
def requestedEarly : List (Instant × ServiceCall) :=
  [(.epoch, .subscribe ⟨"watch", .every, none⟩), (.epoch, .add ⟨1, 1, true, none⟩), (.epoch, .trigger 1 .epoch),
    (.epoch, .launch), (.epoch, .settle)]

/-- A run that overtakes its request tells of its start before the admission is told, and who has subscribed before the
launch hears of the start of a run but not of its admission. -/
theorem announcements_overtaken :
    let service := Service.create .collector 1 4 2 ⟨some soloTable⟩ soloRegistry soloLog
    let s := (ofService service).after admissionOvertaken
    (∀ m ∈ admissionOvertaken, m.isSelect = false) ∧ ¬ InOrder (told 1 s.shared.notices) ∧
      (told 1 s.shared.notices).map (·.isAdmission) = [false, true] ∧
      (told 1 ((service.afterCalls requestedEarly).channel.heardBy ⟨"watch", .every, none⟩)).map
        (·.isAdmission) = [false] := by
  intro service s
  have htold : (told 1 s.shared.notices).map (·.isAdmission) = [false, true] := by decide +kernel
  refine ⟨by decide, ?_, htold, by decide +kernel⟩
  rintro (hno | ⟨e, rest, heq, hadmission, -⟩)
  · rw [hno] at htold
    cases htold
  · rw [heq, List.map_cons, hadmission] at htold
    cases (List.cons.inj htold).1

end Activities

end ProcessRuns
