import ProcessRuns.Proofs.Activities.Deeds
import ProcessRuns.Proofs.Service.Channel

/-! # What subscribers hear

The channel works beside the activities: what they publish it receives later, and somebody may subscribe between any two
steps. `Aired` holds both, and an `Airing` is a step of either. What is passed on is a stretch of what is published,
from the first event after the channel began to listen on; whoever subscribes hears of it from then on, in its order.
Every service is such an interleaving. -/

namespace ProcessRuns

/-- Activities, and the channel that passes their events on. -/
structure Aired (σ : Type) where
  activities : Activities σ
  channel : Channel := {}
  /-- The channel listens from the launch on, until the service stops. -/
  phase : Service.Phase := .created
  /-- What the channel has received, oldest first. -/
  passed : List Notice := []

/-- What may happen next. -/
inductive Airing where
  /-- A step of the activities. -/
  | move (m : Move)
  | subscribe (subscriber : Subscriber)
  /-- The channel begins to listen. -/
  | listen
  /-- The channel receives an event. -/
  | receive
  /-- A task of the channel tells its event. -/
  | tell (i : Nat)
  /-- The channel sees that the service stops. -/
  | shut

namespace Airing

/-- The step of the activities. -/
def move? : Airing → Option Move
  | move m => some m
  | _ => none

/-- Who subscribes. -/
def subscriber? : Airing → Option Subscriber
  | subscribe x => some x
  | _ => none

end Airing

namespace Aired

variable {σ : Type}

/-- A service with nothing under way, and its channel. -/
def ofService (s : Service σ) : Aired σ := { activities := .ofService s, channel := s.channel, phase := s.phase }

/-- What was published, oldest first. -/
def events (a : Aired σ) : List Notice := a.activities.shared.notices

/-- What somebody has heard, oldest first. -/
def heardBy (a : Aired σ) (subscriber : Subscriber) : List Notice := a.channel.heardBy subscriber

variable [Storage σ]

/-- What an airing leads to; one that is not possible leads nowhere. -/
def step (a : Aired σ) : Airing → Aired σ
  | .move m => { a with activities := a.activities.step m }
  | .subscribe x => { a with channel := a.channel.subscribe x }
  | .listen =>
    match a.phase with
    | .created => { a with phase := .launched, channel := a.channel.listen a.events }
    | _ => a
  | .receive =>
    match a.phase with
    | .launched =>
      { a with
        channel := a.channel.receive a.events
        passed := a.passed ++ (a.channel.next? a.events).toList }
    | _ => a
  | .tell i => { a with channel := a.channel.tell i }
  | .shut => { a with phase := .stopped }

/-- Where an interleaving leads. -/
def after (a : Aired σ) (airings : List Airing) : Aired σ := airings.foldl step a

/-- How what is published is heard of. -/
structure Tells (start : Aired σ) (airings : List Airing) : Prop where
  /-- What is passed on are the events from the first one after the channel began to listen on, as far as the channel
  has come. -/
  stretch : ∀ before after, airings = before ++ .listen :: after → .listen ∉ before →
    let a := start.after airings
    a.passed = (a.events.take a.channel.place).drop (start.after before).events.length
  /-- A channel that does not listen passes nothing on. -/
  unheard : .listen ∉ airings → (start.after airings).passed = []
  /-- Nobody hears of what was not passed on. -/
  passedOn : ∀ d ∈ (start.after airings).channel.deliveries, d.notice ∈ (start.after airings).passed
  /-- Who has subscribed once, be it before the launch or later, and does not hear apart, has heard what it wants to
  hear of all that was passed on since: every event once, and in the order of publication. -/
  inOrder : ∀ before subscriber after, airings = before ++ .subscribe subscriber :: after →
    subscriber.isApart = false → .subscribe subscriber ∉ before → .subscribe subscriber ∉ after →
    let a := start.after airings
    a.heardBy subscriber = (a.passed.drop (start.after before).passed.length).filter (subscriber.hears ·)

variable {a b : Aired σ} {h : Airing} {subscriber : Subscriber} {k : Nat}

theorem after_append (airings more : List Airing) : a.after (airings ++ more) = (a.after airings).after more :=
  List.foldl_append

theorem after_keep {P : Aired σ → Prop} {airings : List Airing} (start : P a)
    (each : ∀ b, P b → ∀ h ∈ airings, P (b.step h)) : P (a.after airings) :=
  List.foldlRecOn airings step start each

/-- The channel has no influence on the activities. -/
theorem activities_after (a : Aired σ) (airings : List Airing) :
    (a.after airings).activities = a.activities.after (airings.filterMap (·.move?)) := by
  induction airings generalizing a with
  | nil => rfl
  | cons h airings ih =>
    refine (ih (a.step h)).trans ?_
    cases h with
    | move m => rfl
    | listen | receive =>
      simp only [step]
      split <;> rfl
    | subscribe | tell | shut => rfl

/-! ### What a step leads to -/

/-- The state after a step: activities go on, somebody subscribes, the channel begins to listen, receives an event,
tells one apart, or sees that the service stops; and nothing else changes. -/
inductive Stepped (a b : Aired σ) : Airing → Prop where
  | stays {h : Airing} (subscribes : h.subscriber? = none) (unheard : h = .listen → a.phase ≠ .created) (same : b = a) :
    Stepped a b h
  | goes {m : Move} (more : List Notice) (events : b.events = a.events ++ more) (channel : b.channel = a.channel)
    (phase : b.phase = a.phase) (passed : b.passed = a.passed) : Stepped a b (.move m)
  | subscribe {x : Subscriber} (same : b = { a with channel := a.channel.subscribe x }) : Stepped a b (.subscribe x)
  | listen (created : a.phase = .created)
    (same : b = { a with phase := .launched, channel := a.channel.listen a.events }) : Stepped a b .listen
  | receive (launched : a.phase = .launched) {n : Notice} (next : a.events[a.channel.place]? = some n)
    (same : b = { a with
      passed := a.passed ++ [n]
      channel := { a.channel with
        place := a.channel.place + 1
        tasks := a.channel.tasks ++ [n]
        deliveries := a.channel.deliveries ++ Subscriber.deliver (a.channel.subscribers.filter (!·.isApart)) n } }) :
    Stepped a b .receive
  | tell {i : Nat} {n : Notice} (task : n ∈ a.channel.tasks)
    (same : b = { a with
      channel := { a.channel with
        tasks := a.channel.tasks.eraseIdx i
        deliveries := a.channel.deliveries ++ Subscriber.deliver (a.channel.subscribers.filter (·.isApart)) n } }) :
    Stepped a b (.tell i)
  | shut (same : b = { a with phase := .stopped }) : Stepped a b .shut

theorem step_cases (a : Aired σ) (h : Airing) : Stepped a (a.step h) h := by
  cases h with
  | move m => exact .goes _ (a.activities.notices_step m) rfl rfl rfl
  | subscribe x => exact .subscribe rfl
  | listen =>
    simp only [step]
    cases hphase : a.phase with
    | created => exact .listen hphase rfl
    | launched | stopped => exact .stays rfl (fun _ hno => by cases hphase.symm.trans hno) rfl
  | receive =>
    simp only [step]
    cases hphase : a.phase with
    | created | stopped => exact .stays rfl nofun rfl
    | launched =>
      cases hnext : a.channel.next? a.events with
      | none =>
        refine .stays rfl nofun ?_
        simp only [Channel.receive_of_none hnext, Option.toList_none, List.append_nil]
        exact congrArg (fun phase => ({ a with phase } : Aired σ)) hphase.symm
      | some n =>
        refine .receive hphase (Channel.getElem?_of_next hnext) ?_
        simp only [Channel.receive_of_next hnext, Option.toList_some]
        exact congrArg (fun phase => ({ a with phase, passed := _, channel := _ } : Aired σ)) hphase.symm
  | tell i =>
    rcases a.channel.tell_cases i with hsame | ⟨n, htask, htell⟩
    · exact .stays rfl nofun (congrArg (fun channel => { a with channel }) hsame)
    · exact .tell (List.mem_of_getElem? htask) (congrArg (fun channel => { a with channel }) htell)
  | shut => exact .shut rfl

/-! ### Before the channel listens -/

/-- The channel did not listen yet, or the service has stopped before it could. -/
structure Quiet (a : Aired σ) : Prop where
  phase : a.phase ≠ .launched
  place : a.channel.place = 0
  passed : a.passed = []

theorem Quiet.step (hq : Quiet a) (other : h ≠ .listen) : Quiet (a.step h) := by
  cases step_cases a h with
  | stays _ _ same => rwa [same]
  | goes _ _ channel phase passed => exact ⟨phase ▸ hq.phase, channel ▸ hq.place, passed ▸ hq.passed⟩
  | subscribe same | tell _ same => exact same ▸ ⟨hq.phase, hq.place, hq.passed⟩
  | listen => exact absurd rfl other
  | receive launched => exact absurd launched hq.phase
  | shut same => exact same ▸ ⟨nofun, hq.place, hq.passed⟩

theorem Quiet.after (hq : Quiet a) {airings : List Airing} (unheard : .listen ∉ airings) : Quiet (a.after airings) :=
  after_keep hq fun _ hb _ hh => hb.step fun heq => unheard (heq ▸ hh)

/-! ### What is passed on -/

/-- What was passed on is a stretch of what was published, from the `k`-th event on. -/
structure Passing (k : Nat) (a : Aired σ) : Prop where
  phase : a.phase ≠ .created
  begun : a.phase = .launched → k ≤ a.channel.place
  behind : a.channel.place ≤ a.events.length
  passed : a.passed = (a.events.take a.channel.place).drop k

/-- One event more is taken and passed on. -/
theorem drop_take_succ {α : Type} {l : List α} {k place : Nat} {x : α} (next : l[place]? = some x)
    (begun : k ≤ place) :
    (l.take (place + 1)).drop k = (l.take place).drop k ++ [x] := by
  obtain ⟨hlt, rfl⟩ := List.getElem?_eq_some_iff.mp next
  rw [List.take_succ_eq_append_getElem hlt, List.drop_append_of_le_length]
  rwa [List.length_take, Nat.min_eq_left (Nat.le_of_lt hlt)]

theorem Quiet.listen (hq : Quiet a) : Passing a.events.length (a.step .listen) := by
  have hnone : ∀ {k}, k = 0 → (a.events.take k).drop a.events.length = [] :=
    fun hk => by rw [hk, List.take_zero, List.drop_nil]
  cases step_cases a .listen with
  | stays _ unheard same =>
    rw [same]
    refine ⟨unheard rfl, fun launched => absurd launched hq.phase, hq.place ▸ Nat.zero_le _, ?_⟩
    rw [hq.passed, hnone hq.place]
  | listen _ same =>
    rw [same]
    refine ⟨nofun, fun _ => Nat.le_refl _, Nat.le_refl _, ?_⟩
    show a.passed = (a.events.take a.events.length).drop a.events.length
    rw [hq.passed, List.take_length, List.drop_length]

theorem Passing.step (hp : Passing k a) : Passing k (a.step h) := by
  cases step_cases a h with
  | stays _ _ same => rwa [same]
  | goes more events channel phase passed =>
    refine ⟨phase ▸ hp.phase, fun launched => channel ▸ hp.begun (phase ▸ launched), ?_, ?_⟩
    · rw [events, channel, List.length_append]
      exact Nat.le_add_right_of_le hp.behind
    · rw [events, channel, passed, List.take_append_of_le_length hp.behind, hp.passed]
  | subscribe same | tell _ same => exact same ▸ ⟨hp.phase, hp.begun, hp.behind, hp.passed⟩
  | listen created => exact absurd created hp.phase
  | receive launched next same =>
    rw [same]
    refine ⟨hp.phase, fun _ => Nat.le_succ_of_le (hp.begun launched), (List.getElem?_eq_some_iff.mp next).1, ?_⟩
    show a.passed ++ [_] = (a.events.take (a.channel.place + 1)).drop k
    rw [drop_take_succ next (hp.begun launched), ← hp.passed]
  | shut same => exact same ▸ ⟨nofun, nofun, hp.behind, hp.passed⟩

theorem Passing.after (hp : Passing k a) (airings : List Airing) : Passing k (a.after airings) :=
  after_keep hp fun _ hb _ _ => hb.step

/-! ### What is heard -/

/-- Only who has subscribed hears, and only of what was passed on. -/
structure Told (a : Aired σ) : Prop where
  tasks : ∀ n ∈ a.channel.tasks, n ∈ a.passed
  deliveries : ∀ d ∈ a.channel.deliveries, d.subscriber ∈ a.channel.subscribers ∧ d.notice ∈ a.passed

theorem Told.step (ht : Told a) : Told (a.step h) := by
  -- Deliveries that are added go to subscribers, and are about an event that was passed on.
  have added : ∀ {passed : List Notice} {n : Notice} {p : Subscriber → Bool}, a.passed ⊆ passed → n ∈ passed →
      ∀ d ∈ a.channel.deliveries ++ Subscriber.deliver (a.channel.subscribers.filter p) n,
        d.subscriber ∈ a.channel.subscribers ∧ d.notice ∈ passed := by
    intro passed n p hsub hn d hd
    rcases List.mem_append.mp hd with hd | hd
    · exact ⟨(ht.deliveries d hd).1, hsub (ht.deliveries d hd).2⟩
    · obtain ⟨hx, rfl⟩ := Channel.mem_deliver hd
      exact ⟨(List.mem_filter.mp hx).1, hn⟩
  cases step_cases a h with
  | stays _ _ same => rwa [same]
  | goes _ _ channel _ passed => exact ⟨channel ▸ passed ▸ ht.tasks, channel ▸ passed ▸ ht.deliveries⟩
  | subscribe same =>
    rw [same]
    exact ⟨ht.tasks, fun d hd => ⟨List.mem_append_left _ (ht.deliveries d hd).1, (ht.deliveries d hd).2⟩⟩
  | listen _ same | shut same => exact same ▸ ⟨ht.tasks, ht.deliveries⟩
  | receive _ _ same =>
    rw [same]
    refine ⟨fun n hn => ?_, added (List.subset_append_left ..) (List.mem_append_right _ (List.mem_singleton_self _))⟩
    rcases List.mem_append.mp hn with hn | hn
    · exact List.mem_append_left _ (ht.tasks n hn)
    · exact List.mem_append_right _ hn
  | tell task same =>
    rw [same]
    exact ⟨fun n hn => ht.tasks n (List.mem_of_mem_eraseIdx hn), added (List.Subset.refl _) (ht.tasks _ task)⟩

/-- A subscriber has heard what it wants to hear of what was passed on, from the `k`-th event passed on on. -/
structure Listens (subscriber : Subscriber) (k : Nat) (a : Aired σ) : Prop where
  once : a.channel.subscribers.count subscriber = 1
  begun : k ≤ a.passed.length
  heard : a.heardBy subscriber = (a.passed.drop k).filter (subscriber.hears ·)

omit [Storage σ] in
/-- Who does not hear apart hears of an event as it is received, and of none when a task tells it. -/
theorem told_inPlace (inPlace : subscriber.isApart = false) (once : a.channel.subscribers.count subscriber = 1)
    (n : Notice) :
    ((Subscriber.deliver (a.channel.subscribers.filter (!·.isApart)) n).filter
        (·.subscriber = subscriber)).map (·.notice) =
        [n].filter (subscriber.hears ·) ∧
      ((Subscriber.deliver (a.channel.subscribers.filter (·.isApart)) n).filter
        (·.subscriber = subscriber)).map (·.notice) =
        [] := by
  rw [Channel.told_eq, Channel.told_eq, List.count_filter (by rw [inPlace]; rfl), once, List.filter_singleton,
    Bool.cond_eq_ite]
  refine ⟨rfl, ?_⟩
  have hnone : (a.channel.subscribers.filter (·.isApart)).count subscriber = 0 :=
    List.count_eq_zero.mpr fun hmem => Bool.false_ne_true (inPlace.symm.trans (List.mem_filter.mp hmem).2)
  rw [hnone, List.replicate_zero, ite_self]

theorem Listens.step (hl : Listens subscriber k a) (inPlace : subscriber.isApart = false)
    (other : h ≠ .subscribe subscriber) :
    Listens subscriber k (a.step h) := by
  cases step_cases a h with
  | stays _ _ same => rwa [same]
  | goes _ _ channel _ passed =>
    refine ⟨channel ▸ hl.once, passed ▸ hl.begun, ?_⟩
    rw [heardBy, channel, passed]
    exact hl.heard
  | @subscribe x same =>
    rw [same]
    refine ⟨?_, hl.begun, hl.heard⟩
    show (a.channel.subscribers ++ [x]).count subscriber = 1
    have hx : x ≠ subscriber := fun heq => other (heq ▸ rfl)
    rw [List.count_append, hl.once, List.count_singleton, if_neg (by simpa using hx)]
  | listen _ same | shut same => exact same ▸ ⟨hl.once, hl.begun, hl.heard⟩
  | @receive _ n next same =>
    rw [same]
    refine ⟨hl.once, Nat.le_trans hl.begun (by rw [List.length_append]; exact Nat.le_add_right ..), ?_⟩
    show List.map _ (List.filter _ (a.channel.deliveries ++ _)) = (((a.passed ++ [n]).drop k).filter _)
    rw [List.filter_append, List.map_append, (told_inPlace inPlace hl.once n).1, List.drop_append_of_le_length hl.begun,
      List.filter_append, ← hl.heard]
    rfl
  | @tell _ n _ same =>
    rw [same]
    refine ⟨hl.once, hl.begun, ?_⟩
    show List.map _ (List.filter _ (a.channel.deliveries ++ _)) = (a.passed.drop k).filter _
    rw [List.filter_append, List.map_append, (told_inPlace inPlace hl.once n).2, List.append_nil, ← hl.heard]
    rfl

theorem Listens.after (hl : Listens subscriber k a) (inPlace : subscriber.isApart = false) {airings : List Airing}
    (other : .subscribe subscriber ∉ airings) : Listens subscriber k (a.after airings) :=
  after_keep hl fun _ hb _ hh => hb.step inPlace fun heq => other (heq ▸ hh)

/-- Who subscribes has heard nothing yet. -/
theorem Told.listens (ht : Told a) (new : subscriber ∉ a.channel.subscribers) :
    Listens subscriber a.passed.length (a.step (.subscribe subscriber)) := by
  refine ⟨?_, Nat.le_refl _, ?_⟩
  · show (a.channel.subscribers ++ [subscriber]).count subscriber = 1
    rw [List.count_append, List.count_eq_zero_of_not_mem new, List.count_singleton_self]
  · have hnothing : a.channel.deliveries.filter (·.subscriber = subscriber) = [] :=
      List.filter_eq_nil_iff.mpr fun d hd heq => new (of_decide_eq_true heq ▸ (ht.deliveries d hd).1)
    show (a.channel.deliveries.filter (·.subscriber = subscriber)).map (·.notice) =
      (a.passed.drop a.passed.length).filter _
    rw [hnothing, List.drop_length]
    rfl

theorem not_mem_subscribers (hnew : subscriber ∉ a.channel.subscribers) (other : h ≠ .subscribe subscriber) :
    subscriber ∉ (a.step h).channel.subscribers := by
  cases step_cases a h with
  | stays _ _ same => rwa [same]
  | goes _ _ channel => exact channel ▸ hnew
  | @subscribe x same =>
    rw [same]
    intro hmem
    rcases List.mem_append.mp hmem with hmem | hmem
    · exact hnew hmem
    · exact other (List.mem_singleton.mp hmem ▸ rfl)
  | listen _ same | receive _ _ same | tell _ same | shut same => exact same ▸ hnew

/-- What subscribers hear is what was published, from the subscription and from the launch on and in its order, whatever
the channel and the activities do in between. -/
theorem Quiet.tells (hq : Quiet a) (ht : Told a) (nobody : a.channel.subscribers = []) (airings : List Airing) :
    Tells a airings := by
  have htold : ∀ airings, Told (a.after airings) := fun _ => after_keep ht fun _ hb _ _ => hb.step
  refine ⟨?_, fun unheard => (hq.after unheard).passed, fun d hd => ((htold airings).deliveries d hd).2, ?_⟩
  · rintro before after rfl unheard
    show (a.after _).passed = _
    rw [after_append]
    exact ((hq.after unheard).listen.after after).passed
  · rintro before subscriber after rfl inPlace new other
    show (a.after _).heardBy _ = _
    rw [after_append]
    have hnobody : subscriber ∉ a.channel.subscribers := nobody ▸ List.not_mem_nil
    have hnew : subscriber ∉ (a.after before).channel.subscribers :=
      after_keep (P := fun b => subscriber ∉ b.channel.subscribers) hnobody fun _ hb _ hh =>
        not_mem_subscribers hb fun heq => new (heq ▸ hh)
    exact (((htold before).listens hnew).after inPlace other).heard

/-- A service that was just created tells nothing, and nobody has subscribed. -/
theorem tells_start (kind : ServiceKind) (instanceId cores workers : Nat) (logger : Logger) (registry : Registry)
    (storage : σ) (airings : List Airing) :
    Tells (ofService (Service.create kind instanceId cores workers logger registry storage)) airings :=
  Quiet.tells ⟨show Service.Phase.created ≠ .launched from nofun, rfl, rfl⟩
    ⟨fun _ => (absurd · List.not_mem_nil), fun _ => (absurd · List.not_mem_nil)⟩ rfl airings

/-! ### Services as such interleavings -/

/-- The activities make up the service, and the channel is the service's own. -/
structure Follows (s : Service σ) (a : Aired σ) : Prop where
  serves : Activities.Serves [] s a.activities
  channel : a.channel = s.channel
  phase : a.phase = s.phase

/-- The activities go on while the channel does nothing. -/
theorem after_moves (a : Aired σ) (moves : List Move) :
    a.after (moves.map .move) = { a with activities := a.activities.after moves } := by
  induction moves generalizing a with
  | nil => rfl
  | cons m moves ih => exact ih (a.step (.move m))

/-- The channel does the same again and again while the activities do nothing. -/
theorem after_repeated {f : Channel → Channel} (launched : a.phase = .launched)
    (each : ∀ b : Aired σ, b.phase = .launched → b.activities = a.activities →
      (b.step h).phase = .launched ∧ (b.step h).activities = a.activities ∧ (b.step h).channel = f b.channel)
    (times : List Notice) :
    let b := a.after (times.map fun _ => h)
    b.phase = .launched ∧ b.activities = a.activities ∧ b.channel = times.foldl (fun c _ => f c) a.channel := by
  suffices hgeneral : ∀ b : Aired σ, b.phase = .launched → b.activities = a.activities →
      let c := b.after (times.map fun _ => h)
      c.phase = .launched ∧ c.activities = a.activities ∧ c.channel = times.foldl (fun c _ => f c) b.channel from
    hgeneral a launched rfl
  induction times with
  | nil => exact fun b hphase hactivities => ⟨hphase, hactivities, rfl⟩
  | cons n times ih =>
    intro b hphase hactivities
    obtain ⟨hlaunched, hsame, hchannel⟩ := each b hphase hactivities
    rw [List.foldl_cons, ← hchannel]
    exact ih (b.step h) hlaunched hsame

/-- The channel receives all that there is, and its tasks run. -/
theorem after_hear (launched : a.phase = .launched) : ∃ airings, airings.filterMap (·.subscriber?) = [] ∧
    airings.filterMap (·.move?) = [] ∧ (a.after airings).phase = .launched ∧
    (a.after airings).activities = a.activities ∧ (a.after airings).channel = (a.channel.drain a.events).runTasks := by
  have hreceive := after_repeated (h := .receive) (f := (·.receive a.events)) launched (fun b hphase hactivities => by
    simp only [step, events, hphase, hactivities]
    exact ⟨trivial, trivial, trivial⟩) (a.events.drop a.channel.place)
  obtain ⟨hphase, hactivities, hdrain⟩ := hreceive
  generalize hreceived : (a.events.drop a.channel.place).map (fun _ => Airing.receive) =
    received at hphase hactivities hdrain
  have htell := after_repeated (h := .tell 0) (f := (·.tell 0)) hphase
    (fun b hphase hactivities => ⟨hphase, hactivities, rfl⟩) (a.after received).channel.tasks
  obtain ⟨hlaunched, hsame, htold⟩ := htell
  refine ⟨received ++ (a.after received).channel.tasks.map fun _ => .tell 0, ?_, ?_, ?_⟩
  · simp [← hreceived, Airing.subscriber?]
  · simp [← hreceived, Airing.move?]
  · rw [after_append]
    refine ⟨hlaunched, hsame.trans hactivities, htold.trans ?_⟩
    rw [hdrain]
    rfl

variable {s : Service σ}

/-- What a call does, the activities and the channel can do step by step. -/
theorem Follows.call (hf : Follows s a) (now : Instant) (c : ServiceCall) : ∃ airings,
    airings.filterMap (·.subscriber?) = c.subscriber?.toList ∧
      (c.isSelect = false → ∀ m ∈ airings.filterMap (·.move?), m.isSelect = false) ∧
      Follows (s.call now c) (a.after airings) := by
  obtain ⟨moves, -, hselect, hserves⟩ := hf.serves.call now c
  have hmoves : (a.after (moves.map .move)).channel = s.channel ∧ (a.after (moves.map .move)).phase = s.phase := by
    rw [after_moves]
    exact ⟨hf.channel, hf.phase⟩
  have hevents : (a.after (moves.map .move)).events = (s.call now c).shared.notices := by
    rw [after_moves]
    exact congrArg (·.notices) hserves.shared
  have hactivities : (a.after (moves.map .move)).activities = a.activities.after moves := by
    rw [after_moves]
  -- After the moves it is the channel's turn, if the call is about it.
  suffices hlast : ∃ last : List Airing, last.filterMap (·.subscriber?) = c.subscriber?.toList ∧
      last.filterMap (·.move?) = [] ∧
      ((a.after (moves.map .move)).after last).channel = (s.call now c).channel ∧
      ((a.after (moves.map .move)).after last).phase = (s.call now c).phase by
    obtain ⟨last, hsubscriber, hmove, hchannel, hphase⟩ := hlast
    refine ⟨moves.map .move ++ last, ?_, fun hno => ?_, ?_⟩
    · rw [List.filterMap_append, hsubscriber, List.filterMap_map]
      simp [Function.comp_def, Airing.subscriber?]
    · rw [List.filterMap_append, hmove, List.append_nil, List.filterMap_map]
      simpa [Function.comp_def, Airing.move?] using hselect hno
    · rw [after_append]
      refine ⟨?_, hchannel, hphase⟩
      rw [activities_after, hmove, hactivities]
      exact hserves
  generalize hb : a.after (moves.map .move) = b at hmoves hevents
  have hpassed := s.passed_call now c
  generalize s.call now c = t at hevents hpassed ⊢
  -- What the channel did in the call is one step of it, or as many as there was to receive and to tell.
  cases hpassed with
  | same silent channel =>
    refine ⟨[], ?_, rfl, hmoves.1.trans channel.channel.symm, hmoves.2.trans channel.phase.symm⟩
    rw [silent]
    rfl
  | stop silent phase channel =>
    refine ⟨[.shut], ?_, rfl, hmoves.1.trans channel.symm, phase.symm⟩
    rw [silent]
    rfl
  | @subscribe x phase channel =>
    refine ⟨[.subscribe x], rfl, rfl, ?_, hmoves.2.trans phase.symm⟩
    rw [channel, ← hmoves.1]
    rfl
  | launch created phase channel =>
    refine ⟨[.listen], rfl, rfl, ?_, ?_⟩
    · rw [channel, ← hevents, ← hmoves.1]
      show (b.step .listen).channel = _
      simp only [step, hmoves.2, created]
    · rw [phase]
      show (b.step .listen).phase = _
      simp only [step, hmoves.2, created]
  | hear launched phase channel =>
    obtain ⟨last, hsubscriber, hmove, hphase, -, hheard⟩ := after_hear (hmoves.2.trans launched)
    refine ⟨last, hsubscriber, hmove, ?_, hphase.trans phase.symm⟩
    rw [hheard, hmoves.1, hevents, channel]

theorem follows_afterCalls (hf : Follows s a) (calls : List (Instant × ServiceCall)) : ∃ airings,
    airings.filterMap (·.subscriber?) = calls.filterMap (·.2.subscriber?) ∧
      ((∀ c ∈ calls, c.2.isSelect = false) → ∀ m ∈ airings.filterMap (·.move?), m.isSelect = false) ∧
      Follows (s.afterCalls calls) (a.after airings) := by
  induction calls generalizing s a with
  | nil => exact ⟨[], rfl, fun _ _ hm => absurd hm List.not_mem_nil, hf⟩
  | cons c calls ih =>
    obtain ⟨first, hfirst, hselect, hcall⟩ := hf.call c.1 c.2
    obtain ⟨rest, hrest, hselects, hcalls⟩ := ih hcall
    refine ⟨first ++ rest, ?_, fun hno m hm => ?_, ?_⟩
    · rw [List.filterMap_append, hfirst, hrest, List.filterMap_cons]
      cases c.2.subscriber? <;> rfl
    · obtain ⟨hc, hno⟩ := List.forall_mem_cons.mp hno
      rw [List.filterMap_append] at hm
      exact (List.mem_append.mp hm).elim (hselect hc m) (hselects hno m)
    · rw [after_append]
      exact hcalls

/-- What is called first, and what is called then, happens one after the other. -/
theorem follows_calls (hf : Follows s a) (before calls : List (Instant × ServiceCall)) : ∃ early late : List Airing,
    early.filterMap (·.subscriber?) = before.filterMap (·.2.subscriber?) ∧
      late.filterMap (·.subscriber?) = calls.filterMap (·.2.subscriber?) ∧
      ((∀ c ∈ before ++ calls, c.2.isSelect = false) →
        ∀ m ∈ (early ++ late).filterMap (·.move?), m.isSelect = false) ∧
      Follows (s.afterCalls before) (a.after early) ∧
      Follows (s.afterCalls (before ++ calls)) (a.after (early ++ late)) := by
  obtain ⟨early, hearly, hselect, hbefore⟩ := follows_afterCalls hf before
  obtain ⟨late, hlate, hselects, hcalls⟩ := follows_afterCalls hbefore calls
  refine ⟨early, late, hearly, hlate, fun hno m hm => ?_, hbefore, ?_⟩
  · obtain ⟨hno, hnone⟩ := List.forall_mem_append.mp hno
    rw [List.filterMap_append] at hm
    exact (List.mem_append.mp hm).elim (hselect hno m) (hselects hnone m)
  · rw [after_append, Service.afterCalls, List.foldl_append]
    exact hcalls

omit [Storage σ] in
theorem follows_start (kind : ServiceKind) (instanceId cores workers : Nat) (logger : Logger) (registry : Registry)
    (storage : σ) :
    let s := Service.create kind instanceId cores workers logger registry storage
    Follows s (ofService s) :=
  ⟨Activities.serves_start kind instanceId cores workers logger registry storage, rfl, rfl⟩

end Aired

end ProcessRuns
