import ProcessRuns.Proofs.Activities.Services

/-! # The channel

What the channel of a service receives, and what the calls of the service do to it. A channel that is not too far behind
receives every event in its order; whatever else a call does, it subscribes somebody, begins to listen, receives or
leaves the channel alone. -/

namespace ProcessRuns

namespace Broadcast

variable {α : Type} {capacity position : Nat} {history : List α}

/-- Who is no further behind than the messages that are kept receives the next one. -/
theorem receive_only (capacity position : Nat) (history : List α) :
    ((Broadcast.mk capacity history ((∅ : Keyed Unit Nat).set () position)).receive ()).1 =
      if position + capacity < history.length then .lagged (history.length - capacity - position)
      else (history[position]?).elim .empty .message := by
  simp only [receive, Keyed.get?_set_self]
  by_cases hbehind : position + capacity < history.length
  · rw [if_pos (by omega), if_pos hbehind]
  · rw [if_neg (by omega), if_neg hbehind]
    cases history[position]? <;> rfl

end Broadcast

namespace Channel

variable {c : Channel} {events : List Notice}

/-- What a subscriber has heard, oldest first. -/
def heardBy (c : Channel) (subscriber : Subscriber) : List Notice :=
  (c.deliveries.filter (·.subscriber = subscriber)).map (·.notice)

/-! ### The queue of the channel -/

/-- To begin to listen is to subscribe to the queue. -/
theorem queue_listen (c : Channel) (events : List Notice) :
    (c.listen events).queue events = (c.queue events).subscribe () := by
  simp only [queue, listen, Broadcast.subscribe, Keyed.set_set]

/-- What is published goes to the queue, behind all else. -/
theorem queue_append (c : Channel) (events : List Notice) (n : Notice) :
    c.queue (events ++ [n]) = ((c.queue events).publish n).2 := by
  have hone : (c.queue events).positions.size ≠ 0 := Nat.one_ne_zero
  rw [Broadcast.publish, if_neg hone]
  rfl

/-- A channel that is behind the events that are kept receives nothing any more, and any other the next one. -/
theorem next?_eq (c : Channel) (events : List Notice) :
    c.next? events = if c.place + eventCapacity < events.length then none else events[c.place]? := by
  unfold next? queue
  rw [Broadcast.receive_only]
  by_cases hbehind : c.place + eventCapacity < events.length
  · rw [if_pos hbehind, if_pos hbehind]
  · rw [if_neg hbehind, if_neg hbehind]
    cases events[c.place]? <;> rfl

/-- What is received is the event behind those that lie behind the channel. -/
theorem getElem?_of_next {n : Notice} (next : c.next? events = some n) : events[c.place]? = some n := by
  rw [next?_eq] at next
  split at next
  · cases next
  · exact next

/-- An event is received, and told in place. -/
theorem receive_of_next {n : Notice} (next : c.next? events = some n) :
    c.receive events = { c with
      place := c.place + 1
      tasks := c.tasks ++ [n]
      deliveries := c.deliveries ++ Subscriber.deliver (c.subscribers.filter (!·.isApart)) n } := by
  unfold receive
  rw [next]

theorem receive_of_none (next : c.next? events = none) : c.receive events = c := by
  unfold receive
  rw [next]

/-- A channel that keeps up receives everything that was published. -/
theorem drain_eq (behind : c.place ≤ events.length) (keeps : events.length ≤ c.place + eventCapacity) :
    c.drain events = { c with
      place := events.length
      tasks := c.tasks ++ events.drop c.place
      deliveries := c.deliveries ++
        (events.drop c.place).flatMap (Subscriber.deliver (c.subscribers.filter (!·.isApart))) } := by
  unfold drain
  generalize hrest : events.drop c.place = rest
  induction rest generalizing c with
  | nil =>
    have hplace : c.place = events.length := Nat.le_antisymm behind (List.drop_eq_nil_iff.mp hrest)
    simp [← hplace]
  | cons n rest ih =>
    have hlt : c.place < events.length := by
      refine Nat.lt_of_le_of_ne behind fun heq => ?_
      rw [heq, List.drop_length] at hrest
      cases hrest
    obtain ⟨hn, htail⟩ := List.cons_eq_cons.mp ((List.drop_eq_getElem_cons hlt).symm.trans hrest)
    have hnext : c.next? events = some n := by
      rw [next?_eq, if_neg (Nat.not_lt.mpr keeps), List.getElem?_eq_getElem hlt, hn]
    rw [List.foldl_cons, receive_of_next hnext, ih (by exact hlt) (by simp only; omega) htail]
    simp

/-! ### The tasks -/

theorem tell_cases (c : Channel) (i : Nat) : c.tell i = c ∨ ∃ n, c.tasks[i]? = some n ∧
    c.tell i = { c with
      tasks := c.tasks.eraseIdx i
      deliveries := c.deliveries ++ Subscriber.deliver (c.subscribers.filter (·.isApart)) n } := by
  unfold tell
  cases htask : c.tasks[i]? with
  | none => exact .inl rfl
  | some n => exact .inr ⟨n, rfl, rfl⟩

/-- The tasks tell nobody who hears in place. -/
theorem runTasks_inPlace (c : Channel) {p : Subscriber → Bool} (inPlace : ∀ x, p x = true → x.isApart = false) :
    c.runTasks.deliveries.filter (p ·.subscriber) = c.deliveries.filter (p ·.subscriber) := by
  refine List.foldlRecOn (motive := fun b : Channel => b.deliveries.filter (p ·.subscriber) =
    c.deliveries.filter _) _ _ rfl ?_
  intro b hb _ _
  rcases b.tell_cases 0 with hsame | ⟨n, -, htell⟩
  · rwa [hsame]
  · rw [htell, List.filter_append, hb]
    refine List.append_right_eq_self.mpr (List.filter_eq_nil_iff.mpr fun d hd hp => ?_)
    obtain ⟨x, hx, rfl⟩ := List.mem_map.mp hd
    have hapart := (List.mem_filter.mp (List.mem_filter.mp hx).1).2
    exact Bool.false_ne_true ((inPlace x hp).symm.trans hapart)

/-! ### Who is told -/

/-- A subscriber is told an event that it wants to hear as often as it has subscribed. -/
theorem told_eq (subscribers : List Subscriber) (subscriber : Subscriber) (n : Notice) :
    ((Subscriber.deliver subscribers n).filter (·.subscriber = subscriber)).map (·.notice) =
      if subscriber.hears n then List.replicate (subscribers.count subscriber) n else [] := by
  have hmine : (subscribers.filter fun x => x.hears n).filter (· = subscriber) =
      if subscriber.hears n then List.replicate (subscribers.count subscriber) subscriber else [] := by
    rw [List.filter_comm, List.filter_eq, List.filter_replicate]
  rw [Subscriber.deliver, List.filter_map, List.map_map]
  show List.map (fun _ => n) ((subscribers.filter fun x => x.hears n).filter (· = subscriber)) = _
  rw [hmine]
  split
  · rw [List.map_replicate]
  · rfl

theorem mem_deliver {subscribers : List Subscriber} {n : Notice} {d : Delivery}
    (h : d ∈ Subscriber.deliver subscribers n) : d.subscriber ∈ subscribers ∧ d.notice = n := by
  obtain ⟨x, hx, rfl⟩ := List.mem_map.mp h
  exact ⟨(List.mem_filter.mp hx).1, rfl⟩

end Channel

/-! ### What calls do to the channel -/

/-- Who subscribes by a call. -/
def ServiceCall.subscriber? : ServiceCall → Option Subscriber
  | subscribe x => some x
  | _ => none

namespace Service

variable {σ : Type} {s t u : Service σ}

/-- Those who hear in place hear everything new from a service whose channel keeps up. -/
theorem hear_inPlace (launched : s.phase = .launched) (behind : s.heard ≤ s.shared.notices.length)
    (keeps : s.shared.notices.length ≤ s.heard + Channel.eventCapacity) {p : Subscriber → Bool}
    (inPlace : ∀ x, p x = true → x.isApart = false) :
    s.hear.deliveries.filter (p ·.subscriber) = s.deliveries.filter (p ·.subscriber) ++
      ((s.shared.notices.drop s.heard).flatMap (Subscriber.deliver (s.subscribers.filter (!·.isApart)))).filter
        (p ·.subscriber) := by
  rw [hear, if_pos launched]
  refine ((s.channel.drain s.shared.notices).runTasks_inPlace inPlace).trans ?_
  -- It is not so far behind that events are lost on it, so it receives all of them in their order.
  rw [Channel.drain_eq behind keeps, List.filter_append]
  rfl

/-- The channel is as it was, and listens as it did. -/
structure SameChannel (s t : Service σ) : Prop where
  phase : t.phase = s.phase
  channel : t.channel = s.channel

namespace SameChannel

theorem refl (s : Service σ) : SameChannel s s := ⟨rfl, rfl⟩

theorem trans (h : SameChannel s t) (h' : SameChannel t u) : SameChannel s u :=
  ⟨h'.phase.trans h.phase, h'.channel.trans h.channel⟩

end SameChannel

variable [Storage σ]

theorem sameChannel_begin (s : Service σ) (p : Package) (now : Instant) : SameChannel s (s.begin p now) := by
  unfold begin
  simp only
  split <;> exact ⟨rfl, rfl⟩

theorem sameChannel_accept (s : Service σ) (now : Instant) : SameChannel s (s.accept now) := by
  unfold accept
  split <;> exact ⟨rfl, rfl⟩

theorem sameChannel_dispatch (s : Service σ) (now : Instant) : SameChannel s (s.dispatch now) := by
  unfold dispatch
  split
  · exact .refl s
  · exact List.foldlRecOn (motive := SameChannel s) _ _ ⟨rfl, rfl⟩ fun t ht p _ => ht.trans (t.sameChannel_begin p now)
  · exact ⟨rfl, rfl⟩

theorem sameChannel_add (s : Service σ) (p : ProcessDefinition) : SameChannel s (s.add p).2 := by
  unfold add
  simp only
  split
  · split
    · split
      · exact ⟨rfl, rfl⟩
      · split <;> exact ⟨rfl, rfl⟩
    · exact ⟨rfl, rfl⟩
  · exact ⟨rfl, rfl⟩

/-- What goes on by itself before the channel receives. -/
def stir (s : Service σ) (now : Instant) : Service σ := (((s.tick now).accept now).withdraw).dispatch now

theorem sameChannel_stir (s : Service σ) (now : Instant) : SameChannel s (s.stir now) := by
  have htick : SameChannel s (s.tick now) := ⟨rfl, rfl⟩
  have haccept := htick.trans ((s.tick now).sameChannel_accept now)
  have hwithdraw : SameChannel s ((s.tick now).accept now).withdraw := haccept.trans ⟨rfl, rfl⟩
  exact hwithdraw.trans (sameChannel_dispatch _ now)

/-- What a call does to the channel. -/
inductive Passed (s t : Service σ) : ServiceCall → Prop where
  | same {c : ServiceCall} (silent : c.subscriber? = none) (channel : SameChannel s t) : Passed s t c
  | stop {c : ServiceCall} (silent : c.subscriber? = none) (phase : t.phase = .stopped)
    (channel : t.channel = s.channel) : Passed s t c
  | subscribe {subscriber : Subscriber} (phase : t.phase = s.phase)
    (channel : t.channel = s.channel.subscribe subscriber) :
    Passed s t (.subscribe subscriber)
  | launch (created : s.phase = .created) (phase : t.phase = .launched)
    (channel : t.channel = s.channel.listen t.shared.notices) : Passed s t .launch
  | hear (launched : s.phase = .launched) (phase : t.phase = .launched)
    (channel : t.channel = (s.channel.drain t.shared.notices).runTasks) : Passed s t .settle

theorem passed_call (s : Service σ) (now : Instant) (c : ServiceCall) : Passed s (s.call now c) c := by
  cases c with
  | launch =>
    simp only [call, launch]
    cases hphase : s.phase with
    | created => exact .launch hphase rfl rfl
    | launched | stopped => exact .same rfl (.refl s)
  | stop =>
    simp only [call, stop]
    cases hphase : s.phase with
    | created | stopped => exact .same rfl (.refl s)
    | launched => exact .stop rfl rfl rfl
  | drop =>
    simp only [call, drop, clearTimers, stop]
    cases hphase : s.phase <;> exact .stop rfl rfl rfl
  | subscribe subscriber => exact .subscribe rfl rfl
  | add p => exact .same rfl (s.sameChannel_add p)
  | update p =>
    have hremove : SameChannel s (s.remove p.id now).2 := ⟨rfl, rfl⟩
    exact .same rfl (hremove.trans (sameChannel_add _ p))
  | reprocess pid a b schedule =>
    simp only [call, reprocess]
    split
    · exact .same rfl (.refl s)
    · exact .same rfl (List.foldlRecOn (motive := SameChannel s) _ _ (.refl s) fun _ ht _ _ => ht.trans ⟨rfl, rfl⟩)
  | select name =>
    simp only [call, selectTable]
    exact .same rfl ⟨rfl, rfl⟩
  | conclude pid script =>
    simp only [call]
    cases s.working? pid with
    | none => exact .same rfl (.refl s)
    | some r => exact .same rfl ⟨rfl, rfl⟩
  | settle =>
    have hstir := s.sameChannel_stir now
    show Passed s (s.stir now).hear .settle
    unfold hear
    split
    · rename_i launched
      refine .hear (hstir.phase ▸ launched) launched ?_
      rw [← hstir.channel]
    · exact .same rfl hstir
  | notifyWaiting | resize | trigger | remove => exact .same rfl ⟨rfl, rfl⟩

end Service

end ProcessRuns
