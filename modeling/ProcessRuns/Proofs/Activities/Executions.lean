import ProcessRuns.Proofs.Activities.Deeds
import ProcessRuns.Proofs.Activities.OneLog
import ProcessRuns.Proofs.Activities.Writes
import ProcessRuns.Proofs.Log.Inscriptions
import ProcessRuns.Proofs.Service.Channel
import ProcessRuns.Proofs.Time.DateText

/-! # What an execution leaves behind

A run that nobody comes between, with its job: what it writes to its register, what it publishes, and that the two
agree. The times of its steps are any; `clock` are those that are read. -/

namespace ProcessRuns

namespace Instant

/-- The text of a time has no character NUL. -/
theorem withoutNul_millisText (a : Instant) : Logger.withoutNul a.millisText = a.millisText := by
  have digits : ∀ width n, '\x00' ∉ padded width n := by
    intro width n hno
    exact absurd (isDigit_padded width n _ hno) (by decide)
  have year : ∀ n, '\x00' ∉ writeYear n := by
    intro n
    unfold writeYear
    split
    · exact digits _ _
    · split <;> simp [digits]
  have chars : '\x00' ∉ a.write .millis := by simp [write, writeFraction, digits, year]
  rw [Logger.withoutNul, millisText, String.toList_ofList, List.filter_eq_self.mpr]
  intro c hc
  simpa using fun hno : c = '\x00' => chars (hno ▸ hc)

end Instant

/-! ### What a run writes -/

/-- What a job writes to its register by one action. -/
def JobAction.inscription? (now : Instant) : JobAction → Option Inscription
  | .log type text => some (.message type text now)
  | .addValue tag text => some (.value tag text)
  | _ => none

theorem JobContext.storage_perform {σ : Type} [Storage σ] (c : JobContext) (now : Instant) (action : JobAction)
    (s : Shared σ) (lastData : ∀ t : σ, (c.logger.lastData c.package.processId t).2 = t) :
    (c.perform now action s).2.storage = (action.inscription? now).elim s.storage fun w =>
      (w.write c.logger c.package.registerId s.storage).2 := by
  cases action with
  | log | addValue => exact congrArg Shared.storage (Action.snd_of_pure fun _ _ => rfl)
  | lastData => exact (congrArg Shared.storage (Action.snd_of_pure fun _ _ => rfl)).trans (lastData s.storage)
  | registry => exact congrArg Shared.storage ((Action.snd_of_pure fun _ _ => rfl).trans (c.registry_snd s))
  | definition => exact congrArg Shared.storage ((Action.snd_of_pure fun _ _ => rfl).trans (c.definition_snd s))
  | tableName | package => rfl

namespace Run

/-- What a run writes to its register by its next step. -/
def inscription? (r : Run) (now : Instant) : Option Inscription :=
  match r.stage with
  | .mark => some (.result .start none now)
  | .stampStart => some (.value Logger.startTag now.millisText)
  | .stampEnd _ => some (.value Logger.endTag now.millisText)
  | .explain e => e.message?.map fun m => .message m.1 m.2 now
  | .close e => some (.result e.status (e.dataTimestamp now) now)
  | _ => none

theorem storage_step {σ : Type} [Storage σ] (now : Instant) (r : Run) (s : Shared σ) :
    (r.step now s).2.storage = (r.inscription? now).elim s.storage fun w =>
      (w.write r.logger r.package.registerId s.storage).2 := by
  obtain ⟨p, logger, stage⟩ := r
  cases stage with
  | explain e =>
    simp only [step, inscription?]
    cases e.message? <;> rfl
  | wake e => exact s.storage_wake
  | _ => rfl

variable {clock : Instant → Prop} {p : Package} {job ws : List Inscription} {e : Ending} {e? : Option Ending} {r : Run}

/-- What is written before a run is published; nothing if its package did not have to wait. -/
def Opened (clock : Instant → Prop) (p : Package) (ws : List Inscription) : Prop :=
  p.onQueue = false ∧ ws = [] ∨ p.onQueue = true ∧ ∃ a, clock a ∧ ws = [.result .start none a]

/-- The start was stamped, and then the job wrote. -/
def Started (clock : Instant → Prop) (p : Package) (job ws : List Inscription) : Prop :=
  ∃ before a, Opened clock p before ∧ clock a ∧ ws = before ++ .value Logger.startTag a.millisText :: job

/-- The job has come back, and the end was stamped. -/
def Stamped (clock : Instant → Prop) (p : Package) (job ws : List Inscription) : Prop :=
  ∃ before a, Started clock p job before ∧ clock a ∧ ws = before ++ [.value Logger.endTag a.millisText]

/-- The failure of the job, if any, was put down. -/
def Explained (clock : Instant → Prop) (p : Package) (job : List Inscription) (e : Ending)
    (ws : List Inscription) : Prop :=
  ∃ before a, Stamped clock p job before ∧ clock a ∧
    ws = before ++ (e.message?.map fun m => .message m.1 m.2 a).toList

/-- What is written by a run that is over, `job` by its job. -/
def Closed (clock : Instant → Prop) (p : Package) (job : List Inscription) (e : Ending)
    (ws : List Inscription) : Prop :=
  ∃ before a, Explained clock p job e before ∧ clock a ∧ ws = before ++ [.result e.status (e.dataTimestamp a) a]

/-- Where a run stands that has written `ws`, its job `job`; `e?` is how it ends, as soon as that is certain. -/
def Stands (clock : Instant → Prop) (job : List Inscription) (e? : Option Ending) (ws : List Inscription)
    (r : Run) : Prop :=
  match r.stage with
  | .takeLog => job = [] ∧ e? = none ∧ ws = []
  | .mark => job = [] ∧ e? = none ∧ r.package.onQueue = true ∧ ws = []
  | .announce | .stampStart => job = [] ∧ e? = none ∧ Opened clock r.package ws
  | .check => job = [] ∧ e? = none ∧ Started clock r.package [] ws
  | .working => e? = none ∧ Started clock r.package job ws
  | .stampEnd e => e? = some e ∧ Started clock r.package job ws
  | .explain e => e? = some e ∧ Stamped clock r.package job ws
  | .close e => e? = some e ∧ Explained clock r.package job e ws
  | .release e | .wake e | .report e => e? = some e ∧ Closed clock r.package job e ws
  | .leave | .finished => ∃ e, e? = some e ∧ Closed clock r.package job e ws

/-- What a run has published. -/
def said (e? : Option Ending) (r : Run) : List Event :=
  match r.stage with
  | .takeLog | .mark | .announce => []
  | .leave | .finished =>
    .running r.package.executionDate :: (e?.map fun e => Event.finished (e.report r.package)).toList
  | _ => [.running r.package.executionDate]

/-- A run goes on; how it ends is certain with its job, or when the registry is gone. -/
theorem Stands.step {σ : Type} [Storage σ] {now : Instant} {s : Shared σ} (h : r.Stands clock job e? ws)
    (hnow : clock now) :
    ∃ x?, (x? = e? ∨ s.owned = false ∧ e? = none ∧ x? = some (.failed Failure.registryGone.message)) ∧
      (r.step now s).1.Stands clock job x? (ws ++ (r.inscription? now).toList) ∧
      ∃ more, (r.step now s).1.said x? = r.said e? ++ more ∧
        (r.step now s).2.notices = s.notices ++ more.map r.package.notice := by
  obtain ⟨p, logger, stage⟩ := r
  have same : ws = ws ++ [] := (List.append_nil ws).symm
  have none : s.notices = s.notices ++ ([] : List Event).map p.notice := (List.append_nil _).symm
  cases stage with
  | takeLog =>
    obtain ⟨rfl, rfl, rfl⟩ := h
    refine ⟨_, Or.inl rfl, ?_, [], ?_, none⟩ <;> cases hq : p.onQueue <;>
      simp [Run.step, Stands, Opened, said, hq, inscription?]
  | mark =>
    obtain ⟨rfl, rfl, hq, rfl⟩ := h
    exact ⟨_, Or.inl rfl, ⟨rfl, rfl, Or.inr ⟨hq, now, hnow, rfl⟩⟩, [], rfl, none⟩
  | announce => exact ⟨_, Or.inl rfl, same ▸ h, [.running p.executionDate], rfl, rfl⟩
  | stampStart =>
    obtain ⟨rfl, rfl, hopened⟩ := h
    exact ⟨_, Or.inl rfl, ⟨rfl, rfl, ws, now, hopened, hnow, rfl⟩, [], rfl, none⟩
  | check =>
    obtain ⟨rfl, rfl, hstarted⟩ := h
    cases ho : s.owned with
    | true =>
      refine ⟨_, Or.inl rfl, ?_, [], ?_, none⟩ <;> simp [Run.step, Stands, enter, said, ho, inscription?]
      exact hstarted
    -- Without its registry the run does not come to its job, and fails instead.
    | false =>
      refine ⟨_, Or.inr ⟨rfl, rfl, rfl⟩, ?_, [], ?_, none⟩ <;>
        simp [Run.step, Stands, enter, said, ho, inscription?]
      exact hstarted
  | working => exact ⟨_, Or.inl rfl, same ▸ h, [], rfl, none⟩
  | stampEnd e =>
    obtain ⟨rfl, hstarted⟩ := h
    exact ⟨_, Or.inl rfl, ⟨rfl, ws, now, hstarted, hnow, rfl⟩, [], rfl, none⟩
  | explain e =>
    obtain ⟨rfl, hstamped⟩ := h
    refine ⟨_, Or.inl rfl, ⟨rfl, ws, now, hstamped, hnow, rfl⟩, [], rfl, ?_⟩
    simp only [Run.step]
    cases e.message? <;> exact none
  | close e =>
    obtain ⟨rfl, hexplained⟩ := h
    exact ⟨_, Or.inl rfl, ⟨rfl, ws, now, hexplained, hnow, rfl⟩, [], rfl, none⟩
  | release e =>
    obtain ⟨rfl, hclosed⟩ := h
    refine ⟨_, Or.inl rfl, ?_, [], ?_, none⟩ <;> cases hf : (s.scheduler.finish p.processId).1 <;>
      simp [Run.step, Stands, enter, said, hf, inscription?] <;> exact hclosed
  | wake e =>
    refine ⟨_, Or.inl rfl, same ▸ h, [], rfl, ?_⟩
    show s.wake.notices = _
    unfold Shared.wake
    split <;> exact none
  | report e =>
    obtain ⟨rfl, hclosed⟩ := h
    exact ⟨_, Or.inl rfl, ⟨e, rfl, same ▸ hclosed⟩, [.finished (e.report p)], rfl, rfl⟩
  | leave | finished => exact ⟨_, Or.inl rfl, same ▸ h, [], (List.append_nil _).symm, none⟩

theorem Stands.rank (h : r.Stands clock job e? ws) :
    e? = none ∧ 8 ≤ r.stage.rank ∨ e?.isSome ∧ r.stage.rank ≤ 7 := by
  obtain ⟨p, logger, stage⟩ := r
  cases stage with
  | takeLog | mark | announce | stampStart | check => exact Or.inl ⟨h.2.1, by simp [Stage.rank]⟩
  | working => exact Or.inl ⟨h.1, by simp [Stage.rank]⟩
  | stampEnd e | explain e | close e | release e | wake e | report e =>
    exact Or.inr ⟨Option.isSome_of_eq_some h.1, by simp [Stage.rank]⟩
  | leave | finished =>
    obtain ⟨e, he, -⟩ := h
    exact Or.inr ⟨Option.isSome_of_eq_some he, by simp [Stage.rank]⟩

theorem Started.append (h : Started clock p job ws) (more : List Inscription) : Started clock p (job ++ more)
    (ws ++ more) := by
  obtain ⟨before, a, hopened, ha, rfl⟩ := h
  exact ⟨before, a, hopened, ha, by simp⟩

theorem Opened.silent (h : Opened clock p ws) : ws.filterMap (·.value?) = [] ∧ ws.filterMap (·.message?) = [] := by
  rcases h with ⟨-, rfl⟩ | ⟨-, a, -, rfl⟩ <;> exact ⟨rfl, rfl⟩

/-- A run that is over has added its values around those of its job, its message behind the job's, and its result
last. -/
theorem Closed.written (h : Closed clock p job e ws) : ∃ a b c d, clock a ∧ clock b ∧ clock c ∧ clock d ∧
    ws.filterMap (·.value?) =
      (Logger.startTag, a.millisText) :: job.filterMap (·.value?) ++ [(Logger.endTag, b.millisText)] ∧
    ws.filterMap (·.message?) =
      job.filterMap (·.message?) ++ (e.message?.map fun m => (m.1, Logger.withoutNul m.2, c)).toList ∧
    (ws.filterMap (·.result?)).getLast? = some (e.status, e.dataTimestamp d, d) := by
  obtain ⟨_, d, ⟨_, c, ⟨_, b, ⟨opened, a, hopened, ha, rfl⟩, hb, rfl⟩, hc, rfl⟩, hd, rfl⟩ := h
  obtain ⟨hvalues, hmessages⟩ := hopened.silent
  refine ⟨a, b, c, d, ha, hb, hc, hd, ?_, ?_, ?_⟩
  · cases e.message? <;> simp [hvalues, List.filterMap_cons, Instant.withoutNul_millisText]
  · cases e.message? <;> simp [hmessages, List.filterMap_cons]
  · rw [List.filterMap_append]
    exact List.getLast?_concat

/-- A run takes its copy of the log first, and keeps it. -/
theorem table_step {σ : Type} [Storage σ] {now : Instant} {r : Run} {s : Shared σ} {table : LogTable}
    (copied : r.stage ≠ .takeLog → r.logger.table = some table) (log : s.logger.table = some table) :
    (r.step now s).1.logger.table = some table := by
  obtain ⟨p, logger, stage⟩ := r
  cases stage with
  | takeLog => exact log
  | _ => exact copied Stage.noConfusion

/-- A run that waits for its job or is over stays there by itself. -/
theorem stage_of_rests {σ : Type} [Storage σ] {r : Run} (rests : r.stage.goesOn = false) (now : Instant)
    (s : Shared σ) :
    (r.step now s).1.stage = r.stage := by
  obtain ⟨p, logger, stage⟩ := r
  cases stage with
  | working | finished => rfl
  | _ => cases rests

theorem working_step {σ : Type} [Storage σ] {now : Instant} {r : Run} {s : Shared σ}
    (h : (r.step now s).1.stage = .working) : r.stage = .working ∨ s.owned = true := by
  obtain ⟨p, logger, stage⟩ := r
  cases stage with
  | takeLog => cases hq : p.onQueue <;> simp [step, hq] at h
  | check => cases ho : s.owned <;> simp [step, enter, ho] at h ⊢
  | release e => cases hf : (s.scheduler.finish p.processId).1 <;> simp [step, enter, hf] at h
  | working => exact Or.inl rfl
  | _ => cases h

end Run

namespace Ending

/-- What the job reports. -/
def extraInfo : Ending → Dictionary Json
  | done _ info => info
  | _ => []

variable (e : Ending) (p : Package)

theorem success_eq : (e.report p).success = decide (e.status = .done) := by
  cases e <;> rfl

theorem isError_eq : (Event.finished (e.report p)).isError = decide (e.status = .error) := by
  cases e <;> rfl

end Ending

/-- The report has the service's own entries under their keys, and what the job reported under all others. -/
structure Finished.HasOwn (f : Finished) (p : Package) (info : Dictionary Json) : Prop where
  processId : f.extraInfo.get? processIdKey = some (p.processId : Json)
  result : f.extraInfo.get? resultKey = some (f.success : Json)
  executionDate : f.extraInfo.get? executionDateKey = some (p.executionDate.millisText : Json)
  automatic : f.extraInfo.get? automaticKey = some (f.isAutomatic : Json)
  others : ∀ key, key ≠ processIdKey → key ≠ resultKey → key ≠ executionDateKey → key ≠ automaticKey →
    f.extraInfo.get? key = info.get? key

theorem Finished.isAutomatic_report (p : Package) (success automatic : Bool) (info : Dictionary Json) :
    (report p success automatic info).isAutomatic = automatic := by
  rw [isAutomatic, report, Dictionary.get?_set_self]

theorem Finished.hasOwn_report (p : Package) (success automatic : Bool) (info : Dictionary Json) :
    (report p success automatic info).HasOwn p info where
  processId := by
    rw [report, Dictionary.get?_set_of_ne _ _ (by decide), Dictionary.get?_set_of_ne _ _ (by decide),
      Dictionary.get?_set_of_ne _ _ (by decide), Dictionary.get?_set_self]
  result := by
    rw [report, Dictionary.get?_set_of_ne _ _ (by decide), Dictionary.get?_set_of_ne _ _ (by decide),
      Dictionary.get?_set_self]
  executionDate := by
    rw [report, Dictionary.get?_set_of_ne _ _ (by decide), Dictionary.get?_set_self]
  automatic := by
    rw [isAutomatic_report, report, Dictionary.get?_set_self]
  others key hprocess hresult hdate hautomatic := by
    rw [report, Dictionary.get?_set_of_ne _ _ hautomatic, Dictionary.get?_set_of_ne _ _ hdate,
      Dictionary.get?_set_of_ne _ _ hresult, Dictionary.get?_set_of_ne _ _ hprocess]

namespace Ending

variable (e : Ending) (p : Package)

theorem isAutomatic_iff : (e.report p).isAutomatic = true ↔ ∃ date info, e = .done date info := by
  cases e <;> simp [report, Finished.isAutomatic_report]

theorem hasOwn_report : (e.report p).HasOwn p e.extraInfo := by
  cases e <;> exact Finished.hasOwn_report p _ _ _

end Ending

/-- Who wants to hear of failures is told an event exactly if it is one, and of a process that it listens to. -/
theorem Subscriber.deliver_failed (subscribers : List Subscriber) (p : Package) (event : Event) :
    (Subscriber.deliver (subscribers.filter (!·.isApart)) (p.notice event)).filter (·.subscriber.interest = .failed) =
      if event.isError then (subscribers.filter fun x => x.interest = .failed ∧
        x.processId.all (· == p.processId)).map (⟨·, p.notice event⟩) else [] := by
  have hears : ∀ x : Subscriber, (decide (x.interest = .failed) && x.hears (p.notice event) && !x.isApart) =
      (decide (x.interest = .failed ∧ x.processId.all (· == p.processId)) && event.isError) := by
    intro x
    cases hx : x.interest <;> simp [Subscriber.hears, Subscriber.isApart, Package.notice, hx]
  rw [Subscriber.deliver, List.filter_map, List.filter_filter, List.filter_filter]
  split
  · rename_i failed
    refine congrArg _ (List.filter_congr fun x _ => ?_)
    exact (hears x).trans (by rw [failed, Bool.and_true])
  · rename_i fine
    refine List.map_eq_nil_iff.mpr (List.filter_eq_nil_iff.mpr fun x _ => ?_)
    have hno := hears x
    simp only [fine, Bool.and_false] at hno
    exact Bool.eq_false_iff.mp hno

/-- Who wants to hear of the failures of a process hears of the end of a failed run, and of nothing else of the run. -/
theorem Service.hear_failed {σ : Type} {v : Service σ} {before : List Notice} {p : Package} {e : Ending}
    (notices : v.shared.notices = before ++ [p.notice (.running p.executionDate), p.notice (.finished (e.report p))])
    (heard : v.heard = before.length) :
    if v.phase = .launched then
      v.hear.deliveries.filter (·.subscriber.interest = .failed) =
        v.deliveries.filter (·.subscriber.interest = .failed) ++
          if e.status = .error then (v.subscribers.filter fun x => x.interest = .failed ∧
            x.processId.all (· == p.processId)).map (⟨·, p.notice (.finished (e.report p))⟩)
          else []
    else v.hear = v := by
  split
  · rename_i launched
    have inPlace : ∀ x : Subscriber, decide (x.interest = .failed) = true → x.isApart = false := fun x hx => by
      rw [Subscriber.isApart, of_decide_eq_true hx]
      rfl
    -- The channel is two events behind, so neither of them is lost on it.
    have hlength : v.shared.notices.length = v.heard + 2 := by
      rw [notices, heard, List.length_append]
      rfl
    have hnew := Service.hear_inPlace launched (by omega) (by rw [hlength, Channel.eventCapacity]; omega) inPlace
    rw [hnew, notices, heard, List.drop_left, List.flatMap_cons, List.flatMap_singleton, List.filter_append,
      Subscriber.deliver_failed, Subscriber.deliver_failed, e.isError_eq p]
    simp [Event.isError]
  · rename_i launched
    rw [Service.hear, if_neg launched]

namespace Activities

variable {clock : Instant → Prop} {table : LogTable} {row : Register} {lists : Values.Lists} {s u : Activities Memory}
    {i : Nat}
  {r : Run} {job ws : List Inscription} {e? : Option Ending} {now : Instant}

/-- From the first state to the second by the run `r` alone, which has written `ws` to its register. -/
structure Executing (clock : Instant → Prop) (table : LogTable) (row : Register) (lists : Values.Lists)
    (s u : Activities Memory)
    (i : Nat) (r : Run) (job : List Inscription) (e? : Option Ending) (ws : List Inscription) : Prop where
  here : u.runs[i]? = some r
  mine : r.package.registerId = row.id
  stands : r.Stands clock job e? ws
  /-- Only with the registry there is a job. -/
  sure : r.stage = .working → s.shared.owned = true
  log : u.shared.logger.table = some table
  copied : r.stage ≠ .takeLog → r.logger.table = some table
  owned : u.shared.owned = s.shared.owned
  notices : u.shared.notices = s.shared.notices ++ (r.said e?).map r.package.notice
  written : ∃ x, Memory.Inscribed s.shared.storage u.shared.storage table row x lists ws

namespace Executing

theorem step (h : Executing clock table row lists s u i r job e? ws) (hnow : clock now) :
    ∃ x? ws', (x? = e? ∨ s.shared.owned = false ∧ e? = none ∧ x? = some (.failed Failure.registryGone.message)) ∧
      Executing clock table row lists s (u.step (.run i now)) i (r.step now u.shared).1 job x? ws' := by
  obtain ⟨x?, hx, hstands, more, hsaid, hnotices⟩ := h.stands.step (s := u.shared) hnow
  rw [h.owned] at hx
  have hstep : u.step (.run i now) = u.stepRun i r now := by simp only [Activities.step, h.here, Option.elim_some]
  have hpackage := r.package_step now u.shared
  refine ⟨x?, ws ++ (r.inscription? now).toList, hx, ?_⟩
  rw [hstep]
  constructor
  · exact List.getElem?_set_self (List.getElem?_eq_some_iff.mp h.here).1
  · rw [hpackage]
    exact h.mine
  · exact hstands
  · intro hworking
    exact (Run.working_step hworking).elim h.sure fun howned => h.owned.symm.trans howned
  · exact (congrArg Logger.table (r.logger_step now u.shared)).trans h.log
  · exact fun _ => Run.table_step h.copied h.log
  · exact (r.sameSettings_step now u.shared).owned.trans h.owned
  · rw [hpackage, hsaid, List.map_append, ← List.append_assoc, ← h.notices]
    exact hnotices
  · obtain ⟨x, hx⟩ := h.written
    show ∃ x', Memory.Inscribed _ (r.step now u.shared).2.storage table row x' lists _
    rw [r.storage_step now u.shared, h.mine]
    cases hw : r.inscription? now with
    | none => exact ⟨x, (List.append_nil ws).symm ▸ hx⟩
    | some w =>
      -- A run that writes has its log by then.
      have hlog : r.stage ≠ .takeLog := by
        intro hno
        rw [Run.inscription?, hno] at hw
        cases hw
      obtain ⟨n, x', hcall, hn⟩ := hx.write (h.copied hlog) w
      refine ⟨x', ?_⟩
      rw [Option.elim_some, hcall]
      exact hn

/-- After enough steps the run waits for its job or is over. -/
theorem steps (h : Executing clock table row lists s u i r job e? ws) {times : List Instant}
    (htimes : ∀ a ∈ times, clock a) :
    ∃ r' x? ws', (x? = e? ∨ s.shared.owned = false ∧ e? = none ∧
      x? = some (.failed Failure.registryGone.message)) ∧
      Executing clock table row lists s (u.after (times.map (.run i))) i r' job x? ws' ∧
      r'.package = r.package ∧ (r.stage.goesOn = false → r'.stage = r.stage) ∧
      (r'.stage.goesOn = false ∨ r'.stage.rank + times.length ≤ r.stage.rank) := by
  induction times generalizing u r e? ws with
  | nil => exact ⟨r, e?, ws, Or.inl rfl, h, rfl, fun _ => rfl, Or.inr (Nat.le_refl _)⟩
  | cons a times ih =>
    obtain ⟨ha, htimes⟩ := List.forall_mem_cons.mp htimes
    obtain ⟨y?, vs, hy, hnext⟩ := h.step ha
    obtain ⟨r', x?, ws', hx, hlast, hpackage, hrests, hrank⟩ := ih hnext htimes
    have hstays : r.stage.goesOn = false → r'.stage = r.stage := by
      intro rests
      have hstage := Run.stage_of_rests rests a u.shared
      rw [← hstage] at rests ⊢
      exact hrests rests
    refine ⟨r', x?, ws', ?_, hlast, hpackage.trans (r.package_step a u.shared), hstays, ?_⟩
    -- How the run ends is settled once, in the first step or in a later one.
    · rcases hx with rfl | ⟨hno, rfl, rfl⟩
      · exact hy
      · rcases hy with rfl | ⟨-, -, hy⟩
        · exact Or.inr ⟨hno, rfl, rfl⟩
        · cases hy
    · cases hgoes : r.stage.goesOn with
      | true =>
        have hless := r.rank_step a u.shared hgoes
        refine hrank.imp_right fun hrank => ?_
        rw [List.length_cons]
        omega
      | false => exact Or.inl (hstays hgoes ▸ hgoes)

/-- The job does something. -/
theorem act (h : Executing clock table row lists s u i r job e? ws) (working : r.stage = .working) (action : JobAction)
    (now : Instant) : Executing clock table row lists s (u.step (.act i action now)) i r
    (job ++ (action.inscription? now).toList) e?
      (ws ++ (action.inscription? now).toList) := by
  have hlog := h.copied (by rw [working]; exact Run.Stage.noConfusion)
  have hstep : u.step (.act i action now) = { u with shared := (r.context.perform now action u.shared).2 } := by
    simp only [Activities.step, h.here, Option.elim_some, Activities.act, working]
  obtain ⟨t, -, ht⟩ := r.context.perform_snd now action u.shared
  rw [hstep]
  constructor
  · exact h.here
  · exact h.mine
  · have hstands := h.stands
    unfold Run.Stands at hstands ⊢
    rw [working] at hstands ⊢
    exact ⟨hstands.1, hstands.2.append _⟩
  · exact h.sure
  · rw [ht]
    exact h.log
  · exact h.copied
  · rw [ht]
    exact h.owned
  · rw [ht]
    exact h.notices
  · obtain ⟨x, hx⟩ := h.written
    show ∃ x', Memory.Inscribed _ (r.context.perform now action u.shared).2.storage table row x' lists _
    rw [r.context.storage_perform now action u.shared fun t => Logger.lastData_snd r.logger t r.package.processId]
    cases hw : action.inscription? now with
    | none => exact ⟨x, (List.append_nil ws).symm ▸ hx⟩
    | some w =>
      obtain ⟨n, x', hcall, hn⟩ := hx.write hlog w
      refine ⟨x', ?_⟩
      rw [Option.elim_some, show r.context.package.registerId = row.id from h.mine,
        show r.context.logger = r.logger from rfl, hcall]
      exact hn

theorem acts (h : Executing clock table row lists s u i r job e? ws) (working : r.stage = .working)
    (actions : List (JobAction × Instant)) :
    Executing clock table row lists s (u.after (actions.map fun a => .act i a.1 a.2)) i r
      (job ++ actions.filterMap fun a => a.1.inscription? a.2) e?
      (ws ++ actions.filterMap fun a => a.1.inscription? a.2) := by
  induction actions generalizing u job ws with
  | nil =>
    rw [List.filterMap_nil, List.append_nil, List.append_nil]
    exact h
  | cons a actions ih =>
    have hlast := ih (h.act working a.1 a.2)
    rw [List.append_assoc, List.append_assoc] at hlast
    rw [List.filterMap_cons]
    cases ha : a.1.inscription? a.2 <;> rw [ha] at hlast <;> exact hlast

/-- The job comes back. -/
theorem answer (h : Executing clock table row lists s u i r job e? ws) (working : r.stage = .working)
    (result : JobResult) :
    Executing clock table row lists s (u.step (.answer i result)) i (r.enter (.stampEnd (.ofResult result))) job
      (some (.ofResult result)) ws := by
  have hstep : u.step (.answer i result) =
      { u with runs := u.runs.set i (r.enter (.stampEnd (.ofResult result))) } := by
    simp only [Activities.step, h.here, Option.elim_some, Run.answered, working]
  have hstands := h.stands
  have hnotices := h.notices
  unfold Run.Stands at hstands
  rw [working] at hstands
  rw [Run.said, working] at hnotices
  rw [hstep]
  constructor
  · exact List.getElem?_set_self (List.getElem?_eq_some_iff.mp h.here).1
  · exact h.mine
  · exact ⟨rfl, hstands.2⟩
  · intro hno
    cases hno
  · exact h.log
  · exact fun _ => h.copied (by rw [working]; exact Run.Stage.noConfusion)
  · exact h.owned
  · exact hnotices
  · exact h.written

/-- A job that does not run does nothing. -/
theorem idle (h : Executing clock table row lists s u i r job e? ws) (idle : r.stage ≠ .working)
    (actions : List (JobAction × Instant)) (result : JobResult) :
    u.after ((actions.map fun a => .act i a.1 a.2) ++ [.answer i result]) = u := by
  have hact : ∀ a : JobAction × Instant, u.step (.act i a.1 a.2) = u := by
    intro a
    simp only [Activities.step, h.here, Option.elim_some, Activities.act]
  have hanswer : u.step (.answer i result) = u := by
    have hset : u.runs.set i r = u.runs := by
      obtain ⟨hi, hr⟩ := List.getElem?_eq_some_iff.mp h.here
      rw [← hr]
      exact List.set_getElem_self hi
    have hsame : r.answered result = r := by
      unfold Run.answered
      split
      · rename_i working
        exact absurd working idle
      · rfl
    simp only [Activities.step, h.here, Option.elim_some, hsame, hset]
  induction actions with
  | nil => exact hanswer
  | cons a actions ih =>
    show (u.step (.act i a.1 a.2)).after _ = u
    rw [hact]
    exact ih

theorem begun {p : Package} {t : MemoryTable} (fresh : s.runs[i]? = some { package := p })
    (log : s.shared.logger.table = some table) (there : s.shared.storage.tables.get? table = some t)
    (numbered : t.Numbered)
    (found : t.find? row.id = some row) (values : Values.Holds row.data lists) (mine : p.registerId = row.id) :
    Executing clock table row lists s s i { package := p } [] none [] where
  here := fresh
  mine := mine
  stands := ⟨rfl, rfl, rfl⟩
  sure := by
    intro hno
    cases hno
  log := log
  copied hno := absurd rfl hno
  owned := rfl
  notices := (List.append_nil _).symm
  written := ⟨row, .start there numbered found values⟩

theorem working_or_certain (h : Executing clock table row lists s u i r job e? ws)
    (far : r.stage.goesOn = false ∨ r.stage.rank ≤ 8) :
    e? = none ∧ r.stage = .working ∨ e?.isSome ∧ r.stage ≠ .working := by
  obtain ⟨p, logger, stage⟩ := r
  rcases h.stands.rank with ⟨he, hrank⟩ | ⟨he, hrank⟩
  · refine Or.inl ⟨he, ?_⟩
    cases stage <;> simp [Run.Stage.goesOn, Run.Stage.rank] at far hrank ⊢
  · refine Or.inr ⟨he, ?_⟩
    rintro rfl
    simp [Run.Stage.rank] at hrank

/-- How a run ends is certain, and it ends. -/
theorem ended {e : Ending} (h : Executing clock table row lists s u i r job (some e) ws) {times : List Instant}
    (htimes : ∀ a ∈ times, clock a) (enough : 7 ≤ times.length) :
    ∃ r' ws', r'.stage = .finished ∧ r'.package = r.package ∧
      Executing clock table row lists s (u.after (times.map (.run i))) i r' job (some e) ws' := by
  obtain ⟨r', x?, ws', hx, hlast, hpackage, -, hrank⟩ := h.steps htimes
  obtain rfl : x? = some e := by
    rcases hx with hx | ⟨-, hno, -⟩
    · exact hx
    · cases hno
  refine ⟨r', ws', ?_, hpackage, hlast⟩
  have hbefore := h.stands.rank
  have hafter := hlast.stands.rank
  simp only [Option.isSome_some, true_and, reduceCtorEq, false_and, false_or] at hbefore hafter
  rcases hrank with hrests | hrank
  · obtain ⟨p, logger, stage⟩ := r'
    cases stage <;> simp [Run.Stage.goesOn, Run.Stage.rank] at hrests hafter ⊢
  · obtain ⟨p, logger, stage⟩ := r'
    have hzero : stage.rank = 0 := by
      have hrank : stage.rank + times.length ≤ r.stage.rank := hrank
      omega
    cases stage <;> simp [Run.Stage.rank] at hzero ⊢

end Executing

/-- An execution that nobody comes between: the steps up to the job, what the job does, its return, and the steps to the
end. -/
def execution (i : Nat) (begins : List Instant) (actions : List (JobAction × Instant)) (result : JobResult)
    (ends : List Instant) : List Move :=
  begins.map (.run i) ++ (((actions.map fun a => .act i a.1 a.2) ++ [.answer i result]) ++ ends.map (.run i))

theorem executed {p : Package} {begins ends : List Instant}
    (h : Executing clock table row lists s s i { package := p } [] none [])
    (hbegins : ∀ a ∈ begins, clock a) (hends : ∀ a ∈ ends, clock a) (enough : 5 ≤ begins.length)
    (enough' : 7 ≤ ends.length)
    (actions : List (JobAction × Instant)) (result : JobResult) :
    ∃ r ws, r.stage = .finished ∧ r.package = p ∧
      Executing clock table row lists s (s.after (execution i begins actions result ends)) i r
        (if s.shared.owned then actions.filterMap fun a => a.1.inscription? a.2 else [])
        (some (if s.shared.owned then .ofResult result else .failed Failure.registryGone.message)) ws := by
  obtain ⟨r, x?, vs, hx, hbegun, hpackage, -, hrank⟩ := h.steps hbegins
  have far : r.stage.goesOn = false ∨ r.stage.rank ≤ 8 := hrank.imp_right fun hrank => by
    have hrank : r.stage.rank + begins.length ≤ 13 := hrank
    omega
  rw [execution, after_append, after_append]
  rcases hbegun.working_or_certain far with ⟨rfl, working⟩ | ⟨hcertain, idle⟩
  · rw [hbegun.sure working, if_pos rfl, if_pos rfl, after_append]
    obtain ⟨r', ws, hover, hsame, hlast⟩ := ((hbegun.acts working actions).answer working result).ended hends enough'
    exact ⟨r', ws, hover, hsame.trans hpackage, hlast⟩
  · obtain ⟨hgone, rfl⟩ : s.shared.owned = false ∧ x? = some (.failed Failure.registryGone.message) := by
      rcases hx with rfl | ⟨hgone, -, hx⟩
      · cases hcertain
      · exact ⟨hgone, hx⟩
    rw [hgone, if_neg Bool.false_ne_true, if_neg Bool.false_ne_true, hbegun.idle idle]
    obtain ⟨r', ws, hover, hsame, hlast⟩ := hbegun.ended hends enough'
    exact ⟨r', ws, hover, hsame.trans hpackage, hlast⟩

/-- An execution that nobody comes between leaves the register, its messages and what is published in agreement,
whatever the job does with its log and however it ends; and no other register, message or table has changed. Who wants
to hear of failures hears of it exactly if the register says so, as long as events are passed on. -/
theorem executions_agree (s : Activities Memory) {i : Nat} {p : Package} {table : LogTable} {t : MemoryTable}
    {row : Register}
    {lists : Values.Lists} (fresh : s.runs[i]? = some { package := p }) (log : s.shared.logger.table = some table)
    (there : s.shared.storage.tables.get? table = some t) (numbered : t.Numbered)
    (found : t.find? p.registerId = some row) (values : Values.Holds row.data lists) {begins ends : List Instant}
    (begun : 5 ≤ begins.length) (ended : 7 ≤ ends.length) (actions : List (JobAction × Instant)) (result : JobResult) :
    let u := s.after (execution i begins actions result ends)
    let e := if s.shared.owned then Ending.ofResult result else .failed Failure.registryGone.message
    let job := if s.shared.owned then actions.filterMap fun a => a.1.inscription? a.2 else []
    ∃ (t' : MemoryTable) (row' : Register) (new : List LogMessage) (a b c d : Instant),
      (a ∈ begins ++ ends ∧ b ∈ begins ++ ends ∧ c ∈ begins ++ ends ∧ d ∈ begins ++ ends) ∧
      -- The log.
      u.shared.storage.tables.get? table = some t' ∧
      (∀ other, other ≠ table → u.shared.storage.tables.get? other = s.shared.storage.tables.get? other) ∧
      t'.registers = t.registers.map (fun x => if x.id = p.registerId then row' else x) ∧
        t'.lastRegister = t.lastRegister ∧
      t'.messages = t.messages ++ new ∧ (∀ m ∈ new, m.registerId = p.registerId) ∧
      -- The register and its messages.
      row'.origin = row.origin ∧ row'.outcome = (e.status, e.dataTimestamp d, d) ∧
      Values.Holds row'.data (lists.notes
        ((Logger.startTag, a.millisText) :: job.filterMap (·.value?) ++ [(Logger.endTag, b.millisText)])) ∧
      new.map (·.content) =
        job.filterMap (·.message?) ++ (e.message?.map fun m => (m.1, Logger.withoutNul m.2, c)).toList ∧
      -- What is published.
      u.shared.notices =
        s.shared.notices ++ [p.notice (.running p.executionDate), p.notice (.finished (e.report p))] ∧
      (e.report p).success = decide (row'.status = .done) ∧
      ((e.report p).isAutomatic = true ↔ ∃ date info, e = .done date info) ∧
      (e.report p).HasOwn p e.extraInfo ∧
      -- Who hears of it.
      ∀ v : Service Memory, v.shared = u.shared → v.heard = s.shared.notices.length →
        if v.phase = .launched then
          v.hear.deliveries.filter (·.subscriber.interest = .failed) =
            v.deliveries.filter (·.subscriber.interest = .failed) ++
              if row'.status = .error then (v.subscribers.filter fun x => x.interest = .failed ∧
                x.processId.all (· == p.processId)).map (⟨·, p.notice (.finished (e.report p))⟩)
              else []
        else v.hear = v := by
  intro u e job
  obtain ⟨hid, hrow⟩ : row.id = p.registerId ∧ _ := ⟨by simpa using List.find?_some found, found⟩
  have hstart : Executing (· ∈ begins ++ ends) table row lists s s i { package := p } [] none [] :=
    .begun fresh log there numbered (hid ▸ found) values hid.symm
  obtain ⟨r, ws, hover, hpackage, hrun⟩ := executed hstart (fun a ha => List.mem_append_left _ ha)
    (fun a ha => List.mem_append_right _ ha) begun ended actions result
  obtain ⟨row', elsewhere, t₀, t', ht₀, ht', hin⟩ := hrun.written
  obtain rfl : t₀ = t := Option.some.inj (ht₀.symm.trans there)
  have hstands := hrun.stands
  have hsaid := hrun.notices
  obtain ⟨q, logger, stage⟩ := r
  obtain rfl : stage = .finished := hover
  obtain rfl : p = q := hpackage.symm
  obtain ⟨e', he', hclosed⟩ := hstands
  obtain rfl : e' = e := (Option.some.inj he').symm
  obtain ⟨a, b, c, d, ha, hb, hc, hd, hvalues, hmessages, hresult⟩ := hclosed.written
  obtain ⟨new, hnew, hids, hcontent⟩ := hin.messages
  have houtcome : row'.outcome = (e.status, e.dataTimestamp d, d) := by
    rw [hin.outcome, hresult]
    rfl
  have hstatus : row'.status = e.status := congrArg Prod.fst houtcome
  refine ⟨t', row', new, a, b, c, d, ⟨ha, hb, hc, hd⟩, ht', elsewhere, hid ▸ hin.registers, hin.lastRegister,
    hnew, hid ▸ hids,
    hin.origin, houtcome, hvalues ▸ hin.values, hcontent.trans hmessages, hsaid, ?_, ?_, ?_, ?_⟩
  · rw [hstatus]
    exact e.success_eq p
  · exact e.isAutomatic_iff p
  · exact e.hasOwn_report p
  · intro v hv hheard
    rw [hstatus]
    exact Service.hear_failed (hv ▸ hsaid) hheard

/-- A process was requested and dispatched. -/
def dispatchedSolo : Activities Memory :=
  (ofService (Service.create .collector 1 4 2 ⟨some soloTable⟩ soloRegistry soloLog)).after
    ([.request 1 .epoch] ++ List.replicate 6 (.admission 0 .epoch) ++ [.launch, .loop, .loop])

theorem executions_agree_of_dispatchedSolo :
    dispatchedSolo.runs[0]? = some { package := ⟨1, 1, .epoch, false⟩ } ∧
      ∃ row' : Register, row'.outcome = (.error, some .epoch, .epoch) ∧
        Values.Holds row'.data (Values.Lists.notes [] [(Logger.startTag, Instant.epoch.millisText), ("key", "a"),
          (Logger.endTag, Instant.epoch.millisText)]) := by
  have fresh : dispatchedSolo.runs[0]? = some { package := ⟨1, 1, .epoch, false⟩ } := by rfl
  have there : dispatchedSolo.shared.storage.tables.get? soloTable =
      some ⟨1, 0, [⟨1, 1, .start, .epoch, none, .epoch, none⟩], []⟩ := by decide +kernel
  have begun : 5 ≤ (List.replicate 5 Instant.epoch).length := by decide
  have ended : 7 ≤ (List.replicate 7 Instant.epoch).length := by decide
  obtain ⟨t', row', new, a, b, c, d, htimes, -, -, -, -, -, -, -, houtcome, hvalues, -⟩ :=
    executions_agree dispatchedSolo
    fresh (by rfl) there (by rfl) (by rfl) Values.holds_none begun ended [(.addValue "key" "a", .epoch)] (.panic none)
  have hepoch : ∀ x ∈ List.replicate 5 Instant.epoch ++ List.replicate 7 Instant.epoch, x = .epoch := by decide
  obtain ⟨ha, hb, -, hd⟩ := htimes
  obtain rfl := hepoch a ha
  obtain rfl := hepoch b hb
  obtain rfl := hepoch d hd
  exact ⟨fresh, row', houtcome, hvalues⟩

/-- A job fails after the service was stopped. -/
def failedAfterStop : List (Instant × ServiceCall) :=
  [(.epoch, .subscribe ⟨"watch", .failed, some 1⟩), (.epoch, .launch), (.epoch, .trigger 1 .epoch), (.epoch, .settle),
    (.epoch, .stop), (.epoch, .conclude 1 ⟨[], .panic none⟩), (.epoch, .settle)]

/-- The register says that the run failed, and who wants to hear of failures does not hear of it. -/
theorem failure_after_stop_unheard :
    let s := (Service.create .collector 1 4 2 ⟨some soloTable⟩ soloRegistry soloLog).afterCalls failedAfterStop
    (⟨"watch", .failed, some 1⟩ : Subscriber) ∈ s.subscribers ∧
    RowStorage.rows s.shared.storage soloTable 1 = some .error ∧
      s.deliveries.length = 0 := by
  decide +kernel

end Activities

end ProcessRuns
