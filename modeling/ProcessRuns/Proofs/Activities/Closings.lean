import Mathlib.Data.List.Induction
import ProcessRuns.Proofs.Activities.Located
import ProcessRuns.Proofs.Log.Entries

/-! # What the rows say when calls fail

The storage may fail at any call. Then a row may say less than its register has come to, but as long as nobody selects
other log tables it says nothing else: a register that nobody has closed is open and has no date, and one that its run
has closed says what the run was to say exactly if the log has taken it. A date that was not there at first comes from
the end of a run. -/

namespace ProcessRuns

/-- Nobody has closed the register, so far as its row says. -/
def Entry.Open (e : Entry) : Prop := (e.status = .start ∨ e.status = .onQueue) ∧ e.date = none

namespace Closing

/-- What the row was to say. -/
def entry (k : Closing) : Entry := ⟨k.package.processId, k.ending.status, k.ending.dataTimestamp k.time⟩

/-- The row says what it was to say if the log has taken it, and that the run goes on if not. -/
def Shown (k : Closing) (e : Entry) : Prop :=
  e.processId = k.package.processId ∧ if k.written then e = k.entry else e.Open

/-- The date that the log has got. -/
def date? (k : Closing) : Option Instant := if k.written then k.ending.dataTimestamp k.time else none

theorem Shown.date {k : Closing} {e : Entry} (h : k.Shown e) : e.date = k.date? := by
  obtain ⟨-, h⟩ := h
  unfold date?
  split at h <;> rename_i hwritten
  · rw [if_pos hwritten, h]
    rfl
  · rw [if_neg hwritten]
    exact h.2

end Closing

namespace Course

variable {x y : Course} {start entry : Option Entry} {status? : Option Status}

/-- What the row of a register says that was not closed by its run; `start` is what it said at first. -/
def Tells (start entry : Option Entry) : Course → Prop
  | unopened => entry = start
  | admitted _ _ | queued _ | dispatched _ _ | started _ _ | stripped _ _ =>
    start = none ∧ ∃ e, entry = some e ∧ e.Open
  | dropped _ _ => start = none ∧ ∃ e, entry = some e ∧ e.date = none
  | ended _ _ _ => start = none ∧ entry.isSome

/-- A register that goes on has a row, and the row says where it is whether it was written or not. -/
theorem Next.tells (next : x.Next status? y) (h : x.Tells start entry) :
    ∃ e, entry = some e ∧ y.Tells start (some e) ∧
      ∀ status, status? = some status → y.Tells start (some ⟨e.processId, status, none⟩) := by
  cases next with
  | mark | restart =>
    obtain ⟨hstart, e, he, hopen⟩ := h
    refine ⟨e, he, ⟨hstart, e, rfl, hopen⟩, ?_⟩
    intro status hstatus
    cases hstatus
    exact ⟨hstart, _, rfl, by simp, rfl⟩
  | drop =>
    obtain ⟨hstart, e, he, hopen⟩ := h
    refine ⟨e, he, ⟨hstart, e, rfl, hopen.2⟩, ?_⟩
    intro status hstatus
    cases hstatus
    exact ⟨hstart, _, rfl, rfl⟩
  | publish | dispatch | start =>
    obtain ⟨hstart, e, he, hopen⟩ := h
    refine ⟨e, he, ⟨hstart, e, rfl, hopen⟩, ?_⟩
    intro status hno
    cases hno

theorem Next.opened (next : x.Next status? y) : x ≠ unopened := by
  rintro rfl
  cases next

theorem Next.not_ended (next : x.Next status? y) (i : Nat) (q failed : Bool) :
    x ≠ ended i q failed ∧ y ≠ ended i q failed := by
  constructor <;> rintro rfl <;> cases next

end Course

namespace Run

/-- How a run ended that has closed its register and did not report its end yet. -/
def ended? (r : Run) : Option Ending :=
  match r.stage with
  | .release e | .wake e | .report e => some e
  | _ => none

theorem ended?_step {σ : Type} [Storage σ] {r : Run} {now : Instant} {s : Shared σ} {e : Ending}
    (h : (r.step now s).1.ended? = some e) : r.ended? = some e ∨ r.stage = .close e := by
  obtain ⟨p, logger, stage⟩ := r
  cases stage with
  | takeLog =>
    cases hq : p.onQueue <;> simp [step, ended?, hq] at h
  | check =>
    cases ho : s.owned <;> simp [step, enter, ended?, ho] at h
  | close e' =>
    cases h
    exact Or.inr rfl
  | release e' =>
    refine Or.inl ?_
    cases hf : (s.scheduler.finish p.processId).1 <;> simpa [step, enter, ended?, hf] using h
  | wake e' => exact Or.inl h
  | _ => cases h

end Run

namespace Activities

variable {σ : Type} [Storage σ] {s t : Activities σ} {m : Move} {l : Logger} {table : LogTable}
  {start : RegisterId → Option Entry} {c c' : RegisterId → Course} {ks : List Closing}

/-- The ends of runs in an interleaving, oldest first. -/
def closings (s : Activities σ) : List Move → List Closing
  | [] => []
  | m :: moves => (s.closing? m).toList ++ (s.step m).closings moves

theorem closings_append (s : Activities σ) (moves more : List Move) :
    s.closings (moves ++ more) = s.closings moves ++ (s.after moves).closings more := by
  induction moves generalizing s with
  | nil => rfl
  | cons m moves ih => rw [List.cons_append, closings, ih, closings, List.append_assoc]; rfl

/-! ### Runs that have ended -/

/-- A run that has ended had ended before, or it has come to its end by this move. -/
theorem ended?_stepped {i : Nat} {r : Run} {e : Ending} (here : (s.step m).runs[i]? = some r)
    (ended : r.ended? = some e) :
    (∃ r', s.runs[i]? = some r' ∧ r'.package = r.package ∧ r'.ended? = some e) ∨
      ∃ k, s.closing? m = some k ∧ k.run = i ∧ k.package = r.package ∧ k.ending = e := by
  obtain ⟨t, ht⟩ : ∃ t, s.step m = t := ⟨_, rfl⟩
  have hm := step_cases s m
  rw [ht] at hm here
  cases hm with
  | alike halike => exact Or.inl ⟨r, halike.runs ▸ here, rfl, ended⟩
  | request | forget | admission | removal | release | select => exact Or.inl ⟨r, here, rfl, ended⟩
  | @run j now r' there =>
    rcases getElem?_set_cases there here with ⟨rfl, rfl⟩ | ⟨-, here⟩
    · rw [r'.package_step now s.shared]
      rcases Run.ended?_step ended with hbefore | hclose
      · exact Or.inl ⟨r', there, rfl, hbefore⟩
      · refine Or.inr ?_
        simp only [closing?, there, Option.bind_some, Run.closing?, hclose]
        exact ⟨_, rfl, rfl, rfl, rfl⟩
    · exact Or.inl ⟨r, here, rfl, ended⟩
  | answer result there working =>
    rcases getElem?_set_cases there here with ⟨-, rfl⟩ | ⟨-, here⟩
    · cases ended
    · exact Or.inl ⟨r, here, rfl, ended⟩
  | dispatch popped =>
    rcases getElem?_concat_cases here with ⟨-, rfl⟩ | here
    · cases ended
    · exact Or.inl ⟨r, here, rfl, ended⟩

theorem closing_of_ended (idle : s.runs = []) (moves : List Move) {i : Nat} {r : Run} {e : Ending}
    (here : (s.after moves).runs[i]? = some r) (ended : r.ended? = some e) :
    ∃ k ∈ s.closings moves, k.run = i ∧ k.package = r.package ∧ k.ending = e := by
  induction moves using List.reverseRecOn generalizing r with
  | nil =>
    have here : s.runs[i]? = some r := here
    rw [idle] at here
    cases here
  | append_singleton moves m ih =>
    rw [after_append] at here
    rw [closings_append]
    rcases ended?_stepped here ended with ⟨r', hr', hpackage, hended⟩ | ⟨k, hk, hclosed⟩
    · obtain ⟨k, hk, hrun, hkpackage, hending⟩ := ih hr' hended
      exact ⟨k, List.mem_append_left _ hk, hrun, hkpackage.trans hpackage, hending⟩
    · refine ⟨k, List.mem_append_right _ ?_, hclosed⟩
      rw [closings, hk]
      exact List.mem_cons_self

/-! ### The rows -/

variable [RowStorage σ] [EntryStorage σ]

/-- The row of every register that was opened names the process of its package. -/
def Owned (s : Activities σ) (table : LogTable) : Prop :=
  ∀ u ∈ s.record.opened, ∃ e, EntryStorage.entries s.shared.storage table u.package.registerId = some e ∧
    e.processId = u.package.processId

/-- The rows of a log say what the registers have come to, so far as the log has taken it. -/
structure Entered (table : LogTable) (start : RegisterId → Option Entry) (s : Activities σ) (c : RegisterId → Course)
    (ks : List Closing) : Prop where
  located : s.Located c
  sound : RowStorage.Sound s.shared.storage
  told : ∀ id, (c id).Tells (start id) (EntryStorage.entries s.shared.storage table id)
  ended : ∀ id i q failed, c id = .ended i q failed → ∃ k ∈ ks, k.package.registerId = id
  closed : ∀ k ∈ ks, (∃ q failed, c k.package.registerId = .ended k.run q failed) ∧
    ∃ e, EntryStorage.entries s.shared.storage table k.package.registerId = some e ∧ k.Shown e
  owned : s.Owned table

namespace Entered

theorem there (h : Entered table start s c ks) {id : RegisterId} (opened : c id ≠ .unopened) :
    start id = none ∧ (EntryStorage.entries s.shared.storage table id).isSome := by
  have htold := h.told id
  cases hc : c id with
  | unopened => exact absurd hc opened
  | admitted | queued | dispatched | started | stripped | dropped =>
    rw [hc] at htold
    obtain ⟨hstart, e, he, -⟩ := htold
    exact ⟨hstart, he ▸ rfl⟩
  | ended =>
    rw [hc] at htold
    exact htold

/-- A new register has a number that was not used, so it was not opened before. -/
theorem fresh (h : Entered table start s c ks) {pid : ProcessId} {now : Instant} {id : RegisterId} {storage : σ}
    (started : (⟨some table⟩ : Logger).start pid now s.shared.storage = (.ok id, storage)) : c id = .unopened := by
  rw [Logger.start_apply _ _ rfl] at started
  by_contra hopened
  have hsome := (h.there hopened).2
  rw [EntryStorage.insert_fresh h.sound started] at hsome
  cases hsome

/-- Nothing is written; registers may go on with the rows that they have. -/
theorem keep (h : Entered table start s c ks) (located : t.Located c') (sound : RowStorage.Sound t.shared.storage)
    (rows : EntryStorage.entries t.shared.storage = EntryStorage.entries s.shared.storage)
    (told : ∀ id, (c' id).Tells (start id) (EntryStorage.entries s.shared.storage table id))
    (ended : ∀ id i q failed, c' id = .ended i q failed ↔ c id = .ended i q failed) (owned : t.Owned table) :
    Entered table start t c' ks where
  located := located
  sound := sound
  told := rows ▸ told
  ended id i q failed hid := h.ended id i q failed ((ended id i q failed).mp hid)
  closed k hk := by
    obtain ⟨⟨q, failed, hc⟩, hshown⟩ := h.closed k hk
    exact ⟨⟨q, failed, (ended _ _ _ _).mpr hc⟩, rows ▸ hshown⟩
  owned := owned

/-- One register goes on that its run has not closed, and nothing is written to others. -/
theorem advance (h : Entered table start s c ks) {id : RegisterId} {x : Course} {k? : Option Closing}
    (located : t.Located (Function.update c id x)) (sound : RowStorage.Sound t.shared.storage)
    (others : ∀ i, i ≠ id →
      EntryStorage.entries t.shared.storage table i = EntryStorage.entries s.shared.storage table i)
    (told : x.Tells (start id) (EntryStorage.entries t.shared.storage table id))
    (before : ∀ i q failed, c id ≠ .ended i q failed)
    (ended : ∀ i q failed, x = .ended i q failed → ∃ k, k? = some k)
    (closed : ∀ k, k? = some k → k.package.registerId = id ∧ (∃ q failed, x = .ended k.run q failed) ∧
      ∃ e, EntryStorage.entries t.shared.storage table id = some e ∧ k.Shown e) (owned : t.Owned table) :
    Entered table start t (Function.update c id x) (ks ++ k?.toList) := by
  refine ⟨located, sound, fun i => ?_, fun i j q failed hi => ?_, fun k hk => ?_, owned⟩
  · by_cases hi : i = id
    · rw [hi, Function.update_self]
      exact told
    · rw [Function.update_of_ne hi, others i hi]
      exact h.told i
  · by_cases hid : i = id
    · rw [hid, Function.update_self] at hi
      obtain ⟨k, hk⟩ := ended j q failed hi
      exact ⟨k, List.mem_append_right _ (by simp [hk]), ((closed k hk).1).trans hid.symm⟩
    · rw [Function.update_of_ne hid] at hi
      obtain ⟨k, hk, hkid⟩ := h.ended i j q failed hi
      exact ⟨k, List.mem_append_left _ hk, hkid⟩
  · rcases List.mem_append.mp hk with hk | hk
    · obtain ⟨⟨q, failed, hc⟩, hshown⟩ := h.closed k hk
      have hne : k.package.registerId ≠ id := fun heq => before _ _ _ (heq ▸ hc)
      rw [Function.update_of_ne hne, others _ hne]
      exact ⟨⟨q, failed, hc⟩, hshown⟩
    · obtain ⟨rfl, hended, hshown⟩ := closed k (by simpa [eq_comm] using hk)
      rw [Function.update_self]
      exact ⟨hended, hshown⟩

/-- The register of a package that goes on without its run closing it. -/
theorem goesOn (h : Entered table start s c ks) {id : RegisterId} {x : Course} {status? : Option Status}
    (next : (c id).Next status? x) (located : t.Located (Function.update c id x))
    (sound : RowStorage.Sound t.shared.storage)
    (rows : EntryStorage.entries t.shared.storage = EntryStorage.entries s.shared.storage ∨
      ∃ status, status? = some status ∧
      EntryStorage.entries t.shared.storage = (EntryStorage.entries s.shared.storage).write table id status none)
    (owned : t.Owned table) : Entered table start t (Function.update c id x) ks := by
  obtain ⟨e, he, hsame, hwritten⟩ := next.tells (h.told id)
  suffices hlast : Entered table start t (Function.update c id x) (ks ++ (none : Option Closing).toList) by
    rwa [Option.toList_none, List.append_nil] at hlast
  refine h.advance located sound (fun i hi => ?_) ?_ (fun i q failed => (next.not_ended i q failed).1)
    (fun i q failed hx => absurd hx (next.not_ended i q failed).2) (fun k hk => by cases hk) owned
  · rcases rows with hrows | ⟨status, -, hrows⟩ <;> rw [hrows]
    exact Entries.write_of_ne hi
  · rcases rows with hrows | ⟨status, hstatus, hrows⟩ <;> rw [hrows]
    · rwa [he]
    · rw [Entries.write_self he]
      exact hwritten status hstatus

/-- What a step does to the rows. -/
theorem entries_went (h : Entered table start s c ks) {k? : Option Closing} (hw : Went ⟨some table⟩ s t c k? c') :
    EntryStorage.entries t.shared.storage = EntryStorage.entries s.shared.storage ∨
    (∃ pid id, EntryStorage.entries s.shared.storage table id = none ∧
      EntryStorage.entries t.shared.storage =
        (EntryStorage.entries s.shared.storage).insert table id ⟨pid, .start, none⟩) ∨
    ∃ id status date, EntryStorage.entries t.shared.storage =
      (EntryStorage.entries s.shared.storage).write table id status date := by
  have written : ∀ {id : RegisterId} {status : Status} {date : Option Instant} {now : Instant}, c id ≠ .unopened →
      t.shared.storage = ((⟨some table⟩ : Logger).result status date id now s.shared.storage).2 →
      EntryStorage.entries t.shared.storage = EntryStorage.entries s.shared.storage ∨
      EntryStorage.entries t.shared.storage = (EntryStorage.entries s.shared.storage).write table id status date := by
    intro id status date now opened hstorage
    rw [hstorage]
    rcases Logger.result_cases rfl h.sound (h.there opened).2 status date now with ⟨-, hrows⟩ | ⟨-, hrows⟩
    · exact Or.inr hrows
    · exact Or.inl hrows
  cases hw with
  | stays quiet => exact Or.inl (EntryStorage.quiet h.sound quiet)
  | refused started =>
    rw [Logger.start_apply _ _ rfl] at started
    exact Or.inl (EntryStorage.insert_error h.sound started)
  | @opens i pid now id fresh started =>
    rw [Logger.start_apply _ _ rfl] at started
    exact Or.inr (Or.inl ⟨pid, id, EntryStorage.insert_fresh h.sound started, EntryStorage.insert_ok h.sound started⟩)
  | goes next storage => exact Or.inl (congrArg EntryStorage.entries storage)
  | writes next storage =>
    exact (written next.opened storage).imp id fun hrows => Or.inr ⟨_, _, _, hrows⟩
  | closes here started status storage =>
    refine (written ?_ storage).imp id fun hrows => Or.inr ⟨_, _, _, hrows⟩
    rw [started]
    exact Course.noConfusion
  | strips taken storage => exact Or.inl (congrArg EntryStorage.entries storage)

/-- A row keeps its process. -/
theorem processId_went (h : Entered table start s c ks) {k? : Option Closing} (hw : Went ⟨some table⟩ s t c k? c')
    {id : RegisterId} {e : Entry} (he : EntryStorage.entries s.shared.storage table id = some e) :
    ∃ e', EntryStorage.entries t.shared.storage table id = some e' ∧ e'.processId = e.processId := by
  rcases h.entries_went hw with hrows | ⟨pid, new, hnone, hrows⟩ | ⟨other, status, date, hrows⟩ <;> rw [hrows]
  · exact ⟨e, he, rfl⟩
  · have hne : id ≠ new := by
      rintro rfl
      rw [hnone] at he
      cases he
    rw [Entries.insert_of_ne hne]
    exact ⟨e, he, rfl⟩
  · by_cases hid : id = other
    · subst hid
      exact ⟨_, Entries.write_self he, rfl⟩
    · rw [Entries.write_of_ne hid]
      exact ⟨e, he, rfl⟩

theorem owned_stepped (h : Entered table start s c ks) (hs : Orderly ⟨some table⟩ s) (hm : Stepped s m t)
    {k? : Option Closing} (hw : Went ⟨some table⟩ s t c k? c') : t.Owned table := by
  have hold : ∀ u ∈ s.record.opened, ∃ e,
      EntryStorage.entries t.shared.storage table u.package.registerId = some e ∧
      e.processId = u.package.processId := by
    intro u hu
    obtain ⟨e, he, hpid⟩ := h.owned u hu
    obtain ⟨e', he', hsame⟩ := h.processId_went hw he
    exact ⟨e', he', hsame.trans hpid⟩
  rcases opened_stepped hm with hopened | ⟨i, logger, pid, date, now, id, here, started, -, hopened⟩ <;>
    rw [Owned, hopened]
  · exact hold
  · intro u hu
    rcases List.mem_append.mp hu with hu | hu
    · exact hold u hu
    · have hlogger : logger = ⟨some table⟩ := hs.admissions _ (List.mem_of_getElem? here)
      rw [hlogger, Logger.start_apply _ _ rfl] at started
      rw [List.mem_singleton.mp hu, EntryStorage.insert_ok h.sound started]
      exact ⟨_, Entries.insert_self, rfl⟩

/-- The package of a run has the process that its row names. -/
theorem owned_run (h : Entered table start s c ks) (hr : s.Recorded) {i : Nat} {r : Run} (here : s.runs[i]? = some r) :
    ∃ e, EntryStorage.entries s.shared.storage table r.package.registerId = some e ∧
        e.processId = r.package.processId := by
  have hmem : r.package ∈ s.record.dispatched.map (·.package) :=
    hr.dispatched ▸ List.mem_map_of_mem (List.mem_of_getElem? here)
  obtain ⟨u, hu, hpackage⟩ := List.mem_map.mp hmem
  have howned := h.owned u.origin (hr.origins u (Or.inr (Or.inl hu)))
  rwa [← hpackage]

/-- A run closes its register, whether the log takes it or not. -/
theorem closes (h : Entered table start s c ks) (hr : s.Recorded) {i : Nat} {p : Package} {e : Ending} {now : Instant}
    {q failed : Bool} (here : s.runs[i]? = some ⟨p, ⟨some table⟩, .close e⟩)
    (started : c p.registerId = .started i q)
    (storage : t.shared.storage =
      ((⟨some table⟩ : Logger).result e.status (e.dataTimestamp now) p.registerId now s.shared.storage).2)
    (located : t.Located (Function.update c p.registerId (.ended i q failed)))
    (sound : RowStorage.Sound t.shared.storage) (owned : t.Owned table) :
    Entered table start t (Function.update c p.registerId (.ended i q failed)) (ks ++ [⟨i, p, e, now,
      ((⟨some table⟩ : Logger).result e.status (e.dataTimestamp now) p.registerId now
          s.shared.storage).1.isOk⟩]) := by
  have htold := h.told p.registerId
  rw [started] at htold
  obtain ⟨hstart, old, hold, hopen⟩ := htold
  obtain ⟨old', hold', hpid⟩ : ∃ old', EntryStorage.entries s.shared.storage table p.registerId = some old' ∧
    old'.processId = p.processId := h.owned_run hr here
  obtain rfl : old' = old := Option.some.inj (hold'.symm.trans hold)
  have hrows := Logger.result_cases (l := ⟨some table⟩) rfl h.sound (Option.isSome_of_eq_some hold) e.status
    (e.dataTimestamp now) now
  rw [← storage] at hrows
  -- The row says the end if the log took it, and what it said before if not: that the register is open.
  have hshown : ∃ e', EntryStorage.entries t.shared.storage table p.registerId = some e' ∧
    Closing.Shown ⟨i, p, e, now,
      ((⟨some table⟩ : Logger).result e.status (e.dataTimestamp now) p.registerId now
        s.shared.storage).1.isOk⟩ e' := by
    rcases hrows with ⟨hok, hrows⟩ | ⟨hno, hrows⟩ <;> rw [hrows]
    · refine ⟨_, Entries.write_self hold, hpid, ?_⟩
      rw [if_pos hok, hpid]
      rfl
    · refine ⟨_, hold, hpid, ?_⟩
      rw [if_neg (by simp [hno])]
      exact hopen
  refine h.advance located sound (fun j hj => ?_) ⟨hstart, ?_⟩ (fun j q failed => ?_) (fun _ _ _ _ => ⟨_, rfl⟩)
    (fun k hk => ?_) owned
  · rcases hrows with ⟨-, hrows⟩ | ⟨-, hrows⟩ <;> rw [hrows]
    exact Entries.write_of_ne hj
  · obtain ⟨e', he', -⟩ := hshown
    exact Option.isSome_of_eq_some he'
  · rw [started]
    exact Course.noConfusion
  · obtain rfl := Option.some.inj hk
    exact ⟨rfl, ⟨q, failed, rfl⟩, hshown⟩

theorem went (h : Entered table start s c ks) (hr : s.Recorded) {k? : Option Closing}
    (hw : Went ⟨some table⟩ s t c k? c') (located : t.Located c') (sound : RowStorage.Sound t.shared.storage)
    (owned : t.Owned table) : Entered table start t c' (ks ++ k?.toList) := by
  have unclosed : ∀ {c'}, Entered table start t c' ks →
    Entered table start t c' (ks ++ (none : Option Closing).toList) :=
    fun hlast => by rwa [Option.toList_none, List.append_nil]
  cases hw with
  | stays quiet =>
    exact unclosed (h.keep located sound (EntryStorage.quiet h.sound quiet) h.told (fun _ _ _ _ => Iff.rfl) owned)
  | refused started =>
    rw [Logger.start_apply _ _ rfl] at started
    exact unclosed (h.keep located sound (EntryStorage.insert_error h.sound started) h.told
      (fun _ _ _ _ => Iff.rfl) owned)
  | @opens i pid now id fresh started =>
    rw [Logger.start_apply _ _ rfl] at started
    have hrows := EntryStorage.insert_ok h.sound started
    -- Until it is opened, a register says what it said at first, and a fresh one has no row.
    have hstart : start id = none := by
      have htold := h.told id
      rw [fresh] at htold
      exact htold.symm.trans (EntryStorage.insert_fresh h.sound started)
    refine h.advance located sound (fun i hi => ?_) ?_ (fun j q failed => ?_) (fun j q failed hx => ?_)
      (fun k hk => by cases hk) owned
    · rw [hrows, Entries.insert_of_ne hi]
    · rw [hrows, Entries.insert_self]
      exact ⟨hstart, _, rfl, Or.inl rfl, rfl⟩
    · rw [fresh]
      exact Course.noConfusion
    · cases hx
  | goes next storage =>
    exact unclosed (h.goesOn next located sound (Or.inl (congrArg EntryStorage.entries storage)) owned)
  | @writes id status x now next storage =>
    refine unclosed (h.goesOn next located sound ?_ owned)
    rw [storage]
    rcases Logger.result_cases rfl h.sound (h.there next.opened).2 status none now with ⟨-, hrows⟩ | ⟨-, hrows⟩
    · exact Or.inr ⟨status, rfl, hrows⟩
    · exact Or.inl hrows
  | closes here started status storage => exact h.closes hr here started storage located sound owned
  | strips taken storage =>
    refine unclosed (h.keep located sound (congrArg EntryStorage.entries storage) (fun id => ?_)
      (fun id i q failed => ?_) owned)
    · rcases taken id with hsame | ⟨q, hq, hnew⟩
      · rw [hsame]
        exact h.told id
      · have htold := h.told id
        rw [hq] at htold
        rw [hnew]
        exact htold
    · rcases taken id with hsame | ⟨q, hq, hnew⟩
      · rw [hsame]
      · rw [hq, hnew]
        simp

theorem step (h : Entered table start s c ks) (hs : Orderly ⟨some table⟩ s) (hr : s.Recorded)
    (stays : m.isSelect = false) :
    ∃ c', Entered table start (s.step m) c' (ks ++ (s.closing? m).toList) := by
  obtain ⟨c', hc', hw⟩ := h.located.step hs hr stays fun _ _ _ _ started => h.fresh started
  have hm := step_cases s m
  refine ⟨c', h.went hr hw hc' ?_ (h.owned_stepped hs hm hw)⟩
  exact (calls_stepped s hm).keep (fun _ _ => RowStorage.sound) h.sound

end Entered

/-- What holds after any moves without a selection, whichever calls have failed. -/
theorem entered_after (service : Service σ) (fresh : service.shared.scheduler = {})
    (hl : service.shared.logger = ⟨some table⟩) (sound : RowStorage.Sound service.shared.storage) {moves : List Move}
    (stays : ∀ m ∈ moves, m.isSelect = false) :
    ((ofService service).after moves).Recorded ∧ Orderly ⟨some table⟩ ((ofService service).after moves) ∧
      ∃ c, Entered table (EntryStorage.entries service.shared.storage table) ((ofService service).after moves) c
        ((ofService service).closings moves) := by
  induction moves using List.reverseRecOn with
  | nil =>
    refine ⟨recorded_start service fresh, hl ▸ orderly_start service fresh, fun _ => .unopened,
      located_start service fresh,
      sound, fun _ => rfl, ?_, ?_, ?_⟩
    · intro id i q failed hno
      cases hno
    · intro k hk
      cases hk
    · intro u hu
      cases hu
  | append_singleton moves m ih =>
    obtain ⟨hrecorded, horderly, c, hc⟩ := ih fun m' hm' => stays m' (List.mem_append_left _ hm')
    have hstay := stays m (List.mem_append_right _ (List.mem_singleton.mpr rfl))
    have hm := step_cases ((ofService service).after moves) m
    rw [after_append, closings_append]
    refine ⟨hrecorded.stepped hm, horderly.stepped hm hstay, ?_⟩
    obtain ⟨c', hc'⟩ := hc.step horderly hrecorded hstay
    refine ⟨c', ?_⟩
    rwa [closings, closings, List.append_nil]

end Activities

end ProcessRuns
