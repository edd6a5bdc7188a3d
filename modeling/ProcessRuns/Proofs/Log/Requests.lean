import ProcessRuns.Proofs.Log.Notes
import ProcessRuns.Proofs.Log.Operations

/-! # The requests of a log

What each call of a logger hands on to its storage, with all that it is given: which operations, on which table and with
which texts. A storage can be made to note what is asked of it, and that makes no difference to what it does. -/

namespace ProcessRuns

variable {σ α β : Type}

/-- A storage that notes what is asked of it. -/
structure Noted (σ : Type) where
  storage : σ
  /-- The operations that were asked for, oldest first. -/
  asked : List Operation := []

namespace Noted

/-- Notes an operation down and performs it. -/
def noting (o : Operation) (a : Action σ α) : Action (Noted σ) α := fun s =>
  ((a s.storage).1, ⟨(a s.storage).2, s.asked ++ [o]⟩)

instance [Storage σ] : Storage (Noted σ) where
  init table := noting (.init table) (Storage.init table)
  insertRegister table processId status now :=
    noting (.insertRegister table processId status now) (Storage.insertRegister table processId status now)
  updateResult table id status date now :=
    noting (.updateResult table id status date now) (Storage.updateResult table id status date now)
  insertMessage table id type description now :=
    noting (.insertMessage table id type description now) (Storage.insertMessage table id type description now)
  appendValue table id tag value := noting (.appendValue table id tag value) (Storage.appendValue table id tag value)
  maxLastProcess table processId := noting (.maxLastProcess table processId) (Storage.maxLastProcess table processId)
  maxData table processId := noting (.maxData table processId) (Storage.maxData table processId)
  registers table processId offset limit :=
    noting (.registers table processId offset limit) (Storage.registers table processId offset limit)
  messages table ids := noting (.messages table ids) (Storage.messages table ids)
  updateStatus table old new := noting (.updateStatus table old new) (Storage.updateStatus table old new)

end Noted

namespace Operation

theorem after_append [Storage σ] (s : σ) (xs ys : List Operation) : after s (xs ++ ys) = after (after s xs) ys :=
  List.foldl_append

/-- The texts that an operation is given. -/
def texts : Operation → List String
  | insertMessage _ _ _ description _ => [description]
  | appendValue _ _ tag value => [tag, value]
  | _ => []

end Operation

/-! ### Actions that ask -/

section Asks

variable [Storage σ] {P Q : Operation → Prop}

/-- An action does the same whether or not it is noted what it asks for, it does so by these operations, and each of
them has a property. -/
def Asks (P : Operation → Prop) (a : Action (Noted σ) α) (b : Action σ α) : Prop :=
  ∀ s, ∃ asked, a s = ((b s.storage).1, ⟨(b s.storage).2, s.asked ++ asked⟩) ∧
    (b s.storage).2 = Operation.after s.storage asked ∧ ∀ o ∈ asked, P o

theorem Asks.mono {a : Action (Noted σ) α} {b : Action σ α} (h : Asks P a b) (imp : ∀ o, P o → Q o) :
    Asks Q a b := by
  intro s
  obtain ⟨asked, ha, hb, hasked⟩ := h s
  exact ⟨asked, ha, hb, fun o ho => imp o (hasked o ho)⟩

theorem asks_ofExcept (x : Except Failure α) : Asks (σ := σ) P (.ofExcept x) (.ofExcept x) := fun s =>
  ⟨[], by rw [List.append_nil]; rfl, rfl, by simp⟩

theorem asks_pure (x : α) : Asks (σ := σ) P (pure x) (pure x) := asks_ofExcept (.ok x)

theorem asks_fail (e : Failure) : Asks (σ := σ) (α := α) P (.fail e) (.fail e) := asks_ofExcept (.error e)

theorem asks_noting {a : Action σ α} {f : α → Answer} {o : Operation} (performs : o.perform = f <$> a) (h : P o) :
    Asks P (Noted.noting o a) a := by
  intro s
  refine ⟨[o], rfl, ?_, by simpa using h⟩
  show _ = (o.perform s.storage).2
  rw [performs, Action.map_apply]

theorem Asks.bind {a : Action (Noted σ) α} {b : Action σ α} {f : α → Action (Noted σ) β} {g : α → Action σ β}
    (h : Asks P a b) (hf : ∀ x, Asks P (f x) (g x)) : Asks P (a >>= f) (b >>= g) := by
  intro s
  obtain ⟨asked, ha, hb, hasked⟩ := h s
  rw [Action.bind_apply, Action.bind_apply, ha]
  cases hresult : b s.storage with
  | mk r t =>
    rw [hresult] at hb
    cases r with
    | error e => exact ⟨asked, rfl, hb, hasked⟩
    | ok x =>
      obtain ⟨more, hmore, hafter, hmem⟩ := hf x ⟨t, s.asked ++ asked⟩
      refine ⟨asked ++ more, ?_, ?_, List.forall_mem_append.mpr ⟨hasked, hmem⟩⟩
      · rw [← List.append_assoc]
        exact hmore
      · have ht : t = Operation.after s.storage asked := hb
        rw [Operation.after_append, ← ht]
        exact hafter

theorem asks_onTable (l : Logger) {f : LogTable → Action (Noted σ) α} {g : LogTable → Action σ α}
    (each : ∀ table, l.table = some table → Asks P (f table) (g table)) : Asks P (l.onTable f) (l.onTable g) := by
  unfold Logger.onTable
  cases htable : l.table with
  | none => exact asks_fail .tableNotSet
  | some table => exact each table htable

theorem asks_expect (table : LogTable) (id : RegisterId) {a : Action (Noted σ) Bool} {b : Action σ Bool}
    (h : Asks P a b) :
    Asks P (Logger.expect table id a) (Logger.expect table id b) :=
  h.bind fun found => by
    cases found with
    | true => exact asks_pure ()
    | false => exact asks_fail _

end Asks

/-! ### What each call asks for -/

namespace Logger

variable [Storage σ] {name : String} {e : Failure} {table : LogTable} {t : σ}

theorem turn_of_no_name (h : LogTable.ofName name = .error e) (l : Logger) (s : σ) :
    turn name (l, s) = (.error e, l, s) := by
  simp only [turn, h]

theorem turn_of_error (h : LogTable.ofName name = .ok table) (l : Logger) {s : σ}
    (hinit : Storage.init table s = (.error e, t)) : turn name (l, s) = (.error e, l, t) := by
  simp only [turn, h, hinit]

theorem turn_of_ok (h : LogTable.ofName name = .ok table) (l : Logger) {s : σ}
    (hinit : Storage.init table s = (.ok (), t)) : turn name (l, s) = (.ok (), ⟨some table⟩, t) := by
  simp only [turn, h, hinit]

theorem turn_ok {l l' : Logger} {s : σ} (h : turn name (l, s) = (.ok (), l', t)) :
    ∃ table, LogTable.ofName name = .ok table ∧ l' = ⟨some table⟩ := by
  cases hname : LogTable.ofName name with
  | error e =>
    rw [turn_of_no_name hname] at h
    cases h
  | ok table =>
    cases hinit : Storage.init table s with
    | mk r u =>
      cases r with
      | error e =>
        rw [turn_of_error hname l hinit] at h
        cases h
      | ok =>
        rw [turn_of_ok hname l hinit] at h
        cases h
        exact ⟨table, rfl, rfl⟩

end Logger

namespace LogCall

/-- The call may change the table of the logger. -/
def selects : LogCall → Bool
  | turn _ | select _ => true
  | _ => false

/-- A call asks for something on the table that it selects, or else on the one of the logger. -/
def Targets (l : Logger) (table : LogTable) : LogCall → Prop
  | turn name | select name => LogTable.ofName name = .ok table
  | _ => l.table = some table

/-- What a call may ask for on a table. -/
def Requests (table : LogTable) (o : Operation) : LogCall → Prop
  | turn _ => o = .init table
  | select _ => o = .init table ∨ o = .updateStatus table [.start] .interrupted ∨
    o = .updateStatus table [.onQueue] .notExecuted
  | start processId now => o = .insertRegister table processId .start now
  | result status date id now => o = .updateResult table id status date now
  | log type description id now => o = .insertMessage table id type (Logger.withoutNul description) now
  | addValue tag value id => o = .appendValue table id tag (Logger.withoutNul value)
  | setStart time id => o = .appendValue table id Logger.startTag (Logger.withoutNul time.millisText)
  | setEnd time id => o = .appendValue table id Logger.endTag (Logger.withoutNul time.millisText)
  | updateStatus old new => o = .updateStatus table old new
  | lastProcess processId => o = .maxLastProcess table processId
  | lastData processId => o = .maxData table processId
  | logs processId _ _ => (∃ offset limit, o = .registers table processId offset limit) ∨
      ∃ ids, o = .messages table ids

/-- What a call of a logger may ask for. -/
def MayAsk (c : LogCall) (l : Logger) (o : Operation) : Prop := ∃ table, c.Targets l table ∧ c.Requests table o

section

variable [Storage σ] (l : Logger) (s : Noted σ)

theorem turn_noted (name : String) : ∃ asked,
    Logger.turn name (l, s) = ((Logger.turn name (l, s.storage)).1, (Logger.turn name (l, s.storage)).2.1,
      ⟨(Logger.turn name (l, s.storage)).2.2, s.asked ++ asked⟩) ∧
    (Logger.turn name (l, s.storage)).2.2 = Operation.after s.storage asked ∧
    ∀ o ∈ asked, ∃ table, LogTable.ofName name = .ok table ∧ o = .init table := by
  cases hname : LogTable.ofName name with
  | error e =>
    rw [Logger.turn_of_no_name hname, Logger.turn_of_no_name hname]
    exact ⟨[], by simp, rfl, by simp⟩
  | ok table =>
    cases hinit : Storage.init table s.storage with
    | mk r t =>
      have hnoted : Storage.init table s = (r, ⟨t, s.asked ++ [.init table]⟩) := by
        show Noted.noting (.init table) (Storage.init table) s = _
        rw [Noted.noting, hinit]
      have hafter : t = Operation.after s.storage [.init table] := by
        show t = ((Operation.init table).perform s.storage).2
        rw [Operation.perform, Action.map_apply, hinit]
      cases r with
      | error e =>
        rw [Logger.turn_of_error hname l hinit, Logger.turn_of_error hname l hnoted]
        exact ⟨[.init table], rfl, hafter, by simp⟩
      | ok =>
        rw [Logger.turn_of_ok hname l hinit, Logger.turn_of_ok hname l hnoted]
        exact ⟨[.init table], rfl, hafter, by simp⟩

theorem asks_onTarget (c : LogCall) (hc : ∀ table, l.table = some table → c.Targets l table)
    {f : LogTable → Action (Noted σ) α}
    {g : LogTable → Action σ α} (each : ∀ table, Asks (c.Requests table) (f table) (g table)) :
    Asks (c.MayAsk l) (l.onTable f) (l.onTable g) :=
  asks_onTable l fun table htable => (each table).mono fun _ ho => ⟨table, hc table htable, ho⟩

theorem asks_updateStatus {P : Operation → Prop} (old : List Status) (new : Status)
    (h : ∀ table, l.table = some table → P (.updateStatus table old new)) :
    Asks (σ := σ) P (l.updateStatus old new) (l.updateStatus old new) :=
  asks_onTable l fun table htable => asks_noting rfl (h table htable)

theorem asks_repair {P : Operation → Prop}
    (hstart : ∀ table, l.table = some table → P (.updateStatus table [.start] .interrupted))
    (hqueue : ∀ table, l.table = some table → P (.updateStatus table [.onQueue] .notExecuted)) :
    Asks (σ := σ) P l.repair l.repair :=
  (asks_updateStatus l _ _ hstart).bind fun _ => (asks_updateStatus l _ _ hqueue).bind fun _ => asks_pure ()

theorem asks_start (processId : ProcessId) (now : Instant) :
    Asks (σ := σ) ((start processId now).MayAsk l) (l.start processId now) (l.start processId now) :=
  asks_onTarget l (start processId now) (fun _ h => h) fun _ => asks_noting rfl rfl

theorem asks_result (status : Status) (date : Option Instant) (id : RegisterId) (now : Instant) :
    Asks (σ := σ) ((result status date id now).MayAsk l) (l.result status date id now) (l.result status date id now) :=
  asks_onTarget l (result status date id now) (fun _ h => h) fun table => asks_expect table id (asks_noting rfl rfl)

theorem asks_log (type : MessageType) (description : String) (id : RegisterId) (now : Instant) :
    Asks (σ := σ) ((log type description id now).MayAsk l) (l.log type description id now)
      (l.log type description id now) :=
  asks_onTarget l (log type description id now) (fun _ h => h) fun table => asks_expect table id
    (Asks.bind (asks_noting (o := .insertMessage table id type (Logger.withoutNul description) now) rfl rfl) fun _ =>
      asks_pure _)

theorem asks_addValue (c : LogCall) (hc : ∀ table, l.table = some table → c.Targets l table) (tag value : String)
    (id : RegisterId)
    (h : ∀ table, c.Requests table (.appendValue table id tag (Logger.withoutNul value))) :
    Asks (σ := σ) (c.MayAsk l) (l.addValue tag value id) (l.addValue tag value id) :=
  asks_onTarget l c hc fun table => asks_expect table id (asks_noting rfl (h table))

theorem asks_lastProcess (processId : ProcessId) :
    Asks (σ := σ) ((lastProcess processId).MayAsk l) (l.lastProcess processId) (l.lastProcess processId) :=
  asks_onTarget l (lastProcess processId) (fun _ h => h) fun _ => asks_noting rfl rfl

theorem asks_lastData (processId : ProcessId) :
    Asks (σ := σ) ((lastData processId).MayAsk l) (l.lastData processId) (l.lastData processId) :=
  asks_onTarget l (lastData processId) (fun _ h => h) fun _ => asks_noting rfl rfl

theorem asks_logs (processId : ProcessId) (a b : Nat) :
    Asks (σ := σ) ((logs processId a b).MayAsk l) (l.logs processId a b) (l.logs processId a b) :=
  asks_onTarget l (logs processId a b) (fun _ h => h) fun _ => (asks_noting rfl (Or.inl ⟨_, _, rfl⟩)).bind fun _ =>
    (asks_noting rfl (Or.inr ⟨_, rfl⟩)).bind fun _ => asks_pure _

theorem select_noted (name : String) : ∃ asked,
    (select name).act l s = (((select name).act l s.storage).1,
      ⟨((select name).act l s.storage).2, s.asked ++ asked⟩) ∧
    ((select name).act l s.storage).2 = Operation.after s.storage asked ∧ ∀ o ∈ asked, (select name).MayAsk l o := by
  obtain ⟨asked, hturn, hafter, hasked⟩ := turn_noted l s name
  have hinit : ∀ o ∈ asked, (select name).MayAsk l o := by
    intro o ho
    obtain ⟨table, htable, rfl⟩ := hasked o ho
    exact ⟨table, htable, Or.inl rfl⟩
  simp only [act, Logger.select_apply, hturn]
  cases hresult : Logger.turn name (l, s.storage) with
  | mk r rest =>
    obtain ⟨l', t⟩ := rest
    rw [hresult] at hafter
    cases r with
    | error e => exact ⟨asked, rfl, hafter, hinit⟩
    | ok =>
      obtain ⟨table, htable, rfl⟩ := Logger.turn_ok hresult
      obtain ⟨more, hrepair, hmore, hmem⟩ := asks_repair ⟨some table⟩ (P := (select name).MayAsk l)
        (fun _ h => ⟨table, htable, Or.inr (Or.inl (by rw [Option.some.inj h]))⟩)
        (fun _ h => ⟨table, htable, Or.inr (Or.inr (by rw [Option.some.inj h]))⟩) ⟨t, s.asked ++ asked⟩
      refine ⟨asked ++ more, ?_, ?_, List.forall_mem_append.mpr ⟨hinit, hmem⟩⟩
      · simp only [hrepair, List.append_assoc]
      · rw [Operation.after_append, ← hafter]
        exact hmore

theorem pair_act {P : Operation → Prop} {a : Action (Noted σ) α} {b : Action σ α} (h : Asks P a b) :
    ∃ asked, (l, (a s).2) = (l, (⟨(b s.storage).2, s.asked ++ asked⟩ : Noted σ)) ∧
      (b s.storage).2 = Operation.after s.storage asked ∧ ∀ o ∈ asked, P o := by
  obtain ⟨asked, ha, hb, hasked⟩ := h s
  exact ⟨asked, by rw [ha], hb, hasked⟩

/-- Noting makes no difference to a call, which does what it does by the operations that it asks for. -/
theorem act_noted (c : LogCall) : ∃ asked,
    c.act l s = ((c.act l s.storage).1, ⟨(c.act l s.storage).2, s.asked ++ asked⟩) ∧
    (c.act l s.storage).2 = Operation.after s.storage asked ∧ ∀ o ∈ asked, c.MayAsk l o := by
  cases c with
  | turn name =>
    obtain ⟨asked, hturn, hafter, hasked⟩ := turn_noted l s name
    simp only [act]
    refine ⟨asked, by rw [hturn], hafter, fun o ho => ?_⟩
    obtain ⟨table, htable, rfl⟩ := hasked o ho
    exact ⟨table, htable, rfl⟩
  | select name => exact select_noted l s name
  | start processId now => exact pair_act l s (asks_start l processId now)
  | result status date id now => exact pair_act l s (asks_result l status date id now)
  | log type description id now => exact pair_act l s (asks_log l type description id now)
  | addValue tag value id =>
    exact pair_act l s (asks_addValue l (addValue tag value id) (fun _ h => h) tag value id fun _ => rfl)
  | setStart time id => exact pair_act l s (asks_addValue l (setStart time id) (fun _ h => h) _ _ id fun _ => rfl)
  | setEnd time id => exact pair_act l s (asks_addValue l (setEnd time id) (fun _ h => h) _ _ id fun _ => rfl)
  | updateStatus old new => exact pair_act l s (asks_updateStatus l old new fun table h => ⟨table, h, rfl⟩)
  | lastProcess processId => exact pair_act l s (asks_lastProcess l processId)
  | lastData processId => exact pair_act l s (asks_lastData l processId)
  | logs processId a b => exact pair_act l s (asks_logs l processId a b)

end

end LogCall

end ProcessRuns
