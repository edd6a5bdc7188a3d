import ProcessRuns.Proofs.Sql.Lexemes
import ProcessRuns.Proofs.Sql.Pages

/-! # Texts and parameters

The text of a statement is made of the names of the tables and the number of listed values; whatever else a call to the
storage is given is bound to the placeholders. Two calls of one kind therefore send the same texts for as long as they
get the same replies. -/

namespace ProcessRuns

namespace Operation

/-- The call that an operation makes. -/
def call : Operation → StorageCall
  | init .. => .init
  | insertRegister .. => .insertRegister
  | updateResult .. => .updateResult
  | insertMessage .. => .insertMessage
  | appendValue .. => .appendValue
  | maxLastProcess .. => .maxLastProcess
  | maxData .. => .maxData
  | registers .. => .registers
  | messages .. => .messages
  | updateStatus .. => .updateStatus

/-- The number of ids or statuses in the list of a call. -/
def count : Operation → Nat
  | messages _ ids => ids.length
  | updateStatus _ old _ => old.length
  | _ => 0

/-- The ids of processes and registers that a call is given. -/
def ids : Operation → List Nat
  | insertRegister _ id .. | updateResult _ id .. | insertMessage _ id .. | appendValue _ id .. | maxLastProcess _ id
  | maxData _ id | registers _ id .. => [id]
  | messages _ ids => ids
  | init .. | updateStatus .. => []

/-- The call of a kind that is given nothing else than a table and a number of listed values. -/
def ofShape (call : StorageCall) (table : LogTable) (count : Nat) : Operation :=
  match call with
  | .init => init table
  | .insertRegister => insertRegister table 0 .start .epoch
  | .updateResult => updateResult table 0 .start none .epoch
  | .insertMessage => insertMessage table 0 .info "" .epoch
  | .appendValue => appendValue table 0 "" ""
  | .maxLastProcess => maxLastProcess table 0
  | .maxData => maxData table 0
  | .registers => registers table 0 0 0
  | .messages => messages table (List.replicate count 0)
  | .updateStatus => updateStatus table (List.replicate count .start) .start

end Operation

namespace Sql

open Session

/-- The text that is sent. -/
def Sent.text : Sent → String
  | begin => "BEGIN"
  | commit => "COMMIT"
  | statement s => s.text

variable {α β : Type}

/-! ### The statements that an action sends -/

/-- Whatever statements an action sends are among some. -/
def Sends (statements : List Statement) (a : Action Session α) : Prop :=
  ∀ s, ∃ more, (a s).2.sent = s.sent ++ more ∧ ∀ x, .statement x ∈ more → x ∈ statements

section Sends

variable {statements others : List Statement} {a : Action Session α}

theorem Sends.mono (h : Sends statements a) (hsub : ∀ x ∈ statements, x ∈ others) : Sends others a := by
  intro s
  obtain ⟨more, hsent, hmore⟩ := h s
  exact ⟨more, hsent, fun x hx => hsub x (hmore x hx)⟩

theorem sends_of_snd (h : ∀ s, (a s).2 = s) : Sends statements a := fun s => ⟨[], by simp [h], by simp⟩

theorem sends_ofExcept (x : Except Failure α) : Sends statements (.ofExcept x) := sends_of_snd fun _ => rfl

theorem Sends.bind {f : α → Action Session β} (ha : Sends statements a) (hf : ∀ x, Sends statements (f x)) :
    Sends statements (a >>= f) := by
  intro s
  obtain ⟨more, hsent, hmore⟩ := ha s
  rw [Action.bind_apply]
  cases h : a s with
  | mk r s₁ =>
    rw [h] at hsent
    cases r with
    | error e => exact ⟨more, hsent, hmore⟩
    | ok x =>
      obtain ⟨rest, hrest, hmem⟩ := hf x s₁
      refine ⟨more ++ rest, by rw [hrest, hsent, List.append_assoc], fun y hy => ?_⟩
      exact (List.mem_append.mp hy).elim (hmore y) (hmem y)

theorem Sends.map (f : α → β) (ha : Sends statements a) : Sends statements (f <$> a) := by
  intro s
  rw [Action.map_apply]
  exact ha s

theorem sends_note {x : Sent} (h : ∀ y, x ≠ .statement y) : Sends statements (note x) := fun _ =>
  ⟨[x], rfl, fun y hy => absurd (List.mem_singleton.mp hy).symm (h y)⟩

theorem sends_send (statement : Statement) : Sends [statement] (send statement) := fun s =>
  ⟨[.statement statement], rfl, by simp⟩

theorem sends_execute (statement : Statement) : Sends [statement] (execute statement) :=
  (sends_send statement).bind fun reply => sends_of_snd fun _ => by cases reply <;> rfl

theorem sends_fetch (statement : Statement) : Sends [statement] (fetch statement) :=
  (sends_send statement).bind fun reply => sends_of_snd fun _ => by cases reply <;> rfl

theorem sends_fetchOne (statement : Statement) : Sends [statement] (fetchOne statement) :=
  (sends_fetch statement).bind fun rows => sends_of_snd fun _ => by cases rows <;> rfl

theorem sends_insertedId (statement : Statement) : Sends [statement] (insertedId statement) :=
  (sends_fetchOne statement).bind fun _ => sends_ofExcept _

theorem sends_executeAll (statements : List Statement) : Sends statements (executeAll statements) := by
  induction statements with
  | nil => exact sends_of_snd fun _ => rfl
  | cons statement statements ih =>
    refine ((sends_execute statement).mono ?_).bind fun _ => ih.mono ?_
    · simp
    · exact fun x => List.mem_cons_of_mem statement

theorem sends_transaction (statements : List Statement) : Sends statements (transaction statements) :=
  (sends_note (by simp)).bind fun _ => (sends_executeAll statements).bind fun _ => sends_note (by simp)

theorem sends_toColumn {id : Nat} {f : Int → Action Session α} (h : Sends statements (f id)) :
    Sends statements (Action.ofExcept (toColumn id) >>= f) := by
  unfold toColumn
  split
  · exact h
  · exact sends_of_snd fun _ => rfl

end Sends

/-- What a call may send to a server, in the order in which it is sent. -/
def statementsOf : Operation → List Statement
  | .init t => createAll t
  | .insertRegister t processId status now =>
    [⟨insertRegister t, [.int processId, .int status.code, .ofInstant now, .ofInstant now]⟩]
  | .updateResult t id status date now =>
    [⟨updateResult t, [.int status.code, .ofInstant? date, .ofInstant now, .int id]⟩]
  | .insertMessage t id type description now =>
    [⟨countRegister t, [.int id]⟩, ⟨insertMessage t, [.int id, .int type.code, .text description, .ofInstant now]⟩]
  | .appendValue t id tag value => [⟨appendValue t, [.text tag, .text value, .int id]⟩]
  | .maxLastProcess t processId => [⟨latest t "last_process_timestamp", [.int processId]⟩]
  | .maxData t processId => [⟨latest t "data_timestamp", [.int processId]⟩]
  | .registers t processId offset limit => [pageStatement t processId offset limit]
  | .messages t ids => [messagesStatement t ids]
  | .updateStatus t old new => [⟨updateStatus t old.length, .int new.code :: old.map fun s => .int s.code⟩]

theorem sends_latestInstant (t : LogTable) (column : String) (processId : ProcessId) :
    Sends [⟨latest t column, [.int processId]⟩] (latestInstant t column processId) :=
  sends_toColumn ((sends_fetchOne _).bind fun _ => sends_of_snd fun _ => rfl)

theorem sends_registerExists (t : LogTable) (id : RegisterId) :
    Sends [⟨countRegister t, [.int id]⟩] (registerExists t id) :=
  sends_toColumn ((sends_fetchOne _).bind fun _ => (sends_ofExcept _).bind fun _ => sends_of_snd fun _ => rfl)

theorem columns_of_mapM {ids : List Nat} {columns : List Int} (h : ids.mapM toColumn = .ok columns) :
    columns = ids.map fun id : Nat => (id : Int) := by
  induction ids generalizing columns with
  | nil => exact (Except.ok.inj h).symm
  | cons id ids ih =>
    rw [List.mapM_cons, toColumn] at h
    split at h
    · cases hrest : ids.mapM toColumn with
      | error e =>
        rw [hrest] at h
        cases h
      | ok rest =>
        rw [hrest] at h
        cases h
        rw [ih hrest, List.map_cons]
    · cases h

theorem sends_messages (t : LogTable) (ids : List RegisterId) :
    Sends [messagesStatement t ids] (Storage.messages t ids : Action Session (List LogMessage)) := by
  by_cases hne : ids = []
  · exact sends_of_snd fun _ => by simp [hne, Storage.messages]
  · simp only [Storage.messages, List.isEmpty_iff, if_neg hne]
    cases hcolumns : ids.mapM toColumn with
    | error e => exact sends_of_snd fun _ => rfl
    | ok columns =>
      have hstatement : messagesStatement t ids = ⟨messagesOf t columns.length, columns.map .int⟩ := by
        rw [columns_of_mapM hcolumns, messagesStatement, List.length_map, List.map_map]
        rfl
      rw [hstatement]
      exact (sends_fetch _).bind fun _ => sends_ofExcept _

theorem sends_perform (o : Operation) : Sends (statementsOf o) (o.perform : Action Session Answer) := by
  cases o with
  | init t => exact (sends_transaction _).map _
  | insertRegister t processId status now => exact (sends_toColumn (sends_insertedId _)).map _
  | updateResult t id status date now =>
    exact (sends_toColumn ((sends_execute _).bind fun _ => sends_of_snd fun _ => rfl)).map _
  | insertMessage t id type description now =>
    refine (((sends_registerExists t id).mono ?_).bind fun found => ?_).map _
    · simp [statementsOf]
    · cases found with
      | false => exact sends_of_snd fun _ => rfl
      | true =>
        refine sends_toColumn (((sends_insertedId _).mono ?_).bind fun _ => sends_of_snd fun _ => rfl)
        simp [statementsOf]
  | appendValue t id tag value =>
    exact (sends_toColumn ((sends_execute _).bind fun _ => sends_of_snd fun _ => rfl)).map _
  | maxLastProcess t processId => exact (sends_latestInstant _ _ _).map _
  | maxData t processId => exact (sends_latestInstant _ _ _).map _
  | registers t processId offset limit =>
    exact (sends_toColumn ((sends_fetch _).bind fun _ => sends_ofExcept _)).map _
  | messages t ids => exact (sends_messages t ids).map _
  | updateStatus t old new =>
    refine Sends.map _ ?_
    by_cases hne : old = []
    · exact sends_of_snd fun _ => by simp [hne, Storage.updateStatus]
    · simp only [Storage.updateStatus, List.isEmpty_iff, if_neg hne]
      exact sends_execute _

theorem closed_of_mem_statementsOf (o : Operation) : ∀ x ∈ statementsOf o, x.Closed := by
  intro x hx
  apply Statement.closed_of_bound
  cases o with
  | init t => exact bound_createAll t x hx
  | insertRegister t =>
    rw [List.mem_singleton.mp hx]
    exact bound_insertRegister t
  | updateResult t =>
    rw [List.mem_singleton.mp hx]
    exact bound_updateResult t
  | insertMessage t =>
    rcases List.mem_pair.mp hx with rfl | rfl
    · exact bound_countRegister t
    · exact bound_insertMessage t
  | appendValue t =>
    rw [List.mem_singleton.mp hx]
    exact bound_appendValue t
  | maxLastProcess t =>
    rw [List.mem_singleton.mp hx]
    exact bound_latest t (by decide)
  | maxData t =>
    rw [List.mem_singleton.mp hx]
    exact bound_latest t (by decide)
  | registers t =>
    rw [List.mem_singleton.mp hx]
    exact bound_page t
  | messages t ids =>
    rw [List.mem_singleton.mp hx, messagesStatement, List.length_map]
    exact bound_messagesOf t ids.length
  | updateStatus t old new =>
    rw [List.mem_singleton.mp hx, List.length_cons, List.length_map]
    exact bound_updateStatus t old.length

/-! ### Actions that send the same texts -/

/-- For as long as the replies are the same, two actions send the same texts, and end the same way. -/
def Alike (a b : Action Session α) : Prop :=
  ∀ s s' : Session, s.replies = s'.replies → ∃ more more', (a s).2.sent = s.sent ++ more ∧
    (b s').2.sent = s'.sent ++ more' ∧ more.map Sent.text = more'.map Sent.text ∧
    (a s).1 = (b s').1 ∧ (a s).2.replies = (b s').2.replies

section Alike

variable {a b c : Action Session α} {pieces : List Piece} {params params' : List Param}

theorem Alike.symm (h : Alike a b) : Alike b a := by
  intro s s' hreplies
  obtain ⟨more, more', ha, hb, htext, hresult, hrest⟩ := h s' s hreplies.symm
  exact ⟨more', more, hb, ha, htext.symm, hresult.symm, hrest.symm⟩

theorem Alike.trans (h : Alike a b) (h' : Alike b c) : Alike a c := by
  intro s s' hreplies
  obtain ⟨more, more', ha, hb, htext, hresult, hrest⟩ := h s s' hreplies
  obtain ⟨more'', rest, hb', hc, htext', hresult', hrest'⟩ := h' s' s' rfl
  rw [hb, List.append_cancel_left_eq] at hb'
  exact ⟨more, rest, ha, hc, htext.trans (hb' ▸ htext'), hresult.trans hresult', hrest.trans hrest'⟩

theorem Alike.bind {f g : α → Action Session β} (h : Alike a b) (hf : ∀ x, Alike (f x) (g x)) :
    Alike (a >>= f) (b >>= g) := by
  intro s s' hreplies
  obtain ⟨more, more', ha, hb, htext, hresult, hrest⟩ := h s s' hreplies
  rw [Action.bind_apply, Action.bind_apply]
  cases hs : a s with
  | mk r s₁ =>
    cases hs' : b s' with
    | mk r' s₁' =>
      rw [hs] at ha hresult hrest
      rw [hs'] at hb hresult hrest
      cases hresult
      cases r with
      | error e => exact ⟨more, more', ha, hb, htext, rfl, hrest⟩
      | ok x =>
        obtain ⟨next, next', ha', hb', htext', hend⟩ := hf x s₁ s₁' hrest
        refine ⟨more ++ next, more' ++ next', ?_, ?_, ?_, hend⟩
        · rw [ha', ha, List.append_assoc]
        · rw [hb', hb, List.append_assoc]
        · rw [List.map_append, List.map_append, htext, htext']

theorem Alike.map (f : α → β) (h : Alike a b) : Alike (f <$> a) (f <$> b) := by
  intro s s' hreplies
  obtain ⟨more, more', ha, hb, htext, hresult, hrest⟩ := h s s' hreplies
  simp only [Action.map_apply]
  exact ⟨more, more', ha, hb, htext, congrArg _ hresult, hrest⟩

theorem alike_ofExcept (x : Except Failure α) : Alike (.ofExcept x) (.ofExcept x) := fun _ _ hreplies =>
  ⟨[], [], (List.append_nil _).symm, (List.append_nil _).symm, rfl, rfl, hreplies⟩

theorem alike_pure (x : α) : Alike (pure x) (pure x) := alike_ofExcept (.ok x)

theorem alike_fail (e : Failure) : Alike (.fail e : Action Session α) (.fail e) := alike_ofExcept (.error e)

theorem alike_note (x : Sent) : Alike (note x) (note x) := fun _ _ hreplies => ⟨[x], [x], rfl, rfl, rfl, rfl, hreplies⟩

theorem alike_send : Alike (send ⟨pieces, params⟩) (send ⟨pieces, params'⟩) := by
  intro s s' hreplies
  refine ⟨[.statement ⟨pieces, params⟩], [.statement ⟨pieces, params'⟩], rfl, rfl, rfl, ?_, ?_⟩
  · rw [send, send, hreplies]
  · exact congrArg List.tail hreplies

theorem alike_execute : Alike (execute ⟨pieces, params⟩) (execute ⟨pieces, params'⟩) :=
  alike_send.bind fun reply => match reply with
    | .affected count => alike_pure count
    | .rows _ => alike_pure 0
    | .error text => alike_fail (.database text)

theorem alike_fetch : Alike (fetch ⟨pieces, params⟩) (fetch ⟨pieces, params'⟩) :=
  alike_send.bind fun reply => match reply with
    | .rows rows => alike_pure rows
    | .affected _ => alike_pure []
    | .error text => alike_fail (.database text)

theorem alike_fetchOne : Alike (fetchOne ⟨pieces, params⟩) (fetchOne ⟨pieces, params'⟩) :=
  alike_fetch.bind fun rows => match rows with
    | row :: _ => alike_pure row
    | [] => alike_fail .noRow

theorem alike_insertedId : Alike (insertedId ⟨pieces, params⟩) (insertedId ⟨pieces, params'⟩) :=
  alike_fetchOne.bind fun row => alike_ofExcept (readOnlyId row)

theorem alike_executeAll (statements : List Statement) : Alike (executeAll statements) (executeAll statements) := by
  induction statements with
  | nil => exact alike_pure ()
  | cons statement statements ih => exact alike_execute.bind fun _ => ih

theorem alike_transaction (statements : List Statement) : Alike (transaction statements) (transaction statements) :=
  (alike_note _).bind fun _ => (alike_executeAll statements).bind fun _ => alike_note _

theorem alike_toColumn {id id' : Nat} (hid : id ≤ idMax) (hid' : id' ≤ idMax) {f g : Int → Action Session α}
    (h : Alike (f id) (g id')) : Alike (Action.ofExcept (toColumn id) >>= f)
    (Action.ofExcept (toColumn id') >>= g) := by
  rw [toColumn, if_pos hid, toColumn, if_pos hid']
  exact h

end Alike

theorem alike_latestInstant (t : LogTable) (column : String) {id id' : ProcessId} (hid : id ≤ idMax)
    (hid' : id' ≤ idMax) :
    Alike (latestInstant t column id) (latestInstant t column id') :=
  alike_toColumn hid hid' (alike_fetchOne.bind fun _ => alike_pure _)

theorem alike_registerExists (t : LogTable) {id id' : RegisterId} (hid : id ≤ idMax) (hid' : id' ≤ idMax) :
    Alike (registerExists t id) (registerExists t id') :=
  alike_toColumn hid hid' (alike_fetchOne.bind fun _ => (alike_ofExcept _).bind fun _ => alike_pure _)

theorem alike_messages (t : LogTable) {ids ids' : List RegisterId} (hids : ∀ id ∈ ids, id ≤ idMax)
    (hids' : ∀ id ∈ ids', id ≤ idMax) (hlength : ids.length = ids'.length) :
    Alike (Storage.messages t ids : Action Session (List LogMessage)) (Storage.messages t ids') := by
  by_cases hne : ids = []
  · rw [hne, List.length_nil, eq_comm, List.length_eq_zero_iff] at hlength
    rw [hne, hlength]
    exact alike_pure []
  · have hne' : ids' ≠ [] := fun h => hne (List.length_eq_zero_iff.mp (by rw [hlength, h]; rfl))
    rw [messages_eq hids hne, messages_eq hids' hne', messagesStatement, messagesStatement, hlength]
    exact alike_fetch.bind fun _ => alike_ofExcept _

theorem alike_updateStatus (t : LogTable) {old old' : List Status} (new new' : Status)
    (hlength : old.length = old'.length) :
    Alike (Storage.updateStatus t old new : Action Session Nat) (Storage.updateStatus t old' new') := by
  by_cases hne : old = []
  · rw [hne, List.length_nil, eq_comm, List.length_eq_zero_iff] at hlength
    rw [hne, hlength]
    exact alike_pure 0
  · have hne' : old' ≠ [] := fun h => hne (List.length_eq_zero_iff.mp (by rw [hlength, h]; rfl))
    simp only [Storage.updateStatus, List.isEmpty_iff, if_neg hne, if_neg hne', hlength]
    exact alike_execute

/-- Whatever a call is given beside its table and the number of listed values makes no difference to the texts. -/
theorem alike_ofShape (o : Operation) (hids : ∀ id ∈ o.ids, id ≤ idMax) :
    Alike (o.perform : Action Session Answer) (Operation.ofShape o.call o.table o.count).perform := by
  have hzero : 0 ≤ idMax := Nat.zero_le _
  cases o with
  | init t => exact (alike_transaction _).map _
  | insertRegister t processId status now =>
    exact (alike_toColumn (hids processId List.mem_cons_self) hzero alike_insertedId).map _
  | updateResult t id status date now =>
    exact (alike_toColumn (hids id List.mem_cons_self) hzero (alike_execute.bind fun _ => alike_pure _)).map _
  | insertMessage t id type description now =>
    have hid := hids id List.mem_cons_self
    refine ((alike_registerExists t hid hzero).bind fun found => ?_).map _
    cases found with
    | false => exact alike_pure none
    | true => exact alike_toColumn hid hzero (alike_insertedId.bind fun _ => alike_pure _)
  | appendValue t id tag value =>
    exact (alike_toColumn (hids id List.mem_cons_self) hzero (alike_execute.bind fun _ => alike_pure _)).map _
  | maxLastProcess t processId => exact (alike_latestInstant t _ (hids processId List.mem_cons_self) hzero).map _
  | maxData t processId => exact (alike_latestInstant t _ (hids processId List.mem_cons_self) hzero).map _
  | registers t processId offset limit =>
    exact (alike_toColumn (hids processId List.mem_cons_self) hzero (alike_fetch.bind fun _ => alike_ofExcept _)).map _
  | messages t ids =>
    exact (alike_messages t hids (by simp) (List.length_replicate ..).symm).map _
  | updateStatus t old new => exact (alike_updateStatus t _ _ (List.length_replicate ..).symm).map _

/-- Calls of one kind, on one table and with lists of one length, send the same texts for as long as the replies are the
same and the ids fit their columns, whatever else they are given. In every statement that is sent the placeholders are
those of its parameters, and the quoted identifiers are plain names. -/
theorem texts_of_shape (o : Operation) (s : Session) : ∃ sent, (o.perform s).2.sent = s.sent ++ sent ∧
    (∀ x, .statement x ∈ sent → x.Closed) ∧
    ∀ (o' : Operation) (s' : Session), o'.call = o.call → o'.table = o.table → o'.count = o.count →
      (∀ id ∈ o.ids, id ≤ idMax) → (∀ id ∈ o'.ids, id ≤ idMax) → s'.replies = s.replies →
      ∃ sent', (o'.perform s').2.sent = s'.sent ++ sent' ∧ sent'.map Sent.text = sent.map Sent.text := by
  obtain ⟨sent, hsent, hmem⟩ := sends_perform o s
  refine ⟨sent, hsent, fun x hx => closed_of_mem_statementsOf o x (hmem x hx), ?_⟩
  intro o' s' hcall htable hcount hids hids' hreplies
  have halike := alike_ofShape o' hids'
  rw [hcall, htable, hcount] at halike
  obtain ⟨sent', more, hsent', hmore, htext, -⟩ := (halike.trans (alike_ofShape o hids).symm) s' s hreplies
  rw [hsent, List.append_cancel_left_eq] at hmore
  exact ⟨sent', hsent', by rw [htext, hmore]⟩

/-- An id, a tag and a value that are made to break out of a statement stay outside of its text. -/
theorem texts_of_shape_of_injection :
    let table : LogTable := ⟨"log", by decide⟩
    let o : Operation := .appendValue table 1 "tag" "value"
    let o' : Operation := .appendValue table 2147483647 "\"); DROP TABLE log; --" "$9"
    let s : Session := ⟨[.affected 1], []⟩
    (o'.perform s).2.sent.map Sent.text = (o.perform s).2.sent.map Sent.text ∧
      (o'.perform s).2.sent ≠ (o.perform s).2.sent := by
  intro table o o' s
  obtain ⟨sent, hsent, -, hall⟩ := texts_of_shape o s
  obtain ⟨sent', hsent', htext⟩ := hall o' s rfl rfl rfl (by decide) (by decide) rfl
  exact ⟨by rw [hsent, hsent', List.map_append, List.map_append, htext], by decide⟩

end Sql

end ProcessRuns
