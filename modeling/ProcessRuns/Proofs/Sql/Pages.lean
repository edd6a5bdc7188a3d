import ProcessRuns.Proofs.Log.Pages
import ProcessRuns.Sql.Log

/-! # Pages of a log on a server

A server that holds the rows of a table in memory answers the two statements that a log sends for a page. What the log
makes of these answers is the page of the table in memory. -/

namespace ProcessRuns

/-! ### Dates of a server -/

namespace Instant

/-- A whole number of microseconds, and no leap second. -/
def WholeMicros (a : Instant) : Prop := a.nanos < nanosPerSecond ∧ a.nanos % 1000 = 0

instance (a : Instant) : Decidable a.WholeMicros := by unfold WholeMicros; infer_instance

theorem of?_self (a : Instant) : of? a.seconds a.nanos = some a := dif_pos a.representable

/-- A server's timestamp for an instant is read back as the same. -/
theorem WholeMicros.instantOf? {a : Instant} (h : a.WholeMicros) : Sql.instantOf? (Sql.microsOf a) = some a := by
  obtain ⟨hday, hmicros⟩ := h
  have hnanos : (a.nanos : Int) = 1000 * (a.nanos / 1000 : Nat) := by omega
  have hwhole : Sql.microsOf a = (a.seconds - Sql.epoch) * 1000000 + (a.nanos / 1000 : Nat) := by
    have hsplit : (a.seconds - Sql.epoch) * 1000000000 + (a.nanos : Int) =
        1000 * ((a.seconds - Sql.epoch) * 1000000 + (a.nanos / 1000 : Nat)) := by omega
    rw [Sql.microsOf, hsplit, Int.mul_tdiv_cancel_left _ (by decide)]
  have hlt : a.nanos / 1000 < 1000000 := by
    unfold nanosPerSecond at hday
    omega
  have hseconds : Sql.epoch + Sql.microsOf a / 1000000 = a.seconds := by omega
  have hrest : (Sql.microsOf a % 1000000).toNat * 1000 = a.nanos := by omega
  rw [Sql.instantOf?, hseconds, hrest, of?_self]

end Instant

namespace Sql

/-! ### Rows of a server -/

/-- The cell of a date. -/
def timestampOf (a : Instant) : Cell := .timestamp (microsOf a)

/-- What a server has in a column for a register. -/
def registerCell (r : Register) : String → Cell
  | "id" => .int r.id
  | "process_id" => .int r.processId
  | "status" => .int r.status.code
  | "start_timestamp" => timestampOf r.start
  | "data_timestamp" => (r.dataTimestamp.map timestampOf).getD .null
  | "last_process_timestamp" => timestampOf r.lastProcess
  | "data" => (r.data.map Cell.text).getD .null
  | _ => .null

/-- The cell of a message in a column. -/
def messageCell (m : LogMessage) : String → Cell
  | "id" => .int m.id
  | "log_id" => .int m.registerId
  | "type" => .int m.type.code
  | "description" => .text m.description
  | "timestamp" => timestampOf m.timestamp
  | _ => .null

theorem readId_column (column : String) (id : Nat) : readId column (some (.int id)) = .ok id := by
  simp [readId, readInt, ofColumn, bind, Except.bind]

theorem readInstant_column {a : Instant} (h : a.WholeMicros) (column : String) :
    readInstant column (some (timestampOf a)) = .ok a := by
  simp [readInstant, readInstant?, timestampOf, h.instantOf?]

theorem readInstant?_column {a : Option Instant} (h : ∀ b ∈ a, b.WholeMicros) :
    readInstant? (some ((a.map timestampOf).getD .null)) = a := by
  cases a with
  | none => rfl
  | some b => simp [readInstant?, timestampOf, (h b rfl).instantOf?]

theorem readText?_column (text : Option String) : readText? (some ((text.map Cell.text).getD .null)) = text := by
  cases text <;> rfl

theorem readRegister_row {r : Register} (start : r.start.WholeMicros) (data : ∀ a ∈ r.dataTimestamp, a.WholeMicros)
    (last : r.lastProcess.WholeMicros) : readRegister (registerColumns.map (registerCell r)) = .ok r := by
  have hrow : registerColumns.map (registerCell r) = [.int r.id, .int r.processId, .int r.status.code,
      timestampOf r.start, (r.dataTimestamp.map timestampOf).getD .null, timestampOf r.lastProcess,
      (r.data.map Cell.text).getD .null] := rfl
  simp only [readRegister, hrow, List.getElem?_cons_zero, List.getElem?_cons_succ, readId_column, readInt,
    readInstant_column start, readInstant_column last, readInstant?_column data, readText?_column, bind, Except.bind,
    Status.ofCode_code, pure, Except.pure]

theorem readMessage_row {m : LogMessage} (h : m.timestamp.WholeMicros) :
    readMessage (messageColumns.map (messageCell m)) = .ok m := by
  have hrow : messageColumns.map (messageCell m) =
      [.int m.id, .int m.registerId, .int m.type.code, .text m.description, timestampOf m.timestamp] := rfl
  simp only [readMessage, hrow, List.getElem?_cons_zero, List.getElem?_cons_succ, readId_column, readInt,
    readInstant_column h, readText?, Option.getD_some, bind, Except.bind, MessageType.ofCode_code, pure, Except.pure]

/-! ### What a server selects -/

/-- The registers of a process, newest first: so many of them after an offset. -/
def selectPage (t : MemoryTable) (processId limit offset : Int) : List Register :=
  (((t.registers.filter fun r => (r.processId : Int) = processId).insertionSort fun a b => b.id ≤ a.id).drop
    offset.toNat).take limit.toNat

/-- The messages of the registers that are listed, oldest first. -/
def selectMessages (t : MemoryTable) (ids : List Param) : List LogMessage :=
  (t.messages.filter fun m => .int m.registerId ∈ ids).insertionSort fun a b => a.id ≤ b.id

/-- The answer of a server that holds the rows of a table to one of the statements for a page. -/
def answer? (table : LogTable) (t : MemoryTable) (s : Statement) : Option Reply :=
  if s.pieces = page table then
    match s.params with
    | [.int processId, .int limit, .int offset] =>
      some (.rows ((selectPage t processId limit offset).map fun r => registerColumns.map (registerCell r)))
    | _ => none
  else if s.pieces = messagesOf table s.params.length then
    some (.rows ((selectMessages t s.params).map fun m => messageColumns.map (messageCell m)))
  else none

/-- The rows fit the columns of a server. -/
structure Fits (t : MemoryTable) : Prop where
  registers : ∀ r ∈ t.registers, r.id ≤ idMax ∧ r.processId ≤ idMax ∧ r.start.WholeMicros ∧
    (∀ a ∈ r.dataTimestamp, a.WholeMicros) ∧ r.lastProcess.WholeMicros
  messages : ∀ m ∈ t.messages, m.id ≤ idMax ∧ m.timestamp.WholeMicros

theorem toNat_pageBound (n : Nat) : (pageBound n).toNat = min n pageMax := by
  unfold pageBound
  omega

variable {t : MemoryTable}

/-- A page holds no more registers than a statement's bounds allow for. -/
theorem selectPage_eq (hids : t.Numbered) (hfits : Fits t) (pid : ProcessId) (offset limit : Nat) :
    selectPage t pid (pageBound limit) (pageBound offset) = t.page pid offset limit := by
  have hcount : t.registers.length ≤ pageMax := by
    by_contra hlarge
    have hlast : t.lastRegister ∈ t.registers.map (·.id) := by
      have hlength := hids.length
      rw [hids, List.mem_range'_1]
      omega
    obtain ⟨r, hr, hid⟩ := List.mem_map.mp hlast
    have hmax : t.registers.length ≤ idMax := (hids.length.trans hid.symm).trans_le (hfits.registers r hr).1
    exact hlarge (hmax.trans (by decide))
  have hfilter : (t.registers.filter fun r => (r.processId : Int) = pid) = t.ofProcess pid := by
    simp only [MemoryTable.ofProcess, Int.natCast_inj]
  have hshort : (t.ofProcess pid).reverse.length ≤ pageMax := by
    rw [List.length_reverse]
    exact (List.length_filter_le _ _).trans hcount
  have hsort : ((t.ofProcess pid).insertionSort fun a b => b.id ≤ a.id) = (t.ofProcess pid).reverse :=
    insertionSort_newest Register.id ((ascending hids).filter _)
  rw [selectPage, MemoryTable.page, hfilter, hsort, toNat_pageBound, toNat_pageBound]
  by_cases hoffset : offset ≤ pageMax
  · rw [Nat.min_eq_left hoffset]
    by_cases hlimit : limit ≤ pageMax
    · rw [Nat.min_eq_left hlimit]
    · rw [List.take_of_length_le, List.take_of_length_le] <;> rw [List.length_drop] <;> omega
  · have hbeyond : (t.ofProcess pid).reverse.length ≤ offset := by omega
    rw [List.drop_eq_nil_of_le (Nat.le_min.mpr ⟨hbeyond, hshort⟩), List.drop_eq_nil_of_le hbeyond, List.take_nil,
      List.take_nil]

theorem selectMessages_eq (hids : t.messages.map (·.id) = List.range' 1 t.lastMessage) (ids : List RegisterId) :
    selectMessages t (ids.map fun id : Nat => .int id) = t.messagesOf ids := by
  have hfilter : (t.messages.filter fun m => Param.int m.registerId ∈ ids.map fun id : Nat => Param.int id) =
      t.messagesOf ids := by
    refine List.filter_congr fun m _ => decide_eq_decide.mpr ⟨fun hm => ?_, fun hm => List.mem_map_of_mem hm⟩
    obtain ⟨id, hid, heq⟩ := List.mem_map.mp hm
    rw [Param.int.injEq, Int.natCast_inj] at heq
    exact heq ▸ hid
  rw [selectMessages, hfilter]
  exact (((ascending hids).filter _).imp Nat.le_of_lt).insertionSort_eq

/-! ### What is sent for a page and what comes back -/

variable {table : LogTable} {pid : ProcessId}

/-- Nothing but statements was sent between two states of a session, and the replies that were there for them are those
of a server that holds the rows of the table. -/
def Answered (table : LogTable) (t : MemoryTable) (s s' : Session) : Prop :=
  ∃ statements : List Statement, s'.sent = s.sent ++ statements.map Sent.statement ∧
    statements.map (answer? table t) <+: s.replies.map some

/-- The first statement of many has the first reply, and the rest of them the others. -/
theorem Answered.next {s s₁ s' : Session} {statement : Statement} (h : Answered table t s s')
    (hsent : s₁.sent = s.sent ++ [.statement statement]) (hreplies : s₁.replies = s.replies.tail)
    (hmore : s₁.sent <+: s'.sent) :
    (∃ reply, answer? table t statement = some reply ∧ s.replies = reply :: s₁.replies) ∧
    Answered table t s₁ s' := by
  obtain ⟨statements, hall, hprefix⟩ := h
  obtain ⟨more, hmore⟩ := hmore
  rw [hall, hsent, List.append_assoc, List.append_cancel_left_eq] at hmore
  cases statements with
  | nil => cases hmore
  | cons first rest =>
    obtain ⟨hfirst, -⟩ := List.cons.inj hmore
    cases hfirst
    cases hs : s.replies with
    | nil => simp [hs] at hprefix
    | cons reply replies =>
      simp only [hs, List.map_cons, List.cons_prefix_cons] at hprefix
      refine ⟨⟨reply, hprefix.1, by simp [hreplies, hs]⟩, rest, by simp [hall, hsent], ?_⟩
      simpa [hreplies, hs] using hprefix.2

theorem fetch_rows {s : Session} {rows : List (List Cell)} {replies : List Reply} (statement : Statement)
    (h : s.replies = .rows rows :: replies) :
    Session.fetch statement s = (.ok rows, ⟨replies, s.sent ++ [.statement statement]⟩) := by
  simp [Session.fetch, Session.send, Action.bind_apply, h]

theorem fetch_snd (statement : Statement) (s : Session) :
    (Session.fetch statement s).2 = ⟨s.replies.tail, s.sent ++ [.statement statement]⟩ := by
  refine Action.snd_of_pure fun reply s => ?_
  cases reply <;> rfl

theorem mapM_ok {α β ε : Type} {f : α → Except ε β} {g : α → β} {l : List α}
    (h : ∀ a ∈ l, f a = .ok (g a)) :
    l.mapM f = .ok (l.map g) := by
  induction l with
  | nil => rfl
  | cons a l ih =>
    rw [List.mapM_cons, h a List.mem_cons_self, ih fun b hb => h b (List.mem_cons_of_mem a hb)]
    rfl

theorem messagesOf_ne_page (table : LogTable) (count : Nat) : messagesOf table count ≠ page table := by
  intro h
  have hfirst : some (Piece.ident "log_id") = some (Piece.ident "process_id") := congrArg (·[3]?) h
  simp at hfirst

/-- The statement for a page of registers. -/
def pageStatement (table : LogTable) (pid : ProcessId) (offset limit : Nat) : Statement :=
  ⟨page table, [.int pid, .int (pageBound limit), .int (pageBound offset)]⟩

/-- The statement that asks for the messages of registers. -/
def messagesStatement (table : LogTable) (ids : List RegisterId) : Statement :=
  ⟨messagesOf table ids.length, ids.map fun id : Nat => .int id⟩

theorem answer?_page (table : LogTable) (hids : t.Numbered) (hfits : Fits t) (pid : ProcessId) (offset limit : Nat) :
    answer? table t (pageStatement table pid offset limit) =
      some (.rows ((t.page pid offset limit).map fun r => registerColumns.map (registerCell r))) := by
  simp only [answer?, pageStatement, if_true, selectPage_eq hids hfits]

theorem answer?_messages (hids : t.messages.map (·.id) = List.range' 1 t.lastMessage) (ids : List RegisterId) :
    answer? table t (messagesStatement table ids) =
      some (.rows ((t.messagesOf ids).map fun m => messageColumns.map (messageCell m))) := by
  simp only [answer?, messagesStatement, List.length_map, if_neg (messagesOf_ne_page table ids.length), if_true,
    selectMessages_eq hids]

/-- The rows that a statement selects, read one by one. -/
def fetchAll {α : Type} (read : List Cell → Except Failure α) (statement : Statement) : Action Session (List α) := do
  let rows ← Session.fetch statement
  .ofExcept (rows.mapM read)

theorem fetchAll_snd {α : Type} (read : List Cell → Except Failure α) (statement : Statement) (s : Session) :
    (fetchAll read statement s).2 = ⟨s.replies.tail, s.sent ++ [.statement statement]⟩ :=
  (Action.snd_of_pure fun _ _ => rfl).trans (fetch_snd statement s)

theorem fetchAll_rows {α : Type} {read : List Cell → Except Failure α} {row : α → List Cell} {items : List α}
    (hread : ∀ x ∈ items, read (row x) = .ok x) {s : Session} {replies : List Reply} (statement : Statement)
    (h : s.replies = .rows (items.map row) :: replies) :
    fetchAll read statement s = (.ok items, ⟨replies, s.sent ++ [.statement statement]⟩) := by
  have hrows : (items.map row).mapM read = .ok items := by
    rw [List.mapM_map]
    simpa using mapM_ok (f := read ∘ row) (g := id) hread
  rw [fetchAll, Action.bind_apply, fetch_rows statement h]
  simp only [Action.ofExcept, hrows]

theorem registers_eq (hpid : pid ≤ idMax) (offset limit : Nat) :
    (Storage.registers table pid offset limit : Action Session (List Register)) =
      fetchAll readRegister (pageStatement table pid offset limit) := by
  funext s
  show Action.andThen (.ofExcept (toColumn pid)) _ s = _
  rw [toColumn, if_pos hpid]
  rfl

theorem messages_eq {ids : List RegisterId} (hids : ∀ id ∈ ids, id ≤ idMax) (hne : ids ≠ []) :
    (Storage.messages table ids : Action Session (List LogMessage)) =
      fetchAll readMessage (messagesStatement table ids) := by
  have hcolumns : ids.mapM toColumn = .ok (ids.map fun id : Nat => (id : Int)) :=
    mapM_ok fun id hid => if_pos (hids id hid)
  funext s
  simp only [Storage.messages, List.isEmpty_iff, if_neg hne]
  rw [Action.bind_apply, hcolumns, messagesStatement]
  simp only [Action.ofExcept, List.length_map, List.map_map]
  rfl

theorem mem_page {r : Register} {offset limit : Nat} (h : r ∈ t.page pid offset limit) : r ∈ t.registers :=
  List.mem_of_mem_filter (List.mem_reverse.mp (List.mem_of_mem_drop (List.mem_of_mem_take h)))

theorem Fits.readRegister_page (hfits : Fits t) {offset limit : Nat} :
    ∀ r ∈ t.page pid offset limit, readRegister (registerColumns.map (registerCell r)) = .ok r := by
  intro r hr
  obtain ⟨-, -, hstart, hdata, hlast⟩ := hfits.registers r (mem_page hr)
  exact readRegister_row hstart hdata hlast

theorem Fits.ids_page (hfits : Fits t) {offset limit : Nat} :
    ∀ id ∈ (t.page pid offset limit).map (·.id), id ≤ idMax := by
  intro id hid
  obtain ⟨r, hr, rfl⟩ := List.mem_map.mp hid
  exact (hfits.registers r (mem_page hr)).1

/-- The page of a server's answer; the later statements are answered too. -/
theorem registers_answered (hids : t.Numbered) (hfits : Fits t) (hpid : pid ≤ idMax) (offset limit : Nat)
    {s s' : Session}
    (h : Answered table t s s') (hmore : (Storage.registers table pid offset limit s).2.sent <+: s'.sent) :
    ∃ s₁, Storage.registers table pid offset limit s = (.ok (t.page pid offset limit), s₁) ∧
        Answered table t s₁ s' := by
  rw [registers_eq hpid, fetchAll_snd] at hmore
  obtain ⟨⟨reply, hreply, hreplies⟩, hrest⟩ := h.next rfl rfl hmore
  rw [answer?_page table hids hfits, Option.some.injEq] at hreply
  rw [registers_eq hpid]
  exact ⟨_, fetchAll_rows hfits.readRegister_page _ (hreplies.trans (by rw [hreply])), hrest⟩

/-- The messages of the registers of a page are asked for only if there are registers. -/
theorem messages_answered (hids : t.messages.map (·.id) = List.range' 1 t.lastMessage) (hfits : Fits t)
    {ids : List RegisterId} (hmax : ∀ id ∈ ids, id ≤ idMax) {s : Session}
    (h : Answered table t s (Storage.messages table ids s).2) :
    (Storage.messages table ids s).1 = .ok (t.messagesOf ids) := by
  by_cases hne : ids = []
  · simp [hne, Storage.messages, MemoryTable.messagesOf]
  · rw [messages_eq hmax hne] at h ⊢
    rw [fetchAll_snd] at h
    obtain ⟨⟨reply, hreply, hreplies⟩, -⟩ := h.next rfl rfl List.prefix_rfl
    rw [answer?_messages hids, Option.some.injEq] at hreply
    have hread : ∀ m ∈ t.messagesOf ids, readMessage (messageColumns.map (messageCell m)) = .ok m := by
      intro m hm
      exact readMessage_row (hfits.messages m (List.mem_filter.mp hm).1).2
    rw [fetchAll_rows hread _ (hreplies.trans (by rw [hreply]))]

theorem sent_messages (ids : List RegisterId) (s : Session) : s.sent <+: (Storage.messages table ids s).2.sent := by
  by_cases hne : ids = []
  · rw [hne]
    exact List.prefix_rfl
  · simp only [Storage.messages, List.isEmpty_iff, if_neg hne]
    rw [Action.bind_apply]
    cases ids.mapM toColumn with
    | error e => exact List.prefix_rfl
    | ok columns =>
      have hsnd := fetchAll_snd readMessage ⟨messagesOf table columns.length, columns.map .int⟩ s
      exact ⟨_, (congrArg Session.sent hsnd).symm⟩

/-! ### Pages -/

theorem sent_logs (table : LogTable) (pid : ProcessId) (a b : Nat) (s : Session) :
    (Logger.pageOf table pid a b s).2.sent <+: (Logger.logs ⟨some table⟩ pid a b s).2.sent := by
  cases h : Logger.pageOf table pid a b s with
  | mk result s₁ =>
    cases result with
    | error e =>
      simp only [Logger.logs_of_no_page h, List.prefix_rfl]
    | ok registers =>
      rw [Logger.logs_of_page h]
      exact sent_messages _ s₁

/-- A server that holds the rows can answer for any page. -/
theorem exists_answered (hids : t.Numbered) (hnotes : t.messages.map (·.id) = List.range' 1 t.lastMessage)
    (hfits : Fits t) (hpid : pid ≤ idMax) (a b : Nat) :
    ∃ s, Answered table t s (Logger.logs ⟨some table⟩ pid a b s).2 := by
  let registers := t.page pid (min a b) (min (max a b - min a b + 1) Logger.limitMax)
  let statement := pageStatement table pid (min a b) (min (max a b - min a b + 1) Logger.limitMax)
  let notes : Reply :=
    .rows ((t.messagesOf (registers.map (·.id))).map fun m => messageColumns.map (messageCell m))
  let s : Session := ⟨[.rows (registers.map fun r => registerColumns.map (registerCell r)), notes], []⟩
  have hpage : Logger.pageOf table pid a b s = (.ok registers, ⟨[notes], [.statement statement]⟩) :=
    (congrFun (registers_eq hpid _ _) s).trans (fetchAll_rows hfits.readRegister_page _ rfl)
  have hanswer := answer?_page table hids hfits pid (min a b) (min (max a b - min a b + 1) Logger.limitMax)
  refine ⟨s, ?_⟩
  rw [Logger.logs_of_page hpage]
  by_cases hne : registers.map (·.id) = []
  · refine ⟨[statement], by rw [hne]; rfl, ?_⟩
    rw [List.map_singleton, hanswer]
    exact ⟨[some notes], rfl⟩
  · refine ⟨[statement, messagesStatement table (registers.map (·.id))], ?_, ?_⟩
    · rw [messages_eq hfits.ids_page hne, fetchAll_snd]
      rfl
    · rw [List.map_cons, List.map_singleton, hanswer, answer?_messages hnotes]
      exact List.prefix_rfl

/-- A page of a log on a server is the page of the log in memory, whatever calls have filled the table, if the server
answers the statements that are sent for it with the rows that they select in this table. -/
theorem pages_agree_with_memory (operations : List Operation) {table : LogTable} {t : MemoryTable}
    (ht : (Operation.after ({} : Memory) operations).tables.get? table = some t) (hfits : Fits t) {pid : ProcessId}
    (hpid : pid ≤ idMax) (a b : Nat) :
    (∃ s, Answered table t s (Logger.logs ⟨some table⟩ pid a b s).2) ∧
      ∀ s : Session, Answered table t s (Logger.logs ⟨some table⟩ pid a b s).2 →
        ∃ entries, (Logger.logs ⟨some table⟩ pid a b s).1 = .ok entries ∧
          (Logger.logs ⟨some table⟩ pid a b (Operation.after ({} : Memory) operations)).1 = .ok entries := by
  have hfilled := Memory.after_filled operations ht
  refine ⟨exists_answered hfilled.ids hfilled.noteIds hfits hpid a b,
    fun s hserver => ⟨_, ?_, by rw [Memory.logs_eq ht]⟩⟩
  obtain ⟨s₁, hpage, hrest⟩ := registers_answered hfilled.ids hfits hpid _ _ hserver (sent_logs table pid a b s)
  rw [Logger.logs_of_page hpage] at hrest ⊢
  rw [messages_answered hfilled.noteIds hfits hfits.ids_page hrest]
  rfl

/-- Three registers, two of them of the process 7, and a message. -/
def sampleCalls (table : LogTable) : List Operation :=
  [.init table, .insertRegister table 7 .start .epoch, .insertRegister table 8 .onQueue .epoch,
    .insertMessage table 1 .info "loaded" .epoch, .insertRegister table 7 .start .epoch,
    .updateResult table 1 .done (some .epoch) .epoch]

/-- The table after these calls. -/
def sampleTable : MemoryTable where
  lastRegister := 3
  lastMessage := 1
  registers := [⟨1, 7, .done, .epoch, some .epoch, .epoch, none⟩, ⟨2, 8, .onQueue, .epoch, none, .epoch, none⟩,
    ⟨3, 7, .start, .epoch, none, .epoch, none⟩]
  messages := [⟨1, 1, .info, "loaded", .epoch⟩]

theorem pages_agree_with_memory_of_sampleCalls :
    let table : LogTable := ⟨"log", by decide⟩
    let micros : Int := -946684800000000
    let s : Session := ⟨[.rows [[.int 3, .int 7, .int 2, .timestamp micros, .null, .timestamp micros, .null],
      [.int 1, .int 7, .int 4, .timestamp micros, .timestamp micros, .timestamp micros, .null]],
      .rows [[.int 1, .int 1, .int 2, .text "loaded", .timestamp micros]]], []⟩
    (Logger.logs ⟨some table⟩ 7 5 0 s).1 = .ok [⟨⟨3, 7, .start, .epoch, none, .epoch, none⟩, []⟩,
      ⟨⟨1, 7, .done, .epoch, some .epoch, .epoch, none⟩, [⟨1, 1, .info, "loaded", .epoch⟩]⟩] := by
  intro table micros s
  obtain ⟨entries, hserver, hmemory⟩ := (@pages_agree_with_memory (sampleCalls table) table sampleTable (by decide)
    ⟨by decide, by decide⟩ 7 (by decide) 5 0).2 s
    ⟨[pageStatement table 7 0 6, messagesStatement table [3, 1]], by decide, by decide⟩
  rw [hserver, ← hmemory]
  decide

end Sql

end ProcessRuns
