import ProcessRuns.Proofs.Sql.Bindings

/-! # Ids on a server

A column of a server has 32 bits, and an id may have more. An id that does not fit is refused before anything is sent;
every other one goes out as the number that it is, and what comes back is the number in the row, unless it is
negative. -/

namespace ProcessRuns

namespace Sql

open Session

variable {α β : Type}

/-! ### Ids that are read back -/

/-- Columns that hold ids. -/
def idCells (ids : List Nat) : List Cell := ids.map fun id : Nat => .int id

theorem idCells_append (front rest : List Nat) : idCells (front ++ rest) = idCells front ++ idCells rest :=
  List.map_append

theorem idCells_injective : Function.Injective idCells :=
  List.map_injective_iff.mpr fun _ _ h => Int.ofNat.inj (Cell.int.inj h)

/-- A row that begins with so many ids and can be read. -/
def RowReadable (width : Nat) (Sound : List Cell → Prop) (row : List Cell) : Prop :=
  ∃ (ids : List Nat) (rest : List Cell), ids.length = width ∧ Sound rest ∧ row = idCells ids ++ rest

/-- The ids at the front of a row are read as they are, and a negative one is reported; `Sound` is what has to stand
behind them. -/
structure ReadsIds (width : Nat) (Sound : List Cell → Prop) (read : List Cell → Except Failure α)
    (ids : α → List Nat) :
    Prop where
  exact : ∀ row x, read row = .ok x → idCells (ids x) = row.take width
  readable : ∀ row, RowReadable width Sound row → ∃ x, read row = .ok x
  negative : ∀ (front : List Nat) n rest, front.length < width → n < 0 →
    read (idCells front ++ .int n :: rest) = .error (.negativeId n)

theorem readId_ok {column : String} {cell : Option Cell} {id : Nat} (h : readId column cell = .ok id) :
    cell = some (.int id) := by
  unfold readId readInt at h
  split at h
  · rename_i n
    have hn : ofColumn n = .ok id := h
    unfold ofColumn at hn
    split at hn
    · cases hn
    · cases hn
      rw [Int.toNat_of_nonneg (by omega)]
  · cases h

theorem readId_negative (column : String) {n : Int} (hn : n < 0) :
    readId column (some (.int n)) = .error (.negativeId n) := if_pos hn

theorem readsIds_readOnlyId : ReadsIds 1 (fun _ => True) readOnlyId fun id => [id] where
  exact row id h := by
    cases row with
    | nil => cases readId_ok h
    | cons cell rest =>
      cases readId_ok h
      rfl
  readable row h := by
    obtain ⟨ids, rest, hlength, -, rfl⟩ := h
    obtain ⟨id, rfl⟩ := List.length_eq_one_iff.mp hlength
    exact ⟨id, readId_column "0" id⟩
  negative front n rest hlength hn := by
    rw [Nat.lt_one_iff, List.length_eq_zero_iff] at hlength
    rw [hlength]
    exact readId_negative "0" hn

theorem bind_ok {x : Except Failure α} {f : α → Except Failure β} {y : β} (h : x >>= f = .ok y) :
    ∃ a, x = .ok a ∧ f a = .ok y := by
  cases x with
  | error e => cases h
  | ok a => exact ⟨a, rfl, h⟩

/-- A row whose first two columns hold ids, the rest of which is read after them. -/
theorem readsIds_pair {Sound : List Cell → Prop} {read : List Cell → Except Failure α} {ids : α → List Nat}
    {f : Nat → Nat → List Cell → Except Failure α} (first second : String)
    (hread : ∀ row, read row = do f (← readId first row[0]?) (← readId second row[1]?) (row.drop 2))
    (hids : ∀ a b rest x, f a b rest = .ok x → ids x = [a, b])
    (hsound : ∀ a b rest, Sound rest → ∃ x, f a b rest = .ok x) : ReadsIds 2 Sound read ids where
  exact row x h := by
    rw [hread] at h
    obtain ⟨a, ha, h⟩ := bind_ok h
    obtain ⟨b, hb, h⟩ := bind_ok h
    obtain ⟨hlength, hsecond⟩ := List.getElem?_eq_some_iff.mp (readId_ok hb)
    obtain ⟨hlength', hfirst⟩ := List.getElem?_eq_some_iff.mp (readId_ok ha)
    rw [hids a b _ x h, List.take_succ_eq_append_getElem hlength, List.take_succ_eq_append_getElem hlength',
      hfirst, hsecond]
    rfl
  readable row h := by
    obtain ⟨ids, rest, hlength, hrest, rfl⟩ := h
    obtain ⟨a, b, rfl⟩ := List.length_eq_two.mp hlength
    obtain ⟨x, hx⟩ := hsound a b rest hrest
    refine ⟨x, ?_⟩
    rw [hread, ← hx]
    show (readId first (some (.int a)) >>= fun a => readId second (some (.int b)) >>= fun b => f a b rest) = _
    rw [readId_column, readId_column]
    rfl
  negative front n rest hlength hn := by
    rw [hread]
    match front, hlength with
    | [], _ =>
      show (readId first (some (.int n)) >>= fun a => _) = _
      rw [readId_negative first hn]
      rfl
    | [a], _ =>
      show (readId first (some (.int a)) >>= fun a => readId second (some (.int n)) >>= fun b => _) = _
      rw [readId_column, readId_negative second hn]
      rfl

/-- The columns of a register behind its ids. -/
def registerBehind (id processId : Nat) (rest : List Cell) : Except Failure Register := do
  return {
    id, processId
    status := ← Status.ofCode (← readInt (quoted "status") rest[0]?)
    start := ← readInstant (quoted "start_timestamp") rest[1]?
    dataTimestamp := readInstant? rest[2]?
    lastProcess := ← readInstant (quoted "last_process_timestamp") rest[3]?
    data := readText? rest[4]? }

/-- What stands behind the ids of a register that can be read. -/
def SoundRegister (rest : List Cell) : Prop :=
  (∃ status : Status, rest[0]? = some (.int status.code)) ∧ (∃ a, readInstant? rest[1]? = some a) ∧
    ∃ a, readInstant? rest[3]? = some a

/-- The columns of a message behind its ids. -/
def messageBehind (id registerId : Nat) (rest : List Cell) : Except Failure LogMessage := do
  return {
    id, registerId
    type := ← MessageType.ofCode (← readInt (quoted "type") rest[0]?)
    description := (readText? rest[1]?).getD ""
    timestamp := ← readInstant (quoted "timestamp") rest[2]? }

/-- What stands behind the ids of a message that can be read. -/
def SoundMessage (rest : List Cell) : Prop :=
  (∃ type : MessageType, rest[0]? = some (.int type.code)) ∧ ∃ a, readInstant? rest[2]? = some a

theorem readsIds_readRegister : ReadsIds 2 SoundRegister readRegister fun r => [r.id, r.processId] := by
  refine readsIds_pair (f := registerBehind) (quoted "id") (quoted "process_id") (fun row => ?_)
    (fun a b rest r h => ?_)
    fun a b rest h => ?_
  · simp only [readRegister, registerBehind, List.getElem?_drop]
  · obtain ⟨code, -, h⟩ := bind_ok h
    obtain ⟨status, -, h⟩ := bind_ok h
    obtain ⟨start, -, h⟩ := bind_ok h
    obtain ⟨last, -, h⟩ := bind_ok h
    cases h
    rfl
  · obtain ⟨⟨status, hstatus⟩, ⟨start, hstart⟩, last, hlast⟩ := h
    refine ⟨⟨a, b, status, start, readInstant? rest[2]?, last, readText? rest[4]?⟩, ?_⟩
    simp only [registerBehind, hstatus, readInt, readInstant, hstart, hlast, bind, Except.bind,
      Status.ofCode_code, pure,
      Except.pure]

theorem readsIds_readMessage : ReadsIds 2 SoundMessage readMessage fun m => [m.id, m.registerId] := by
  refine readsIds_pair (f := messageBehind) (quoted "id") (quoted "log_id") (fun row => ?_) (fun a b rest r h => ?_)
    fun a b rest h => ?_
  · simp only [readMessage, messageBehind, List.getElem?_drop]
  · obtain ⟨code, -, h⟩ := bind_ok h
    obtain ⟨type, -, h⟩ := bind_ok h
    obtain ⟨a', -, h⟩ := bind_ok h
    cases h
    rfl
  · obtain ⟨⟨type, htype⟩, a', hinstant⟩ := h
    refine ⟨⟨a, b, type, (readText? rest[1]?).getD "", a'⟩, ?_⟩
    simp only [messageBehind, htype, readInt, readInstant, hinstant, bind, Except.bind, MessageType.ofCode_code, pure,
      Except.pure]

/-- The rows of the first reply, or of a later one. -/
def Session.rowsAt (s : Session) (n : Nat) : List (List Cell) :=
  match s.replies[n]? with
  | some (.rows rows) => rows
  | _ => []

/-- The first reply counts at least one row. -/
def Session.finds (s : Session) : Bool :=
  match s.rowsAt 0 with
  | (.int n :: _) :: _ => 0 < n
  | _ => false

/-- What becomes of the ids at the front of some rows. -/
structure ReadBack (width : Nat) (Sound : List Cell → Prop) (rows : List (List Cell))
    (result : Except Failure (List Nat)) :
    Prop where
  /-- Every id that is returned is the number in its row, and none is left out. -/
  exact : ∀ ids, result = .ok ids → idCells ids = rows.flatMap (·.take width)
  /-- Ids that are not negative are returned, if nothing else is wrong with their rows. -/
  readable : rows ≠ [] → (∀ row ∈ rows, RowReadable width Sound row) → ∃ ids, result = .ok ids
  /-- The first negative id is reported, if nothing before it is wrong. -/
  negative : ∀ (before : List (List Cell)) (front : List Nat) (n : Int) (rest : List Cell) (after : List (List Cell)),
    rows = before ++ (idCells front ++ .int n :: rest) :: after →
    (∀ row ∈ before, RowReadable width Sound row) → front.length < width → n < 0 →
    result = .error (.negativeId n) ∧ (Failure.negativeId n).kind? = some .convert

section ReadBack

variable {width : Nat} {Sound : List Cell → Prop} {result : Except Failure (List Nat)}

theorem readBack_nil (h : ∀ ids, result = .ok ids → ids = []) : ReadBack width Sound [] result where
  exact ids hids := by rw [h ids hids]; rfl
  readable hne := absurd rfl hne
  negative before front n rest after heq := by simp at heq

/-- An answer without ids. -/
theorem readBack_none (x : Except Failure α) : ReadBack width Sound [] (x.map fun _ => []) :=
  readBack_nil fun ids h => by
    cases x <;> cases h
    rfl

variable {read : List Cell → Except Failure α} {ids : α → List Nat}

theorem ReadsIds.mapM_exact (h : ReadsIds width Sound read ids) {rows : List (List Cell)} {xs : List α}
    (hrows : rows.mapM read = .ok xs) :
    idCells (xs.flatMap ids) = rows.flatMap (·.take width) := by
  induction rows generalizing xs with
  | nil =>
    cases hrows
    rfl
  | cons row rows ih =>
    rw [List.mapM_cons] at hrows
    obtain ⟨x, hx, hrows⟩ := bind_ok hrows
    obtain ⟨rest, hrest, hrows⟩ := bind_ok hrows
    cases hrows
    rw [List.flatMap_cons, idCells_append, List.flatMap_cons, h.exact row x hx, ih hrest]

theorem ReadsIds.mapM_readable (h : ReadsIds width Sound read ids) {rows : List (List Cell)}
    (hrows : ∀ row ∈ rows, RowReadable width Sound row) : ∃ xs, rows.mapM read = .ok xs := by
  induction rows with
  | nil => exact ⟨[], rfl⟩
  | cons row rows ih =>
    obtain ⟨x, hx⟩ := h.readable row (hrows row List.mem_cons_self)
    obtain ⟨xs, hxs⟩ := ih fun row hrow => hrows row (List.mem_cons_of_mem _ hrow)
    refine ⟨x :: xs, ?_⟩
    rw [List.mapM_cons, hx, hxs]
    rfl

theorem ReadsIds.readBack (h : ReadsIds width Sound read ids) (rows : List (List Cell)) :
    ReadBack width Sound rows ((rows.mapM read).map fun xs => xs.flatMap ids) where
  exact all hall := by
    cases hrows : rows.mapM read with
    | error e =>
      rw [hrows] at hall
      cases hall
    | ok xs =>
      rw [hrows] at hall
      cases hall
      exact h.mapM_exact hrows
  readable _ hrows := by
    obtain ⟨xs, hxs⟩ := h.mapM_readable hrows
    exact ⟨xs.flatMap ids, by rw [hxs]; rfl⟩
  negative before front n rest after heq hbefore hfront hn := by
    obtain ⟨xs, hxs⟩ := h.mapM_readable hbefore
    rw [heq, List.mapM_append, hxs, List.mapM_cons, h.negative front n rest hfront hn]
    exact ⟨rfl, rfl⟩

theorem fst_bind_ok {a : Action Session α} {f : α → Action Session β} {s : Session} {x : α} (h : (a s).1 = .ok x) :
    ((a >>= f) s).1 = (f x (a s).2).1 := by
  rw [Action.bind_apply]
  split <;> rename_i heq <;> rw [heq] at h ⊢ <;> cases h
  rfl

theorem fst_bind_error {a : Action Session α} {f : α → Action Session β} {s : Session} {e : Failure}
    (h : (a s).1 = .error e) : ((a >>= f) s).1 = .error e := by
  rw [Action.bind_apply]
  split <;> rename_i heq <;> rw [heq] at h <;> cases h
  rfl

/-- Either the rows of the reply are fetched, or there are none. -/
theorem fetch_rowsAt (x : Statement) (s : Session) :
    (fetch x s).1 = .ok (s.rowsAt 0) ∨ s.rowsAt 0 = [] ∧ ∃ e, (fetch x s).1 = .error e := by
  cases hs : s.replies with
  | nil =>
    left
    simp [fetch, send, Session.rowsAt, hs, Action.bind_apply]
  | cons reply replies =>
    cases reply with
    | rows rows | affected count =>
      left
      simp [fetch, send, Session.rowsAt, hs, Action.bind_apply]
    | error text =>
      right
      simp [fetch, send, Session.rowsAt, hs, Action.bind_apply]

theorem fetchOne_rowsAt (x : Statement) (s : Session) :
    (∃ row rows, s.rowsAt 0 = row :: rows ∧ (fetchOne x s).1 = .ok row) ∨
      s.rowsAt 0 = [] ∧ ∃ e, (fetchOne x s).1 = .error e := by
  rcases fetch_rowsAt x s with hok | ⟨hnone, e, herror⟩
  · cases hrows : s.rowsAt 0 with
    | nil =>
      right
      exact ⟨rfl, .noRow, by rw [fetchOne, fst_bind_ok (hrows ▸ hok)]; rfl⟩
    | cons row rows =>
      left
      exact ⟨row, rows, rfl, by rw [fetchOne, fst_bind_ok (hrows ▸ hok)]; rfl⟩
  · exact Or.inr ⟨hnone, e, fst_bind_error herror⟩

theorem readBack_fetchAll (h : ReadsIds width Sound read ids) (x : Statement) (s : Session) :
    ReadBack width Sound (s.rowsAt 0) ((fetchAll read x s).1.map fun xs => xs.flatMap ids) := by
  rcases fetch_rowsAt x s with hok | ⟨hnone, e, herror⟩
  · rw [fetchAll, fst_bind_ok hok]
    exact h.readBack (s.rowsAt 0)
  · rw [fetchAll, fst_bind_error herror, hnone]
    exact readBack_nil fun _ h => by cases h

theorem readBack_insertedId (x : Statement) (s : Session) :
    ReadBack 1 (fun _ => True) ((s.rowsAt 0).take 1) ((insertedId x s).1.map fun id => [id]) := by
  rcases fetchOne_rowsAt x s with ⟨row, rows, hrows, hok⟩ | ⟨hnone, e, herror⟩
  · have hone : (readOnlyId row).map (fun id => [id]) =
        ([row].mapM readOnlyId).map fun ids => ids.flatMap fun id => [id] := by
      rw [List.mapM_cons]
      cases readOnlyId row <;> rfl
    rw [insertedId, fst_bind_ok hok, hrows]
    exact hone ▸ readsIds_readOnlyId.readBack [row]
  · rw [insertedId, fst_bind_error herror, hnone]
    exact readBack_nil fun _ h => by cases h

end ReadBack

end Sql

namespace Operation

open Sql

/-- How many ids an operation is given. -/
def idWidth : Operation → Nat
  | insertRegister .. | insertMessage .. => 1
  | registers .. | messages .. => 2
  | _ => 0

/-- What stands behind the ids of a row that an operation can read. -/
def Sound : Operation → List Cell → Prop
  | registers .. => SoundRegister
  | messages .. => SoundMessage
  | _ => fun _ => True

/-- The rows of the replies that the ids in an answer are read from. -/
def idRows (s : Session) : Operation → List (List Cell)
  | insertRegister .. => (s.rowsAt 0).take 1
  | insertMessage .. => if s.finds then (s.rowsAt 1).take 1 else []
  | registers .. => s.rowsAt 0
  | messages _ ids => if ids = [] then [] else s.rowsAt 0
  | _ => []

end Operation

/-- The ids in an answer, row by row. -/
def Answer.ids : Answer → List Nat
  | .added id => [id]
  | .numbered id => id.toList
  | .registers rows => rows.flatMap fun r => [r.id, r.processId]
  | .messages rows => rows.flatMap fun m => [m.id, m.registerId]
  | _ => []

namespace Sql

open Session

variable {α : Type}

theorem ids_map (f : α → Answer) (a : Action Session α) (s : Session) :
    ((f <$> a) s).1.map Answer.ids = (a s).1.map fun x => (f x).ids := by
  rw [Action.map_apply]
  cases (a s).1 <;> rfl

theorem rowsAt_tail (s : Session) (sent : List Sent) (n : Nat) :
    Session.rowsAt ⟨s.replies.tail, sent⟩ n = s.rowsAt (n + 1) := by
  rw [Session.rowsAt, Session.rowsAt, List.getElem?_tail]

/-- A register is found if its id is counted at least once. -/
theorem registerExists_iff (t : LogTable) {id : RegisterId} (hid : id ≤ idMax) (s : Session) :
    (registerExists t id s).1 = .ok true ↔ s.finds = true := by
  rw [registerExists, bind_toColumn hid]
  rcases fetchOne_rowsAt ⟨countRegister t, [.int id]⟩ s with ⟨row, rows, hrows, hok⟩ | ⟨hnone, e, herror⟩
  · rw [fst_bind_ok hok]
    match row with
    | [] | .text _ :: _ | .timestamp _ :: _ | .null :: _ =>
      simp [Session.finds, hrows, Action.bind_apply, Action.ofExcept, readCount]
    | .int n :: _ => simp [Session.finds, hrows, Action.bind_apply, Action.ofExcept, readCount]
  · rw [fst_bind_error herror]
    simp [Session.finds, hnone]

theorem readBack_insertMessage (t : LogTable) {id : RegisterId} (hid : id ≤ idMax) (type : MessageType)
    (description : String) (now : Instant) (s : Session) :
    ReadBack 1 (fun _ => True) (if s.finds then (s.rowsAt 1).take 1 else [])
      ((Storage.insertMessage t id type description now s).1.map Option.toList) := by
  have hlist : ∀ x : Except Failure Nat, (x.map some).map Option.toList = x.map fun id => [id] := fun x => by
    cases x <;> rfl
  rw [insertMessage_eq t hid]
  by_cases hfinds : s.finds = true
  · rw [fst_bind_ok ((registerExists_iff t hid s).mpr hfinds), once_registerExists t hid s, if_pos hfinds, if_pos rfl,
      Action.map_apply, hlist, ← rowsAt_tail]
    exact readBack_insertedId _ _
  · rw [if_neg hfinds]
    cases hfound : (registerExists t id s).1 with
    | error e =>
      rw [fst_bind_error hfound]
      exact readBack_none (.error e : Except Failure Unit)
    | ok found =>
      cases found with
      | false =>
        rw [fst_bind_ok hfound]
        exact readBack_none (.ok ())
      | true => exact absurd ((registerExists_iff t hid s).mp hfound) hfinds

theorem readBack_perform (o : Operation) (hids : ∀ id ∈ o.ids, id ≤ idMax) (s : Session) :
    ReadBack o.idWidth o.Sound (o.idRows s) ((o.perform s).1.map Answer.ids) := by
  cases o with
  | insertRegister t id status now =>
    have heq : (Storage.insertRegister t id status now : Action Session RegisterId) =
        insertedId ⟨insertRegister t, [.int id, .int status.code, .ofInstant now, .ofInstant now]⟩ :=
      bind_toColumn (hids id List.mem_cons_self) _
    rw [Operation.perform, ids_map, heq]
    exact readBack_insertedId _ s
  | insertMessage t id type description now =>
    rw [Operation.perform, ids_map]
    exact readBack_insertMessage t (hids id List.mem_cons_self) type description now s
  | registers t id offset limit =>
    rw [Operation.perform, ids_map, registers_eq (hids id List.mem_cons_self)]
    exact readBack_fetchAll readsIds_readRegister (pageStatement t id offset limit) s
  | messages t ids =>
    rw [Operation.perform, ids_map, Operation.idRows]
    by_cases hne : ids = []
    · rw [if_pos hne, hne]
      exact readBack_nil fun _ h => (Except.ok.inj h).symm
    · have hfit : ∀ id ∈ ids, id ≤ idMax := hids
      rw [messages_eq hfit hne, if_neg hne]
      exact readBack_fetchAll readsIds_readMessage (messagesStatement t ids) s
  | init | updateResult | appendValue | maxLastProcess | maxData | updateStatus =>
    rw [Operation.perform, ids_map]
    exact readBack_none _

/-- What becomes of the ids of a call and of those in its answer. -/
structure KeepsIds (o : Operation) (s : Session) : Prop where
  /-- An id that does not fit is reported, and nothing is sent. -/
  refused : (∃ id ∈ o.ids, idMax < id) → ∃ id ∈ o.ids, idMax < id ∧
    o.perform s = (.error (.idTooLarge id), s) ∧
    (Failure.idTooLarge id).kind? = some .convert
  /-- Ids that fit are sent, and what each statement has for its columns of ids are these ids. -/
  sent : (∀ id ∈ o.ids, id ≤ idMax) → ∃ sent, (o.perform s).2.sent = s.sent ++ sent ∧
    (o.ids ≠ [] → ∃ x, .statement x ∈ sent) ∧
    ∀ x, .statement x ∈ sent → x.idsBound = o.ids.map fun id : Nat => .int id
  /-- The bounds of a page are sent as they are, up to the largest that a server takes. -/
  paged : ∀ table pid offset limit, o = .registers table pid offset limit → ∀ sent,
    (o.perform s).2.sent = s.sent ++ sent → ∀ x, .statement x ∈ sent →
      x.paramsBehind " DESC LIMIT " = [.int (min (limit : Int) pageMax)] ∧
      x.paramsBehind " OFFSET " = [.int (min (offset : Int) pageMax)]
  /-- What is read back are the numbers in the rows of the replies. -/
  readBack : (∀ id ∈ o.ids, id ≤ idMax) →
    ReadBack o.idWidth o.Sound (o.idRows s) ((o.perform s).1.map Answer.ids)

theorem ids_are_kept (o : Operation) (s : Session) : KeepsIds o s where
  refused h := by
    obtain ⟨id, hmem, hid, hrefuses⟩ := refuses_perform o h
    exact ⟨id, hmem, hid, hrefuses s, rfl⟩
  sent hids := by
    obtain ⟨sent, hsent, hmem⟩ := sends_perform o s
    refine ⟨sent, hsent, fun hne => ?_, fun x hx => idsBound_of_mem_statementsOf o x (hmem x hx)⟩
    obtain ⟨x, hx⟩ := sent_perform o hids hne s
    rw [hsent, List.prefix_append_right_inj] at hx
    exact ⟨x, hx.subset List.mem_cons_self⟩
  paged table pid offset limit ho sent hsent x hx := by
    obtain ⟨sent', hsent', hmem⟩ := sends_perform o s
    rw [hsent', List.append_cancel_left_eq] at hsent
    have hstatement := hmem x (hsent ▸ hx)
    rw [ho, statementsOf, List.mem_singleton] at hstatement
    rw [hstatement]
    exact ⟨rfl, rfl⟩
  readBack hids := readBack_perform o hids s

/-- The largest id goes through, the next one does not, and a negative one is not taken for an id. -/
theorem ids_are_kept_of_largest :
    let table : LogTable := ⟨"log", by decide⟩
    let s : Session := ⟨[.rows [[.int 2147483647], [.int 3]]], []⟩
    let s' : Session := ⟨[.rows [[.int 5, .int (-7), .int 2]]], []⟩
    (Operation.messages table [1, 2147483648]).perform s = (.error (.idTooLarge 2147483648), s) ∧
      ((Operation.insertRegister table 2147483647 .start .epoch).perform s).1.map Answer.ids = .ok [2147483647] ∧
      ((Operation.registers table 7 0 5).perform s').1.map Answer.ids = .error (.negativeId (-7)) := by
  intro table s s'
  refine ⟨?_, ?_, ?_⟩
  · obtain ⟨id, hmem, hlarge, hrefused, -⟩ := (ids_are_kept (.messages table [1, 2147483648]) s).refused
      ⟨2147483648, by decide, by decide⟩
    rcases List.mem_pair.mp hmem with rfl | rfl
    · exact absurd hlarge (by decide)
    · exact hrefused
  · have hread := (ids_are_kept (.insertRegister table 2147483647 .start .epoch) s).readBack (by decide)
    obtain ⟨ids, hids⟩ := hread.readable (by decide) fun row hrow =>
      ⟨[2147483647], [], rfl, trivial, List.mem_singleton.mp hrow⟩
    have hexact : idCells ids = idCells [2147483647] := hread.exact ids hids
    rw [hids, idCells_injective hexact]
  · have hread := (ids_are_kept (.registers table 7 0 5) s').readBack (by decide)
    exact (hread.negative [] [5] (-7) [.int 2] [] rfl (by simp) (by decide) (by decide)).1

end Sql

end ProcessRuns
