import ProcessRuns.Proofs.Sql.Texts

/-! # What a statement binds

A statement compares its columns with its placeholders, or fills them. For the columns that hold ids, the parameters
behind these placeholders are the ids that a call was given; an id that does not fit such a column is refused before
anything is sent. -/

namespace ProcessRuns

namespace Sql

open Session

/-! ### What a statement binds to its columns -/

/-- The numbers of the placeholders at the front, with commas between them. -/
def leadingPlaces : List Piece → List Nat
  | .place n :: .words ", " :: rest => n :: leadingPlaces rest
  | .place n :: _ => [n]
  | _ => []

/-- The identifiers at the front, with commas between them. -/
def leadingNames : List Piece → List String
  | .ident name :: .words ", " :: rest => name :: leadingNames rest
  | .ident name :: _ => [name]
  | _ => []

/-- The placeholders behind some words. -/
def placesBehind (text : String) : List Piece → List Nat
  | .words words :: rest => if words = text then leadingPlaces rest else placesBehind text rest
  | _ :: rest => placesBehind text rest
  | [] => []

/-- Columns, each with the number of a placeholder that it is compared with, set to or filled with. -/
def bindings : List Piece → List (String × Nat)
  | .words "INSERT INTO " :: .ident _ :: .words " (" :: rest =>
    (leadingNames rest).zip (placesBehind ") VALUES (" rest)
  | .ident column :: .words " = " :: .place n :: rest => (column, n) :: bindings rest
  | .ident column :: .words " IN (" :: rest => (leadingPlaces rest).map (fun n => (column, n)) ++ bindings rest
  | _ :: rest => bindings rest
  | [] => []

/-- The columns that hold ids of processes, registers and messages. -/
def idColumns : List String := ["id", "process_id", "log_id"]

namespace Statement

/-- The parameter of a number; the first one is `$1`. -/
def param? (x : Statement) (number : Nat) : Option Param := x.params[number - 1]?

/-- The parameters that a statement binds to columns of ids. -/
def idsBound (x : Statement) : List Param :=
  (bindings x.pieces).filterMap fun b => if b.1 ∈ idColumns then x.param? b.2 else none

/-- The parameters behind some words. -/
def paramsBehind (x : Statement) (text : String) : List Param := (placesBehind text x.pieces).filterMap x.param?

end Statement

theorem placesFrom_succ (first count : Nat) : placesFrom first (count + 1) =
    .place first :: if count = 0 then [] else .words ", " :: placesFrom (first + 1) count := by
  cases count with
  | zero => rfl
  | succ count => simp [placesFrom, commas, List.range'_succ]

theorem leadingPlaces_placesFrom (first count : Nat) (rest : List Piece) :
    leadingPlaces (placesFrom first count ++ .words ")" :: rest) = List.range' first count := by
  induction count generalizing first with
  | zero => rfl
  | succ count ih =>
    rw [placesFrom_succ, List.range'_succ, ← ih]
    cases count with
    | zero => rfl
    | succ count => rfl

theorem bindings_placesFrom (first count : Nat) (rest : List Piece) :
    bindings (placesFrom first count ++ rest) = bindings rest := by
  induction count generalizing first with
  | zero => rfl
  | succ count ih =>
    rw [placesFrom_succ]
    cases count with
    | zero => simp [bindings]
    | succ count => simp [bindings, ih]

theorem bindings_isAmong (column : String) (first count : Nat) (rest : List Piece) :
    bindings (isAmong column first count ++ rest) =
      (List.range' first count).map (fun n => (column, n)) ++ bindings rest := by
  have hpieces : isAmong column first count ++ rest =
      .ident column :: .words " IN (" :: (placesFrom first count ++ .words ")" :: rest) := by simp [isAmong]
  have hbracket : bindings (.words ")" :: rest) = bindings rest := by simp [bindings]
  rw [hpieces, bindings, leadingPlaces_placesFrom, bindings_placesFrom, hbracket]

/-- Placeholders that are numbered from one stand for all the parameters. -/
theorem filterMap_param? (pieces : List Piece) (params : List Param) :
    (List.range' 1 params.length).filterMap (Statement.param? ⟨pieces, params⟩) = params := by
  -- The numbers go on behind the parameters that are done with.
  suffices h : ∀ front rest : List Param, (List.range' (front.length + 1) rest.length).filterMap
      (Statement.param? ⟨pieces, front ++ rest⟩) = rest by
    exact h [] params
  intro front rest
  induction rest generalizing front with
  | nil => rfl
  | cons p rest ih =>
    have hp : Statement.param? ⟨pieces, front ++ p :: rest⟩ (front.length + 1) = some p := by simp [Statement.param?]
    have hrest := ih (front ++ [p])
    rw [List.length_append, List.length_singleton, List.append_assoc, List.singleton_append] at hrest
    rw [List.length_cons, List.range'_succ, List.filterMap_cons_some hp, hrest]

theorem idsBound_messages (t : LogTable) (ids : List RegisterId) :
    (messagesStatement t ids).idsBound = ids.map fun id : Nat => .int id := by
  have hpieces : bindings (messagesOf t ids.length) = (List.range' 1 ids.length).map fun n => ("log_id", n) := by
    rw [messagesOf, select, List.append_assoc]
    show bindings (isAmong "log_id" 1 ids.length ++ _) = _
    rw [bindings_isAmong]
    exact List.append_nil _
  have hids := filterMap_param? (messagesOf t ids.length) (ids.map fun id : Nat => .int id)
  rw [List.length_map] at hids
  rw [Statement.idsBound, messagesStatement, hpieces, List.filterMap_map]
  exact hids

theorem idsBound_updateStatus (t : LogTable) (count : Nat) (params : List Param) :
    Statement.idsBound ⟨updateStatus t count, params⟩ = [] := by
  have hpieces : bindings (updateStatus t count) =
      ("status", 1) :: (List.range' 2 count).map fun n => ("status", n) := by
    rw [updateStatus, update]
    show ("status", 1) :: bindings (isAmong "status" 2 count) = _
    rw [← List.append_nil (isAmong "status" 2 count), bindings_isAmong]
    exact congrArg _ (List.append_nil _)
  rw [Statement.idsBound, hpieces, List.filterMap_eq_nil_iff]
  intro b hb
  have hcolumn : b.1 = "status" := by
    rcases List.mem_cons.mp hb with rfl | hb
    · rfl
    · obtain ⟨n, -, rfl⟩ := List.mem_map.mp hb
      rfl
  rw [hcolumn, if_neg (by decide)]

theorem idsBound_of_mem_statementsOf (o : Operation) :
    ∀ x ∈ statementsOf o, x.idsBound = o.ids.map fun id : Nat => .int id := by
  intro x hx
  cases o with
  | init t =>
    have hall : (createAll t).map Statement.idsBound = List.replicate 5 [] := rfl
    exact List.eq_of_mem_replicate (hall ▸ List.mem_map_of_mem hx)
  | insertMessage t => rcases List.mem_pair.mp hx with rfl | rfl <;> rfl
  | messages t ids => exact List.mem_singleton.mp hx ▸ idsBound_messages t ids
  | updateStatus t old new => exact List.mem_singleton.mp hx ▸ idsBound_updateStatus t old.length _
  | insertRegister | updateResult | appendValue | maxLastProcess | maxData | registers =>
    rw [List.mem_singleton.mp hx]
    rfl

/-! ### Ids that are refused -/

variable {α β : Type}

/-- A call that fails before it does anything. -/
def Refuses (e : Failure) (a : Action Session α) : Prop := ∀ s, a s = (.error e, s)

section Refuses

variable {e : Failure} {a : Action Session α}

theorem Refuses.bind (h : Refuses e a) (f : α → Action Session β) : Refuses e (a >>= f) := fun s => by
  rw [Action.bind_apply, h s]

theorem Refuses.map (h : Refuses e a) (f : α → β) : Refuses e (f <$> a) := fun s => by
  rw [Action.map_apply, h s]
  rfl

theorem refuses_toColumn {id : Nat} (h : idMax < id) (f : Int → Action Session β) :
    Refuses (.idTooLarge id) (Action.ofExcept (toColumn id) >>= f) :=
  Refuses.bind (fun s => by rw [toColumn, if_neg (Nat.not_le.mpr h)]; rfl) f

end Refuses

/-- The first of the ids that are too large is the one that is reported. -/
theorem toColumns_error {ids : List Nat} (h : ∃ id ∈ ids, idMax < id) :
    ∃ id ∈ ids, idMax < id ∧ ids.mapM toColumn = .error (.idTooLarge id) := by
  induction ids with
  | nil => simp at h
  | cons id ids ih =>
    by_cases hid : idMax < id
    · refine ⟨id, List.mem_cons_self, hid, ?_⟩
      rw [List.mapM_cons, toColumn, if_neg (Nat.not_le.mpr hid)]
      rfl
    · have hrest : ∃ other ∈ ids, idMax < other := by
        obtain ⟨other, hmem, hother⟩ := h
        rcases List.mem_cons.mp hmem with rfl | hmem
        · exact absurd hother hid
        · exact ⟨other, hmem, hother⟩
      obtain ⟨other, hmem, hother, herror⟩ := ih hrest
      refine ⟨other, List.mem_cons_of_mem id hmem, hother, ?_⟩
      rw [List.mapM_cons, toColumn, if_pos (Nat.not_lt.mp hid), herror]
      rfl

theorem refuses_messages (t : LogTable) {ids : List RegisterId} (h : ∃ id ∈ ids, idMax < id) :
    ∃ id ∈ ids, idMax < id ∧
      Refuses (.idTooLarge id) (Storage.messages t ids : Action Session (List LogMessage)) := by
  obtain ⟨id, hmem, hid, herror⟩ := toColumns_error h
  refine ⟨id, hmem, hid, fun s => ?_⟩
  simp only [Storage.messages, List.isEmpty_iff, if_neg (List.ne_nil_of_mem hmem), Action.bind_apply, herror]
  rfl

theorem refuses_perform (o : Operation) (h : ∃ id ∈ o.ids, idMax < id) :
    ∃ id ∈ o.ids, idMax < id ∧ Refuses (.idTooLarge id) (o.perform : Action Session Answer) := by
  have single : ∀ {id : Nat}, (∃ x ∈ [id], idMax < x) → idMax < id := fun ⟨x, hx, hlarge⟩ =>
    List.mem_singleton.mp hx ▸ hlarge
  cases o with
  | init | updateStatus => simp [Operation.ids] at h
  | insertMessage t id =>
    refine ⟨id, List.mem_cons_self, single h, Refuses.map (Refuses.bind ?_ _) _⟩
    exact refuses_toColumn (single h) _
  | messages t ids =>
    obtain ⟨id, hmem, hid, hrefuses⟩ := refuses_messages t h
    exact ⟨id, hmem, hid, hrefuses.map _⟩
  | insertRegister t id | updateResult t id | appendValue t id | maxLastProcess t id | maxData t id | registers t id =>
    exact ⟨id, List.mem_cons_self, single h, (refuses_toColumn (single h) _).map _⟩

/-! ### What is sent for ids that fit -/

/-- A call that sends one statement and takes its reply. -/
def Once (x : Statement) (a : Action Session α) : Prop :=
  ∀ s, (a s).2 = ⟨s.replies.tail, s.sent ++ [.statement x]⟩

section Once

variable {x : Statement} {a : Action Session α}

theorem Once.bind (h : Once x a) {f : α → Action Session β} (hf : ∀ y s, (f y s).2 = s) : Once x (a >>= f) := fun s =>
  (Action.snd_of_pure hf).trans (h s)

theorem Once.map (h : Once x a) (f : α → β) : Once x (f <$> a) := fun s => by
  rw [Action.map_apply]
  exact h s

theorem once_execute (x : Statement) : Once x (execute x) :=
  Once.bind (fun _ => rfl) fun reply _ => by cases reply <;> rfl

theorem once_fetchOne (x : Statement) : Once x (fetchOne x) :=
  Once.bind (fetch_snd x) fun rows _ => by cases rows <;> rfl

theorem once_insertedId (x : Statement) : Once x (insertedId x) := (once_fetchOne x).bind fun _ _ => rfl

theorem bind_toColumn {id : Nat} (hid : id ≤ idMax) (f : Int → Action Session α) :
    Action.ofExcept (toColumn id) >>= f = f id := by
  rw [toColumn, if_pos hid]
  rfl

theorem once_toColumn {id : Nat} (hid : id ≤ idMax) {f : Int → Action Session α} (h : Once x (f id)) :
    Once x (Action.ofExcept (toColumn id) >>= f) := (bind_toColumn hid f).symm ▸ h

end Once

theorem once_registerExists (t : LogTable) {id : RegisterId} (hid : id ≤ idMax) :
    Once ⟨countRegister t, [.int id]⟩ (registerExists t id) :=
  once_toColumn hid ((once_fetchOne _).bind fun _ _ => Action.snd_of_pure fun _ _ => rfl)

/-- A message is inserted if its register was found. -/
theorem insertMessage_eq (t : LogTable) {id : RegisterId} (hid : id ≤ idMax) (type : MessageType) (description : String)
    (now : Instant) :
    (Storage.insertMessage t id type description now : Action Session (Option Nat)) = do
      if ← registerExists t id then
        some <$> insertedId ⟨insertMessage t, [.int id, .int type.code, .text description, .ofInstant now]⟩
      else return none := by
  refine congrArg (registerExists t id >>= ·) (funext fun found => ?_)
  cases found with
  | false => rfl
  | true => exact bind_toColumn hid _

theorem sent_perform (o : Operation) (hids : ∀ id ∈ o.ids, id ≤ idMax) (hne : o.ids ≠ []) (s : Session) :
    ∃ x, s.sent ++ [.statement x] <+: (o.perform s).2.sent := by
  have once : ∀ {x : Statement} {a : Action Session Answer}, Once x a →
      ∃ x, s.sent ++ [.statement x] <+: (a s).2.sent := fun {x} _ h => ⟨x, h s ▸ List.prefix_rfl⟩
  cases o with
  | init | updateStatus => exact absurd rfl hne
  | insertRegister t id => exact once ((once_toColumn (hids id List.mem_cons_self) (once_insertedId _)).map _)
  | updateResult t id | appendValue t id =>
    exact once ((once_toColumn (hids id List.mem_cons_self) ((once_execute _).bind fun _ _ => rfl)).map _)
  | maxLastProcess t id | maxData t id =>
    exact once ((once_toColumn (hids id List.mem_cons_self) ((once_fetchOne _).bind fun _ _ => rfl)).map _)
  | registers t id =>
    exact once ((once_toColumn (hids id List.mem_cons_self) (Once.bind (fetch_snd _) fun _ _ => rfl)).map _)
  | messages t ids =>
    have hmessages : Once (messagesStatement t ids) (Storage.messages t ids) := by
      rw [messages_eq (show ∀ id ∈ ids, id ≤ idMax from hids) hne]
      exact fetchAll_snd readMessage _
    exact once (hmessages.map _)
  | insertMessage t id type description now =>
    refine ⟨⟨countRegister t, [.int id]⟩, ?_⟩
    have hfirst := once_registerExists t (hids id List.mem_cons_self) s
    simp only [Operation.perform, Action.map_apply]
    rw [insertMessage_eq t (hids id List.mem_cons_self), Action.bind_apply]
    cases hfound : registerExists t id s with
    | mk result s₁ =>
      rw [hfound] at hfirst
      cases hfirst
      cases result with
      | error e => exact List.prefix_rfl
      | ok found =>
        cases found with
        | false => exact List.prefix_rfl
        | true =>
          have hsecond := (once_insertedId
            ⟨insertMessage t, [.int id, .int type.code, .text description, .ofInstant now]⟩).map some
            ⟨s.replies.tail, s.sent ++ [.statement ⟨countRegister t, [.int id]⟩]⟩
          exact ⟨_, (congrArg Session.sent hsecond).symm⟩

end Sql

end ProcessRuns
