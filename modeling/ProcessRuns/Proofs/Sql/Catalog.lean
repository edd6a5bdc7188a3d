import ProcessRuns.Proofs.Sql.Bindings

/-! # The relations of a server

A server keeps the first 63 bytes of an identifier, and it creates nothing under a name that a table or an index has
already. Of the identifiers that are sent when a log is created, that of the index of the messages is the longest, by 17
characters longer than the name of the log. -/

namespace ProcessRuns

namespace Sql

open Session

/-- The longest identifier that a server keeps, in bytes. -/
def identifierMax : Nat := 63

/-- As many characters from the front as there is room for. -/
def cut : Nat → List Char → List Char
  | _, [] => []
  | room, c :: cs => if c.utf8Size ≤ room then c :: cut (room - c.utf8Size) cs else []

/-- An identifier as a server keeps it. -/
def kept (name : String) : String := String.ofList (cut identifierMax name.toList)

/-- A table, or an index on a column of one. -/
inductive Relation where
  | table (name : String)
  | index (name owner column : String)
deriving DecidableEq, Repr

namespace Relation

/-- The name under which a relation was asked for. -/
def name : Relation → String
  | table name => name
  | index name _ _ => name

/-- The relation as the server keeps it. -/
def kept : Relation → Relation
  | table name => table (Sql.kept name)
  | index name owner column => index (Sql.kept name) (Sql.kept owner) (Sql.kept column)

theorem name_kept (r : Relation) : r.kept.name = Sql.kept r.name := by cases r <;> rfl

end Relation

/-- The relation that a statement is to create where it is missing. -/
def Statement.creates? (x : Statement) : Option Relation :=
  match x.pieces with
  | .words "CREATE TABLE IF NOT EXISTS " :: .ident name :: _ => some (.table name)
  | .words "CREATE INDEX IF NOT EXISTS " :: .ident name :: .words " ON " :: .ident owner :: .words " (" ::
    .ident column :: _ => some (.index name owner column)
  | _ => none

/-- The relation that is created by what was sent. -/
def Sent.creates? : Sent → Option Relation
  | statement x => x.creates?
  | begin | commit => none

/-- The tables and indexes of a server, oldest first. -/
abbrev Catalog : Type := List Relation

namespace Catalog

/-- The names that are taken. -/
def names (c : Catalog) : List String := c.map Relation.name

/-- Creates a relation, unless its name is taken. -/
def create (c : Catalog) (r : Relation) : Catalog := if r.kept.name ∈ c.names then c else c ++ [r.kept]

/-- The relations after everything that was sent. -/
def after (c : Catalog) (sent : List Sent) : Catalog := (sent.filterMap Sent.creates?).foldl create c

/-! ### What is created -/

variable {c : Catalog} {r : Relation}

theorem create_of_mem (h : r.kept.name ∈ c.names) : c.create r = c := if_pos h

theorem create_of_not_mem (h : r.kept.name ∉ c.names) : c.create r = c ++ [r.kept] := if_neg h

/-- Relations are created in turn for as long as their names are new. -/
theorem foldl_create {relations : List Relation} (hnew : ∀ r ∈ relations, Sql.kept r.name ∉ c.names)
    (h : (relations.map fun r => Sql.kept r.name).Nodup) :
    relations.foldl create c = c ++ relations.map Relation.kept := by
  induction relations generalizing c with
  | nil => simp
  | cons r relations ih =>
    obtain ⟨hr, hrest⟩ := List.nodup_cons.mp h
    have hfirst : r.kept.name ∉ c.names := r.name_kept ▸ hnew r List.mem_cons_self
    have hlater : ∀ r' ∈ relations, Sql.kept r'.name ∉ names (c ++ [r.kept]) := by
      intro r' hr' hmem
      rw [names, List.map_append, List.map_singleton, List.mem_append, List.mem_singleton, Relation.name_kept] at hmem
      rcases hmem with hmem | hmem
      · exact hnew r' (List.mem_cons_of_mem r hr') hmem
      · exact hr (List.mem_map.mpr ⟨r', hr', hmem⟩)
    rw [List.foldl_cons, create_of_not_mem hfirst, ih hlater hrest, List.map_cons, List.append_assoc]
    rfl

end Catalog

end Sql

/-- The tables and indexes of a log. -/
def LogTable.relations (t : LogTable) : List Sql.Relation :=
  [.table t.process, .index (t.process ++ "_pid_idx") t.process "process_id",
    .index (t.process ++ "_status_idx") t.process "status", .table t.messages,
    .index (t.messages ++ "_log_idx") t.messages "log_id"]

namespace Sql

open Session

/-! ### Names of a log -/

theorem utf8Size_of_isPart {c : Char} (h : LogTable.isPart c = true) : c.utf8Size = 1 := by
  rw [Char.utf8Size_eq_one_iff, UInt32.le_iff_toNat_le]
  simp only [LogTable.isPart, LogTable.isStart, Bool.or_eq_true, Bool.and_eq_true, decide_eq_true_eq, beq_iff_eq,
    Char.le_def, UInt32.le_iff_toNat_le] at h
  rcases h with (⟨-, hz⟩ | rfl) | ⟨-, hnine⟩
  · exact hz.trans (by decide)
  · decide
  · exact hnine.trans (by decide)

theorem cut_of_oneByte (room : Nat) {cs : List Char} (h : ∀ c ∈ cs, c.utf8Size = 1) : cut room cs = cs.take room := by
  induction cs generalizing room with
  | nil => rw [cut, List.take_nil]
  | cons c cs ih =>
    rw [cut, h c List.mem_cons_self]
    cases room with
    | zero => rfl
    | succ room =>
      rw [if_pos (Nat.le_add_left 1 room), Nat.add_sub_cancel, ih room fun d hd => h d (List.mem_cons_of_mem c hd),
        List.take_succ_cons]

theorem utf8ByteSize_of_oneByte {cs : List Char} (h : ∀ c ∈ cs, c.utf8Size = 1) :
    (String.ofList cs).utf8ByteSize = cs.length := by
  induction cs with
  | nil => rfl
  | cons c cs ih =>
    have hsplit : String.ofList (c :: cs) = String.singleton c ++ String.ofList cs := by
      rw [String.singleton_eq_ofList, ← String.ofList_append, List.singleton_append]
    rw [hsplit, String.utf8ByteSize_append, String.utf8ByteSize_singleton, h c List.mem_cons_self,
      ih fun d hd => h d (List.mem_cons_of_mem c hd), List.length_cons, Nat.add_comm]

theorem IsPlain.oneByte {name : String} (h : IsPlain name) : ∀ c ∈ name.toList, c.utf8Size = 1 := fun c hc =>
  utf8Size_of_isPart (List.all_eq_true.mp h c hc)

theorem IsPlain.utf8ByteSize {name : String} (h : IsPlain name) : name.utf8ByteSize = name.length := by
  rw [← String.length_toList, ← utf8ByteSize_of_oneByte h.oneByte, String.ofList_toList]

theorem IsPlain.kept {name : String} (h : IsPlain name) :
    kept name = String.ofList (name.toList.take identifierMax) := by
  rw [Sql.kept, cut_of_oneByte identifierMax h.oneByte]

variable (t : LogTable)

/-- A name has a character at least and 54 at most. -/
theorem length_process : 0 < t.process.length ∧ t.process.length ≤ LogTable.maxLength := by
  have hname := t.named
  rw [← String.length_toList]
  cases h : t.process.toList with
  | nil =>
    rw [h] at hname
    cases hname
  | cons c cs =>
    rw [h, LogTable.isName, Bool.and_eq_true, decide_eq_true_eq] at hname
    exact ⟨Nat.succ_pos _, hname.2⟩

/-- What is put behind the name of a log for the names of its relations. -/
def suffixes : List String := ["", "_pid_idx", "_status_idx", "_messages", "_messages_log_idx"]

theorem messagesIndex : t.messages ++ "_log_idx" = t.process ++ "_messages_log_idx" := by
  rw [LogTable.messages, String.append_assoc]
  rfl

theorem names_relations : t.relations.map Relation.name = suffixes.map (t.process ++ ·) := by
  have hfirst : t.process = t.process ++ "" := String.append_empty.symm
  rw [suffixes, LogTable.relations]
  simp only [List.map_cons, List.map_nil, Relation.name, messagesIndex]
  rw [← hfirst]
  rfl

/-- Of a name with a suffix the name is kept, and so much of the suffix as there is room for. -/
theorem kept_append {suffix : String} (h : IsPlain suffix) :
    kept (t.process ++ suffix) =
      String.ofList (t.process.toList ++ suffix.toList.take (identifierMax - t.process.length)) := by
  have hshort : t.process.toList.length ≤ identifierMax := by
    rw [String.length_toList]
    exact (length_process t).2.trans (by decide)
  rw [((isPlain_process t).append h).kept, String.toList_append, List.take_append, List.take_of_length_le hshort,
    String.length_toList]

/-- With nine characters of them kept, two suffixes are the same only if these nine are all. -/
theorem nodup_take_suffixes {room : Nat} (h : 9 ≤ room) :
    (suffixes.map fun suffix => suffix.toList.take room).Nodup ↔ room ≠ 9 := by
  -- No suffix has more than 17 characters, so that few cases differ.
  have hlong : ∀ suffix ∈ suffixes, suffix.toList.length ≤ 17 := by decide
  have hcut : (suffixes.map fun suffix => suffix.toList.take room) =
      suffixes.map fun suffix => suffix.toList.take (min room 17) := by
    refine List.map_congr_left fun suffix hsuffix => ?_
    rw [List.take_eq_take_iff]
    have := hlong suffix hsuffix
    omega
  have hfew : ∀ n < 18, 9 ≤ n → ((suffixes.map fun suffix => suffix.toList.take n).Nodup ↔ n ≠ 9) := by decide
  rw [hcut, hfew (min room 17) (by omega) (by omega)]
  omega

theorem isPlain_suffixes : ∀ suffix ∈ suffixes, IsPlain suffix := by decide

theorem kept_relations : (t.relations.map fun r => kept r.name) =
    (suffixes.map fun suffix => suffix.toList.take (identifierMax - t.process.length)).map
      fun rest => String.ofList (t.process.toList ++ rest) := by
  have hnames : (t.relations.map fun r => kept r.name) = (t.relations.map Relation.name).map kept := by
    rw [List.map_map]
    rfl
  rw [hnames, names_relations, List.map_map, List.map_map]
  exact List.map_congr_left fun suffix hsuffix => kept_append t (isPlain_suffixes suffix hsuffix)

theorem behind_injective (front : List Char) : Function.Injective fun rest => String.ofList (front ++ rest) :=
  fun _ _ h => List.append_cancel_left (String.ofList_injective h)

theorem nodup_kept : (t.relations.map fun r => kept r.name).Nodup ↔ t.process.length ≤ 53 := by
  have hlength := (length_process t).2
  simp only [LogTable.maxLength] at hlength
  rw [kept_relations, List.nodup_map_iff (behind_injective _), nodup_take_suffixes] <;> simp only [identifierMax] <;>
    omega

/-- Behind a name of 54 characters nine of a suffix are kept: the index of the messages has the name of their table. -/
theorem after_longest (h : t.process.length = 54) {c : Catalog} (hc : ∀ r ∈ t.relations, kept r.name ∉ c.names) :
    t.relations.foldl Catalog.create c = c ++ (t.relations.map Relation.kept).take 4 := by
  have hkept := kept_relations t
  rw [h] at hkept
  have hfour : ((t.relations.take 4).map fun r => kept r.name).Nodup := by
    rw [List.map_take, hkept, ← List.map_take, List.nodup_map_iff (behind_injective _)]
    decide
  have hsame : kept (t.messages ++ "_log_idx") = kept t.messages := by
    have hindex : some (kept (t.messages ++ "_log_idx")) =
        some (String.ofList (t.process.toList ++ "_messages_log_idx".toList.take 9)) := congrArg (·[4]?) hkept
    have htable : some (kept t.messages) = some (String.ofList (t.process.toList ++ "_messages".toList.take 9)) :=
      congrArg (·[3]?) hkept
    have hnine : "_messages_log_idx".toList.take 9 = "_messages".toList.take 9 := by decide
    rw [Option.some.inj hindex, Option.some.inj htable, hnine]
  have hsplit : t.relations = t.relations.take 4 ++ [.index (t.messages ++ "_log_idx") t.messages "log_id"] := rfl
  have hfirst := Catalog.foldl_create (fun r hr => hc r (List.mem_of_mem_take hr)) hfour
  rw [hsplit, List.foldl_append, hfirst, ← hsplit, List.map_take]
  -- When the turn comes to the index, the table has its name.
  refine Catalog.create_of_mem ?_
  rw [Relation.name_kept, Relation.name, hsame, Catalog.names, List.map_append]
  exact List.mem_append_right _ (List.mem_cons_of_mem _
    (List.mem_cons_of_mem _ (List.mem_cons_of_mem _ List.mem_cons_self)))

/-- An identifier of the statements for the relations of a log is a column, or the name of the log with a suffix. -/
theorem identifiers_createAll : ∀ x ∈ createAll t, ∀ name ∈ x.identifiers,
    name ∈ registerColumns ++ messageColumns ∨ ∃ suffix ∈ "_log_fk" :: suffixes, name = t.process ++ suffix := by
  have hidentifiers : (createAll t).flatMap Statement.identifiers =
      [t.process, "id", "process_id", "status", "start_timestamp", "data_timestamp", "last_process_timestamp", "data",
        t.process ++ "_pid_idx", t.process, "process_id", t.process ++ "_status_idx", t.process, "status",
        t.messages, "id", "log_id", "type", "description", "timestamp", t.process ++ "_log_fk", "log_id", t.process,
        "id", t.messages ++ "_log_idx", t.messages, "log_id"] := rfl
  have hall : ∀ name ∈ (createAll t).flatMap Statement.identifiers,
      name ∈ registerColumns ++ messageColumns ∨ ∃ suffix ∈ "_log_fk" :: suffixes, name = t.process ++ suffix := by
    rw [hidentifiers, messagesIndex, LogTable.messages]
    simp [registerColumns, messageColumns, suffixes]
  exact fun x hx name hname => hall name (List.mem_flatMap.mpr ⟨x, hx, hname⟩)

theorem executeAll_ok {statements : List Statement} {s : Session} (h : (executeAll statements s).1 = .ok ()) :
    (executeAll statements s).2.sent = s.sent ++ statements.map Sent.statement := by
  induction statements generalizing s with
  | nil => exact (List.append_nil _).symm
  | cons statement statements ih =>
    have hfirst := once_execute statement s
    rw [executeAll, Action.bind_apply] at h ⊢
    cases hs : execute statement s with
    | mk result s₁ =>
      rw [hs] at hfirst h
      cases hfirst
      cases result with
      | error e => cases h
      | ok count =>
        rw [List.map_cons, ih h]
        simp

theorem transaction_ok {statements : List Statement} {s : Session} (h : (transaction statements s).1 = .ok ()) :
    (transaction statements s).2.sent = s.sent ++ (.begin :: statements.map .statement ++ [.commit]) := by
  have hbegun : transaction statements s =
      (executeAll statements >>= fun _ => note .commit) ⟨s.replies, s.sent ++ [.begin]⟩ := rfl
  rw [hbegun, Action.bind_apply] at h ⊢
  cases hall : executeAll statements ⟨s.replies, s.sent ++ [.begin]⟩ with
  | mk result s₁ =>
    rw [hall] at h
    cases result with
    | error e => cases h
    | ok _ =>
      have hsent := executeAll_ok (congrArg Prod.fst hall)
      simp only [hall] at hsent
      simp [note, hsent]

/-- A statement of the creation of a log has an identifier that is by 17 characters longer than its name, and none
that is longer than both this and 22 characters. -/
theorem identifiers_short_iff : (∀ x ∈ createAll t, ∀ name ∈ x.identifiers, name.utf8ByteSize ≤ identifierMax) ↔
    t.process.length ≤ 46 := by
  have hsize : ∀ {suffix : String}, IsPlain suffix →
      (t.process ++ suffix).utf8ByteSize = t.process.length + suffix.length := fun h => by
    rw [((isPlain_process t).append h).utf8ByteSize, String.length_append]
  constructor
  · intro h
    have hindex := h ⟨createIndex (t.messages ++ "_log_idx") t.messages "log_id", []⟩ (by simp [createAll])
      (t.messages ++ "_log_idx") List.mem_cons_self
    rw [messagesIndex, hsize (by decide)] at hindex
    exact Nat.le_of_add_le_add_right hindex
  · intro h x hx name hname
    rcases identifiers_createAll t x hx name hname with hcolumn | ⟨suffix, hsuffix, rfl⟩
    · have hcolumns : ∀ name ∈ registerColumns ++ messageColumns, name.utf8ByteSize ≤ identifierMax := by decide
      exact hcolumns name hcolumn
    · have hlengths : ∀ suffix ∈ "_log_fk" :: suffixes, IsPlain suffix ∧ suffix.length ≤ 17 := by decide
      rw [hsize (hlengths suffix hsuffix).1]
      exact Nat.add_le_add h (hlengths suffix hsuffix).2

/-- The names of all tables and indexes of a log, and every other identifier, are kept as they are for as long as the
name of the log has 46 characters. All of them are created, under names of their own, for as long as it has 53; with
one more the index of the messages is not. -/
theorem log_is_created_whole_iff {s : Session} (h : (Storage.init t s).1 = .ok ()) {c : Catalog}
    (hc : ∀ r ∈ t.relations, kept r.name ∉ c.names) :
    ∃ sent, (Storage.init t s).2.sent = s.sent ++ sent ∧
      ((∀ x, .statement x ∈ sent → ∀ name ∈ x.identifiers, name.utf8ByteSize ≤ identifierMax) ↔
        t.process.length ≤ 46) ∧
      ((t.relations.map fun r => kept r.name).Nodup ∧ c.after sent = c ++ t.relations.map Relation.kept ↔
        t.process.length ≤ 53) ∧
      (t.process.length = 54 → c.after sent = c ++ (t.relations.map Relation.kept).take 4) := by
  have hcreated : ∀ c : Catalog, c.after (.begin :: (createAll t).map .statement ++ [.commit]) =
      t.relations.foldl Catalog.create c := fun _ => rfl
  refine ⟨_, transaction_ok h, ?_, ?_, ?_⟩
  · rw [← identifiers_short_iff]
    simp
  · rw [hcreated, nodup_kept]
    exact ⟨And.left, fun hlength => ⟨hlength, Catalog.foldl_create hc ((nodup_kept t).mpr hlength)⟩⟩
  · intro hlength
    rw [hcreated]
    exact after_longest t hlength hc

/-- With the longest name there is no index of the messages on a server that was empty. -/
theorem log_is_created_whole_iff_of_longest :
    let t : LogTable := ⟨String.ofList (List.replicate 54 'a'), by decide⟩
    let s : Session := ⟨[], []⟩
    (Storage.init t s).1 = .ok () ∧ ∃ sent, (Storage.init t s).2.sent = s.sent ++ sent ∧
      (¬ ∀ x, .statement x ∈ sent → ∀ name ∈ x.identifiers, name.utf8ByteSize ≤ identifierMax) ∧
      Catalog.after [] sent = (t.relations.map Relation.kept).take 4 := by
  intro t s
  have hok : (Storage.init t s).1 = .ok () := rfl
  have hlength : t.process.length = 54 := by decide
  obtain ⟨sent, hsent, hshort, -, hlongest⟩ := log_is_created_whole_iff t hok (c := []) (by simp [Catalog.names])
  refine ⟨hok, sent, hsent, fun h => ?_, hlongest hlength⟩
  rw [hshort, hlength] at h
  exact absurd h (by decide)

end Sql

end ProcessRuns
