import Mathlib.Logic.Basic
import ProcessRuns.Sql.LogStatements

/-! # What a server reads in a statement

A server takes the text of a statement apart into quoted identifiers, placeholders, literals and the words between them.
Where the pieces of a statement are proper, the identifiers and placeholders that are read in its text are those that it
was put together from, and the statements of a log are made of proper pieces whatever its tables are called. -/

namespace ProcessRuns.Sql

/-- What is read in a text, apart from words and literals. -/
inductive Lexeme where
  /-- A quoted identifier. -/
  | name (chars : List Char)
  /-- A placeholder, with the digits of its number. -/
  | place (digits : List Char)
deriving DecidableEq, Repr

/-- Where a reader of a text stands. -/
inductive Reading where
  | words
  | literal
  /-- Inside a quoted identifier. -/
  | name (read : List Char)
  /-- Behind the sign of a placeholder. -/
  | place (read : List Char)
deriving DecidableEq, Repr

namespace Reading

/-- Where a character among words leads to. -/
def enter (c : Char) : Reading :=
  if c = '"' then name [] else if c = '\x27' then literal else if c = '$' then place [] else words

/-- What a reader has read at a character, and where it then stands. A quote that is written twice inside quotes ends
them and begins them again. -/
def step (c : Char) : Reading → Option Lexeme × Reading
  | words => (none, enter c)
  | literal => (none, if c = '\x27' then words else literal)
  | name read => if c = '"' then (some (.name read), words) else (none, name (read ++ [c]))
  | place read => if c.isDigit then (none, place (read ++ [c])) else (some (.place read), enter c)

/-- What a reader has read in a part of a text, and where it then stands. -/
def run : Reading → List Char → List Lexeme × Reading
  | r, [] => ([], r)
  | r, c :: cs => ((r.step c).1.toList ++ (run (r.step c).2 cs).1, (run (r.step c).2 cs).2)

/-- What is still to be noted when the text is over. -/
def pending : Reading → List Lexeme
  | name read => [.name read]
  | place read => [.place read]
  | words | literal => []

/-- What is read in the rest of a text. -/
def lexemes (r : Reading) (cs : List Char) : List Lexeme := (run r cs).1 ++ (run r cs).2.pending

theorem run_append (r : Reading) (xs ys : List Char) :
    run r (xs ++ ys) = ((run r xs).1 ++ (run (run r xs).2 ys).1, (run (run r xs).2 ys).2) := by
  induction xs generalizing r with
  | nil => rfl
  | cons c xs ih => simp only [List.cons_append, run, ih, List.append_assoc]

theorem lexemes_append (r : Reading) (xs ys : List Char) :
    lexemes r (xs ++ ys) = (run r xs).1 ++ lexemes (run r xs).2 ys := by
  rw [lexemes, run_append, lexemes, List.append_assoc]

/-- What comes behind a placeholder is read as if it stood among words, unless it is another digit. -/
theorem lexemes_place (read : List Char) {cs : List Char} (stops : ∀ c ∈ cs.head?, c.isDigit = false) :
    lexemes (place read) cs = .place read :: lexemes words cs := by
  cases cs with
  | nil => rfl
  | cons c cs =>
    have hstep : (place read).step c = (some (.place read), enter c) := by
      rw [step, stops c rfl]
      rfl
    simp only [lexemes, run, hstep]
    rfl

theorem run_name {chars : List Char} (plain : '"' ∉ chars) (read : List Char) :
    run (name read) (chars ++ ['"']) = ([.name (read ++ chars)], words) := by
  induction chars generalizing read with
  | nil => simp [run, step]
  | cons c chars ih =>
    have hc : c ≠ '"' := fun h => plain (h ▸ List.mem_cons_self)
    have hchars : '"' ∉ chars := fun h => plain (List.mem_cons_of_mem c h)
    have hstep : (name read).step c = (none, name (read ++ [c])) := if_neg hc
    rw [List.cons_append, run, hstep, ih hchars, List.append_assoc]
    rfl

theorem run_place {digits : List Char} (digit : ∀ c ∈ digits, c.isDigit = true) (read : List Char) :
    run (place read) digits = ([], place (read ++ digits)) := by
  induction digits generalizing read with
  | nil => rw [run, List.append_nil]
  | cons c digits ih =>
    obtain ⟨hc, hdigits⟩ := List.forall_mem_cons.mp digit
    have hstep : (place read).step c = (none, place (read ++ [c])) := if_pos hc
    rw [run, hstep, ih hdigits, List.append_assoc]
    rfl

end Reading

/-! ### Pieces -/

/-- A name of small letters, digits and underscores. -/
def IsPlain (name : String) : Prop := name.toList.all LogTable.isPart = true

instance (name : String) : Decidable (IsPlain name) := inferInstanceAs (Decidable (_ = true))

theorem IsPlain.append {a b : String} (ha : IsPlain a) (hb : IsPlain b) : IsPlain (a ++ b) := by
  rw [IsPlain, String.toList_append, List.all_append, ha, hb]
  rfl

theorem IsPlain.unquoted {name : String} (h : IsPlain name) : '"' ∉ name.toList := fun hquote =>
  absurd (List.all_eq_true.mp h _ hquote) (by decide)

theorem isPlain_process (t : LogTable) : IsPlain t.process := by
  have hname := t.named
  rw [IsPlain]
  cases h : t.process.toList with
  | nil => rfl
  | cons c cs =>
    rw [h, LogTable.isName, Bool.and_eq_true, Bool.and_eq_true] at hname
    rw [List.all_cons, LogTable.isPart, hname.1.1, hname.1.2]
    rfl

theorem isPlain_messages (t : LogTable) : IsPlain t.messages := (isPlain_process t).append (by decide)

namespace Piece

/-- What is read of a piece, if it is one lexeme. -/
def lexeme? : Piece → Option Lexeme
  | words _ => none
  | ident name => some (.name name.toList)
  | place number => some (.place (Nat.toDigits 10 number))

/-- Words do not begin with a digit and have no identifiers or placeholders among them, and their literals are closed;
an identifier is a plain name. -/
def Proper : Piece → Prop
  | words text => (text.toList.head?.any fun c => !c.isDigit) = true ∧ Reading.words.run text.toList = ([], .words)
  | ident name => IsPlain name
  | place _ => True

instance : (p : Piece) → Decidable p.Proper
  | words _ => inferInstanceAs (Decidable (_ ∧ _))
  | ident name => inferInstanceAs (Decidable (IsPlain name))
  | place _ => inferInstanceAs (Decidable True)

/-- Every piece can stand behind a placeholder. -/
theorem Proper.stops {p : Piece} (h : p.Proper) : ∃ c cs, p.text.toList = c :: cs ∧ c.isDigit = false := by
  cases p with
  | words text =>
    obtain ⟨hhead, -⟩ := h
    cases htext : text.toList with
    | nil => simp [htext] at hhead
    | cons c cs => exact ⟨c, cs, htext, by simpa [htext] using hhead⟩
  | ident name => exact ⟨'"', name.toList ++ ['"'], by simp [text], by decide⟩
  | place number => exact ⟨'$', number.repr.toList, by simp [text], by decide⟩

end Piece

/-- All pieces are proper. -/
def Proper (pieces : List Piece) : Prop := ∀ p ∈ pieces, p.Proper

instance (pieces : List Piece) : Decidable (Proper pieces) := inferInstanceAs (Decidable (∀ p ∈ pieces, p.Proper))

theorem Proper.stops {pieces : List Piece} (h : Proper pieces) :
    ∀ c ∈ (pieces.flatMap fun p => p.text.toList).head?, c.isDigit = false := by
  cases pieces with
  | nil => exact fun c hc => by cases hc
  | cons p pieces =>
    obtain ⟨c, cs, htext, hc⟩ := (h p List.mem_cons_self).stops
    intro d hd
    rw [List.flatMap_cons, htext, List.cons_append, List.head?_cons] at hd
    exact Option.some.inj hd ▸ hc

/-- What is read in a text that is put together from proper pieces is what it was put together from. -/
theorem lexemes_of_proper {pieces : List Piece} (h : Proper pieces) :
    Reading.words.lexemes (pieces.flatMap fun p => p.text.toList) = pieces.filterMap Piece.lexeme? := by
  induction pieces with
  | nil => rfl
  | cons p pieces ih =>
    obtain ⟨hp, hpieces⟩ := List.forall_mem_cons.mp h
    rw [List.flatMap_cons, Reading.lexemes_append]
    cases p with
    | words text =>
      obtain ⟨-, hrun⟩ := hp
      rw [Piece.text, hrun, ih hpieces]
      rfl
    | ident name =>
      have htext : (Piece.ident name).text.toList = '"' :: (name.toList ++ ['"']) := by simp [Piece.text]
      have hrun : Reading.words.run (Piece.ident name).text.toList = ([.name name.toList], .words) := by
        rw [htext]
        exact Reading.run_name hp.unquoted []
      rw [hrun, ih hpieces]
      rfl
    | place number =>
      have htext : (Piece.place number).text.toList = '$' :: Nat.toDigits 10 number := by simp [Piece.text, Nat.repr]
      have hrun : Reading.words.run (Piece.place number).text.toList = ([], .place (Nat.toDigits 10 number)) := by
        rw [htext]
        exact Reading.run_place (fun c hc => Nat.isDigit_of_mem_toDigits (by decide) (by decide) hc) []
      rw [hrun, Reading.lexemes_place _ (Proper.stops hpieces), ih hpieces]
      rfl

/-! ### Building statements -/

section Builders

open Piece

variable {groups : List (List Piece)} {table column function index : String} {idents : List String}
  {what condition constraint : List Piece} {first count k : Nat}

@[simp] theorem proper_nil : Proper [] := fun _ h => nomatch h

@[simp] theorem proper_cons {p : Piece} {pieces : List Piece} : Proper (p :: pieces) ↔ p.Proper ∧ Proper pieces :=
  List.forall_mem_cons

@[simp] theorem proper_append {xs ys : List Piece} : Proper (xs ++ ys) ↔ Proper xs ∧ Proper ys :=
  List.forall_mem_append

@[simp] theorem proper_ident : (ident column).Proper ↔ IsPlain column := Iff.rfl

@[simp] theorem proper_place : (place k).Proper := trivial

theorem mem_commas {p : Piece} (hcomma : p ≠ words ", ") : p ∈ commas groups ↔ ∃ g ∈ groups, p ∈ g := by
  rw [commas]
  induction groups with
  | nil => simp
  | cons g groups ih =>
    cases groups with
    | nil => simp
    | cons h groups =>
      rw [List.intersperse_cons_cons, List.flatten_cons, List.flatten_cons, List.mem_append, List.mem_append, ih]
      simp [hcomma]

theorem proper_commas (h : ∀ g ∈ groups, Proper g) : Proper (commas groups) := by
  intro p hp
  by_cases hcomma : p = words ", "
  · rw [hcomma]
    decide
  · obtain ⟨g, hg, hpg⟩ := (mem_commas hcomma).mp hp
    exact h g hg p hpg

theorem proper_names (h : ∀ i ∈ idents, IsPlain i) : Proper (names idents) :=
  proper_commas (List.forall_mem_map.mpr fun i hi => by simp [h i hi])

theorem proper_placesFrom : Proper (placesFrom first count) :=
  proper_commas (List.forall_mem_map.mpr fun _ _ => by simp)

theorem proper_equals (h : IsPlain column) : Proper (equals column k) := by
  simp +decide [equals, h]

theorem proper_isAmong (h : IsPlain column) : Proper (isAmong column first count) := by
  simp +decide [isAmong, h, proper_placesFrom]

theorem proper_insertInto (htable : IsPlain table) (hcolumns : ∀ c ∈ idents, IsPlain c) :
    Proper (insertInto table idents) := by
  simp +decide [insertInto, htable, proper_names hcolumns, proper_placesFrom]

theorem proper_update (htable : IsPlain table) (hcolumns : ∀ c ∈ idents, IsPlain c) (hcondition : Proper condition) :
    Proper (update table idents condition) := by
  have hgroups : Proper (commas ((idents.zipIdx 1).map fun c => equals c.1 c.2)) :=
    proper_commas (List.forall_mem_map.mpr fun c hc => proper_equals (hcolumns _ (List.fst_mem_of_mem_zipIdx hc)))
  simp +decide [update, htable, hgroups, hcondition]

theorem proper_select (hwhat : Proper what) (htable : IsPlain table) (hcondition : Proper condition) :
    Proper (select what table condition) := by
  simp +decide [select, hwhat, htable, hcondition]

theorem proper_createTable {columns : List ColumnType} (htable : IsPlain table)
    (hcolumns : ∀ c ∈ columns, IsPlain c.name ∧ (words (" " ++ c.type)).Proper) (hconstraint : Proper constraint) :
    Proper (createTable table columns constraint) := by
  have hgroups : Proper (commas (columns.map fun c => [ident c.name, words (" " ++ c.type)])) :=
    proper_commas (List.forall_mem_map.mpr fun c hc => by simp [hcolumns c hc])
  simp +decide [createTable, htable, hgroups, hconstraint]

theorem proper_createIndex (hindex : IsPlain index) (htable : IsPlain table) (hcolumn : IsPlain column) :
    Proper (createIndex index table column) := by
  simp +decide [createIndex, hindex, htable, hcolumn]

@[simp] theorem place_mem_commas {α : Type} {f : α → List Piece} {items : List α} :
    place k ∈ commas (items.map f) ↔ ∃ x ∈ items, place k ∈ f x := by
  simp only [mem_commas (show place k ≠ words ", " by simp), List.mem_map, exists_exists_and_eq_and]

@[simp] theorem place_mem_names : place k ∉ names idents := by
  simp [names]

@[simp] theorem place_mem_placesFrom : place k ∈ placesFrom first count ↔ first ≤ k ∧ k < first + count := by
  simp [placesFrom]

@[simp] theorem place_mem_equals {number : Nat} : place k ∈ equals column number ↔ k = number := by
  simp [equals]

@[simp] theorem place_mem_isAmong : place k ∈ isAmong column first count ↔ first ≤ k ∧ k < first + count := by
  simp [isAmong]

@[simp] theorem place_mem_applied : place k ∉ applied function column := by
  simp [applied]

@[simp] theorem place_mem_insertInto : place k ∈ insertInto table idents ↔ 1 ≤ k ∧ k ≤ idents.length := by
  have hplaces : place k ∈ insertInto table idents ↔ 1 ≤ k ∧ k < 1 + idents.length := by simp [insertInto]
  rw [hplaces]
  omega

@[simp] theorem place_mem_update :
    place k ∈ update table idents condition ↔ (1 ≤ k ∧ k ≤ idents.length) ∨ place k ∈ condition := by
  have hset : (∃ c ∈ idents.zipIdx 1, k = c.2) ↔ 1 ≤ k ∧ k ≤ idents.length := by
    have hnumbers : k ∈ (idents.zipIdx 1).map Prod.snd ↔ 1 ≤ k ∧ k < 1 + idents.length := by
      rw [List.zipIdx_map_snd, List.mem_range'_1]
    simp only [List.mem_map, eq_comm (b := k)] at hnumbers
    rw [hnumbers]
    omega
  simp [update, hset]

@[simp] theorem place_mem_select : place k ∈ select what table condition ↔ place k ∈ what ∨
    place k ∈ condition := by
  simp [select]

@[simp] theorem place_mem_createTable {columns : List ColumnType} :
    place k ∈ createTable table columns constraint ↔ place k ∈ constraint := by
  simp [createTable]

@[simp] theorem place_mem_createIndex : place k ∉ createIndex index table column := by
  simp [createIndex]

end Builders

/-! ### The statements of a log -/

/-- The pieces are proper, and the placeholders among them are those of this many parameters. -/
structure Bound (pieces : List Piece) (count : Nat) : Prop where
  proper : Proper pieces
  places : ∀ k, .place k ∈ pieces ↔ 1 ≤ k ∧ k ≤ count

section Bound

open Piece

theorem Bound.of_none {pieces : List Piece} (proper : Proper pieces) (none : ∀ k, place k ∉ pieces) : Bound pieces 0 :=
  ⟨proper, fun k => ⟨fun h => absurd h (none k), fun h => by omega⟩⟩

variable (t : LogTable)

theorem bound_createAll : ∀ s ∈ createAll t, Bound s.pieces s.params.length := by
  have hp := isPlain_process t
  have hm := isPlain_messages t
  have hkey : IsPlain (t.process ++ "_log_fk") := hp.append (by decide)
  simp only [createAll, createRegisters, createMessages, List.forall_mem_cons, List.length_nil]
  exact ⟨.of_none (proper_createTable hp (by decide) proper_nil) (by simp),
    .of_none (proper_createIndex (hp.append (by decide)) hp (by decide)) (by simp),
    .of_none (proper_createIndex (hp.append (by decide)) hp (by decide)) (by simp),
    .of_none (proper_createTable hm (by decide) (by simp +decide [hp, hkey])) (by simp),
    .of_none (proper_createIndex (hm.append (by decide)) hm (by decide)) (by simp), by simp⟩

theorem bound_insertRegister : Bound (insertRegister t) 4 where
  proper := proper_insertInto (isPlain_process t) (by decide)
  places k := by simp [insertRegister]

theorem bound_updateResult : Bound (updateResult t) 4 where
  proper := proper_update (isPlain_process t) (by decide) (proper_equals (by decide))
  places k := by
    simp only [updateResult, place_mem_update, place_mem_equals, List.length_cons, List.length_nil]
    omega

theorem bound_countRegister : Bound (countRegister t) 1 where
  proper := proper_select (by decide) (isPlain_process t) (proper_equals (by decide))
  places k := by
    simp only [countRegister, place_mem_select, place_mem_applied, place_mem_equals, false_or]
    omega

theorem bound_insertMessage : Bound (insertMessage t) 4 where
  proper := proper_insertInto (isPlain_messages t) (by decide)
  places k := by simp [insertMessage]

theorem bound_appendValue : Bound (appendValue t) 3 where
  proper := by simp +decide [appendValue, isPlain_process t]
  places k := by
    have hplaces : place k ∈ appendValue t ↔ k = 1 ∨ k = 2 ∨ k = 3 := by
      simp [appendValue, storedList, storedValues]
    rw [hplaces]
    omega

theorem bound_latest {column : String} (h : IsPlain column) : Bound (latest t column) 1 where
  proper := proper_select (by simp +decide [applied, h]) (isPlain_process t) (proper_equals (by decide))
  places k := by
    simp only [latest, place_mem_select, place_mem_applied, place_mem_equals, false_or]
    omega

theorem bound_page : Bound (page t) 3 where
  proper := by
    have hcolumns : ∀ c ∈ registerColumns, IsPlain c := by decide
    have hcondition : Proper (equals "process_id" 1) := by decide
    simp +decide [page, proper_select (proper_names hcolumns) (isPlain_process t) hcondition]
  places k := by
    have hplaces : place k ∈ page t ↔ k = 1 ∨ k = 2 ∨ k = 3 := by simp [page]
    rw [hplaces]
    omega

theorem bound_messagesOf (count : Nat) : Bound (messagesOf t count) count where
  proper := by
    have hcolumns : ∀ c ∈ messageColumns, IsPlain c := by decide
    have hcondition : Proper (isAmong "log_id" 1 count) := proper_isAmong (by decide)
    simp +decide [messagesOf, proper_select (proper_names hcolumns) (isPlain_messages t) hcondition]
  places k := by
    have hplaces : place k ∈ messagesOf t count ↔ 1 ≤ k ∧ k < 1 + count := by simp [messagesOf]
    rw [hplaces]
    omega

theorem bound_updateStatus (count : Nat) : Bound (updateStatus t count) (count + 1) where
  proper := proper_update (isPlain_process t) (by decide) (proper_isAmong (by decide))
  places k := by
    simp only [updateStatus, place_mem_update, place_mem_isAmong, List.length_singleton]
    omega

end Bound

namespace Statement

/-- What is read in the text of a statement. -/
def lexemes (s : Statement) : List Lexeme := Reading.words.lexemes s.text.toList

/-- The quoted identifiers in the text of a statement are plain names, and the placeholders in it are those of its
parameters, numbered from one. -/
structure Closed (s : Statement) : Prop where
  names : ∀ chars, .name chars ∈ s.lexemes → ∀ c ∈ chars, LogTable.isPart c
  places : ∀ digits, .place digits ∈ s.lexemes ↔
    ∃ k, (1 ≤ k ∧ k ≤ s.params.length) ∧ digits = Nat.toDigits 10 k

theorem lexemes_eq {s : Statement} (h : Proper s.pieces) : s.lexemes = s.pieces.filterMap Piece.lexeme? := by
  have htext : s.text.toList = s.pieces.flatMap fun p => p.text.toList := by
    simp [text, String.toList_join, List.flatMap_map]
  rw [lexemes, htext, lexemes_of_proper h]

theorem closed_of_bound {s : Statement} (h : Bound s.pieces s.params.length) : s.Closed where
  names chars hchars c hc := by
    rw [lexemes_eq h.proper, List.mem_filterMap] at hchars
    obtain ⟨p, hp, hlexeme⟩ := hchars
    cases p with
    | ident name =>
      cases hlexeme
      exact List.all_eq_true.mp (h.proper _ hp) c hc
    | words text => cases hlexeme
    | place number => cases hlexeme
  places digits := by
    rw [lexemes_eq h.proper, List.mem_filterMap]
    constructor
    · rintro ⟨p, hp, hlexeme⟩
      cases p with
      | place number =>
        cases hlexeme
        exact ⟨number, (h.places number).mp hp, rfl⟩
      | words text => cases hlexeme
      | ident name => cases hlexeme
    · rintro ⟨k, hk, rfl⟩
      exact ⟨.place k, (h.places k).mpr hk, rfl⟩

end Statement

end ProcessRuns.Sql
