import Mathlib
import ProcessRuns.Proofs.Json.Whole
import ProcessRuns.Proofs.Log.Operations
import ProcessRuns.Proofs.Log.Values

/-! # Adding a value to any text

Whatever JSON value a text holds, with numbers that are integers of 64 bits, a value that is added changes one entry
of its object and no other, and two values under different tags leave the same text in either order. -/

namespace ProcessRuns

open Json (Document Readable)

namespace Values

/-- There is no text, an empty one, or the text of a value whose numbers are integers of 64 bits. -/
def Whole (data : Option String) : Prop :=
  ∀ text ∈ data, text ≠ "" → ∃ d, Document.read? text = some d ∧ d.Whole ∧ d.toJson?.isSome

/-- What the object of a text has under a key: the value of the last member that has it. Other texts have nothing. -/
def under? (data : Option String) (key : String) : Option Json :=
  ((data.bind Document.read?).bind (·.last? key)).bind (·.toJson?)

/-- The items of a list; what is no list has none. -/
def itemsOf : Option Json → List Json
  | some (.array items) => items
  | _ => []

/-- The members of an object; what is no object has none. -/
def membersOf : Json → Dictionary Json
  | .object members => members
  | _ => []

/-- The members of an object after an addition. -/
def added (members : Dictionary Json) (tag value : String) : Dictionary Json :=
  members.set tag (.array (itemsOf (members.get? tag) ++ [.text value]))

variable {data : Option String} {members : Dictionary Json} {tag value : String}

/-! ### The object of a text -/

theorem object_of_read {text : String} (hempty : text ≠ "") {d : Document} (hread : Document.read? text = some d)
    {v : Json} (hv : d.toJson? = some v) : object (some text) = .ok (membersOf v) := by
  rw [object, if_neg (String.isEmpty_iff.not.mpr hempty), hread, Option.bind_some, hv]
  cases v <;> rfl

/-- The value of a document has the members that are the last of their keys. -/
theorem get?_membersOf {d : Document} (hwhole : d.Whole) {v : Json} (hv : d.toJson? = some v) (key : String) :
    (membersOf v).get? key = (d.last? key).bind (·.toJson?) := by
  cases d with
  | null => cases hv; rfl
  | bool b => cases hv; rfl
  | text s =>
    obtain ⟨text, -, rfl⟩ := Option.map_eq_some_iff.mp hv
    rfl
  | array items =>
    obtain ⟨-, values, -, rfl⟩ := Json.array_of_toJsonWithin? hv
    rfl
  | number l =>
    have hnumber := hv.symm.trans (Json.Literal.Whole.toJson? hwhole)
    rw [Option.some.injEq] at hnumber
    subst hnumber
    split
    · split <;> rfl
    · rfl
  | object ds =>
    obtain ⟨-, entries, hentries, rfl⟩ := Json.object_of_toJsonWithin? hv
    have hlast := Json.get?_members hentries key
    cases hd : (Document.object ds).last? key with
    | none =>
      rw [hd, Option.map_none, Option.map_eq_none_iff] at hlast
      exact hlast
    | some d =>
      rw [hd, Option.map_some] at hlast
      obtain ⟨w, hw, hvalue⟩ := Option.map_eq_some_iff.mp hlast
      -- The limit for a member is lower than the one for the object.
      rw [Option.bind_some, Document.toJson?, Json.toJsonWithin?_mono d (Nat.sub_le _ 1) hvalue.symm]
      exact hw

theorem readable_membersOf {v : Json} (h : Readable Document.depthLimit v) :
    Readable Document.depthLimit (.object (membersOf v)) := by
  cases v with
  | object members => exact h
  | _ => exact ⟨by decide, .nil, trivial⟩

/-- The object of a text can be written, and has the values of the last members. -/
theorem exists_object (h : Whole data) : ∃ members, object data = .ok members ∧
    Readable Document.depthLimit (.object members) ∧ ∀ key, members.get? key = under? data key := by
  cases data with
  | none => exact ⟨[], rfl, ⟨by decide, .nil, trivial⟩, fun _ => rfl⟩
  | some text =>
    by_cases hempty : text = ""
    · subst hempty
      exact ⟨[], rfl, ⟨by decide, .nil, trivial⟩, fun _ => rfl⟩
    · obtain ⟨d, hread, hwhole, hsome⟩ := h text rfl hempty
      obtain ⟨v, hv⟩ := Option.isSome_iff_exists.mp hsome
      refine ⟨membersOf v, object_of_read hempty hread hv, readable_membersOf (Json.readable_of_whole d hwhole hv), ?_⟩
      intro key
      rw [get?_membersOf hwhole hv, under?, Option.bind_some, hread, Option.bind_some]

/-! ### The text after an addition -/

theorem listed_eq (members : Dictionary Json) (tag : String) : listed members tag = itemsOf (members.get? tag) := rfl

theorem append_eq (h : object data = .ok members) (tag value : String) :
    append data tag value = .ok (Json.object (added members tag value)).toText := by
  rw [append, h, added, ← listed_eq]
  rfl

/-- A list that gets one item more is nested no deeper than before, or once where it is new. -/
theorem readable_added (h : Readable Document.depthLimit (.object members)) (tag value : String) :
    Readable Document.depthLimit (.object (added members tag value)) := by
  obtain ⟨hdepth, hsorted, hmembers⟩ := h
  rw [Json.readableMembers_iff] at hmembers
  refine ⟨hdepth, hsorted.set tag _, Json.readableMembers_iff.mpr fun e he => ?_⟩
  rcases Dictionary.mem_set he with rfl | he
  · refine ⟨by decide, Json.readableItems_iff.mpr fun item hitem => ?_⟩
    rcases List.mem_append.mp hitem with hitem | hitem
    · cases hold : members.get? tag with
      | none => simp [hold, itemsOf] at hitem
      | some v =>
        have hv := hmembers _ (Dictionary.mem_of_get? hold)
        cases v with
        | array items =>
          rw [hold] at hitem
          exact Json.readableItems_iff.mp hv.2 item hitem
        | _ => simp [hold, itemsOf] at hitem
    · rw [List.mem_singleton.mp hitem]
      trivial
  · exact hmembers e he

theorem added_comm (h : members.Sorted) {tag' : String} (htags : tag ≠ tag') (value value' : String) :
    added (added members tag value) tag' value' = added (added members tag' value') tag value := by
  simp only [added, Dictionary.get?_set_of_ne _ _ htags, Dictionary.get?_set_of_ne _ _ htags.symm]
  exact h.set_comm htags _ _

/-- Two values under different tags leave one text, whichever comes first. -/
theorem append_comm (h : Whole data) {tag' : String} (htags : tag ≠ tag') (value value' : String) :
    ∃ first second text, append data tag value = .ok first ∧ append (some first) tag' value' = .ok text ∧
      append data tag' value' = .ok second ∧ append (some second) tag value = .ok text := by
  obtain ⟨members, hobject, hreadable, -⟩ := exists_object h
  refine ⟨_, _, _, append_eq hobject tag value,
    append_eq (object_toText (readable_added hreadable tag value)) tag' value',
    append_eq hobject tag' value', ?_⟩
  rw [append_eq (object_toText (readable_added hreadable tag' value')), added_comm hreadable.2.1 htags]

end Values

/-! ### Additions to a register -/

namespace MemoryTable

/-- The table with another text for the values of a register. -/
def putData (t : MemoryTable) (id : RegisterId) (text : String) : MemoryTable :=
  t.modify id fun r => { r with data := some text }

theorem find?_putData (t : MemoryTable) (id : RegisterId) (text : String) :
    (t.putData id text).find? id = (t.find? id).map fun r => { r with data := some text } := by
  have hfound := find?_modify t id (f := fun r => { r with data := some text }) (fun _ => rfl) id
  rwa [if_pos rfl] at hfound

theorem putData_putData (t : MemoryTable) (id : RegisterId) (first text : String) :
    (t.putData id first).putData id text = t.putData id text := by
  simp only [putData, modify, List.map_map, mk.injEq, true_and, and_true]
  refine List.map_congr_left fun r _ => ?_
  by_cases hr : r.id = id <;> simp [hr]

end MemoryTable

namespace Memory

variable {m : Memory} {table : LogTable} {t : MemoryTable} {id : RegisterId} {r : Register} {tag value text : String}

theorem appendValue_found (ht : m.tables.get? table = some t) (hr : t.find? id = some r)
    (htext : Values.append r.data tag value = .ok text) : ((Operation.appendValue table id tag value).perform m).2 =
      ⟨m.tables.set table (t.putData id text)⟩ := by
  simp [Operation.perform, Storage.appendValue, onRegister, onTable, ht, hr, htext, Except.map, MemoryTable.putData]

theorem appendValue_none (h : ∀ t ∈ m.tables.get? table, t.find? id = none) :
    ((Operation.appendValue table id tag value).perform m).2 = m := by
  cases ht : m.tables.get? table with
  | none => simp [Operation.perform, Storage.appendValue, onRegister, onTable, ht]
  | some t => simp [Operation.perform, Storage.appendValue, onRegister, onTable, ht, h t ht, Keyed.set_same ht]

/-- An addition starts from the text that the one before it has left. -/
theorem after_appendValue {tag' value' first : String} (ht : m.tables.get? table = some t) (hr : t.find? id = some r)
    (hfirst : Values.append r.data tag value = .ok first) (htext : Values.append (some first) tag' value' = .ok text) :
    Operation.after m [.appendValue table id tag value, .appendValue table id tag' value'] =
      ⟨m.tables.set table (t.putData id text)⟩ := by
  have ht' : (⟨m.tables.set table (t.putData id first)⟩ : Memory).tables.get? table = some (t.putData id first) :=
    Keyed.get?_set_self ..
  have hr' : (t.putData id first).find? id = some { r with data := some first } := by
    rw [MemoryTable.find?_putData, hr, Option.map_some]
  simp only [Operation.after, List.foldl_cons, List.foldl_nil]
  rw [appendValue_found ht hr hfirst, appendValue_found ht' hr' htext, Keyed.set_set, MemoryTable.putData_putData]

/-- Two values under different tags leave one memory, whichever comes first. -/
theorem appendValue_comm (h : ∀ t ∈ m.tables.get? table, ∀ r ∈ t.find? id, Values.Whole r.data) {tag' : String}
    (htags : tag ≠ tag') (value value' : String) :
    Operation.after m [.appendValue table id tag value, .appendValue table id tag' value'] =
      Operation.after m [.appendValue table id tag' value', .appendValue table id tag value] := by
  by_cases hnone : ∀ t ∈ m.tables.get? table, t.find? id = none
  · simp only [Operation.after, List.foldl_cons, List.foldl_nil, appendValue_none hnone]
  · push Not at hnone
    obtain ⟨t, ht, hfound⟩ := hnone
    obtain ⟨r, hr⟩ := Option.ne_none_iff_exists'.mp hfound
    obtain ⟨first, second, text, hfirst, htext, hsecond, htext'⟩ := Values.append_comm (h t ht r hr) htags value value'
    rw [after_appendValue ht hr hfirst htext, after_appendValue ht hr hsecond htext']

end Memory

namespace Values

/-- Whatever value with whole numbers a text holds, or none: an addition leaves the text of its object in which the
tag has its old list with one text more, and every other key what it had. Additions under different tags give the same
text in either order, and to a register they leave the same memory. -/
theorem additions_change_one_entry :
    (∀ data, Whole data → ∀ tag value, ∃ text, ∃ after : Dictionary Json, append data tag value = .ok text ∧
      (Document.read? text).bind (·.toJson?) = some (.object after) ∧ after.Sorted ∧
      after.get? tag = some (.array (itemsOf (under? data tag) ++ [.text value])) ∧
      ∀ key, key ≠ tag → after.get? key = under? data key) ∧
    (∀ data, Whole data → ∀ tag tag' value value', tag ≠ tag' → ∃ first second text,
      append data tag value = .ok first ∧ append (some first) tag' value' = .ok text ∧
      append data tag' value' = .ok second ∧ append (some second) tag value = .ok text) ∧
    ∀ (m : Memory) table id, (∀ t ∈ m.tables.get? table, ∀ r ∈ t.find? id, Whole r.data) →
      ∀ tag tag' value value', tag ≠ tag' →
        Operation.after m [.appendValue table id tag value, .appendValue table id tag' value'] =
          Operation.after m [.appendValue table id tag' value', .appendValue table id tag value] := by
  refine ⟨fun data h tag value => ?_, fun data h tag tag' value value' htags => append_comm h htags value value',
    fun m table id h tag tag' value value' htags => Memory.appendValue_comm h htags value value'⟩
  obtain ⟨members, hobject, hreadable, hunder⟩ := exists_object h
  have hadded := readable_added hreadable tag value
  refine ⟨_, added members tag value, append_eq hobject tag value, hadded.toJson?_toText, hadded.2.1, ?_, ?_⟩
  · rw [added, Dictionary.get?_set_self, hunder]
  · intro key hkey
    rw [added, Dictionary.get?_set_of_ne _ _ hkey, hunder]

/-- The last list under a tag grows, however its key is spelled, and a zero keeps its sign. -/
theorem additions_change_one_entry_of_escapedKey :
    let data := some "\x7b\"b\":-0,\"a\":\"x\",\"\\u0061\":[18446744073709551615]\x7d"
    (∃ text, ∃ after : Dictionary Json, append data "a" "y" = .ok text ∧
      (Document.read? text).bind (·.toJson?) = some (.object after) ∧
      after.get? "a" = some (.array [.int 18446744073709551615, .text "y"]) ∧
      after.get? "b" = some (.float (.zero true)) ∧ after.get? "c" = none) ∧
    ∃ first second text, append data "a" "y" = .ok first ∧ append (some first) "c" "z" = .ok text ∧
      append data "c" "z" = .ok second ∧ append (some second) "a" "y" = .ok text := by
  intro data
  let d : Document := .object [([.char 'b'], .number ⟨true, ['0'], none, none⟩), ([.char 'a'], .text [.char 'x']),
    ([.unit 97], .array [.number ⟨false, "18446744073709551615".toList, none, none⟩])]
  have hread : Document.read? "\x7b\"b\":-0,\"a\":\"x\",\"\\u0061\":[18446744073709551615]\x7d" = some d := by cbv
  have hvalue : d.toJson?.isSome = true := by cbv
  have hdata : Whole data := by
    intro text htext _
    obtain rfl := Option.some.inj htext
    exact ⟨d, hread, ⟨⟨rfl, rfl, by decide⟩, trivial, ⟨⟨rfl, rfl, by decide⟩, trivial⟩, trivial⟩,
      hvalue⟩
  have hunder : ∀ key, under? data key = (d.last? key).bind (·.toJson?) := fun key => by
    rw [under?, Option.bind_some, hread, Option.bind_some]
  have ha : (d.last? "a").bind (·.toJson?) = some (.array [.int 18446744073709551615]) := by cbv
  have hb : (d.last? "b").bind (·.toJson?) = some (.float (.zero true)) := by cbv
  have hc : (d.last? "c").bind (·.toJson?) = none := by cbv
  obtain ⟨text, after, happend, hagain, -, htag, hothers⟩ := additions_change_one_entry.1 data hdata "a" "y"
  refine ⟨⟨text, after, happend, hagain, ?_, ?_, ?_⟩,
    additions_change_one_entry.2.1 data hdata "a" "c" "y" "z" (by decide)⟩
  · rw [htag, hunder, ha]
    rfl
  · rw [hothers "b" (by decide), hunder, hb]
  · rw [hothers "c" (by decide), hunder, hc]

end Values

end ProcessRuns
