import ProcessRuns.Proofs.Json.Reading

/-! # Documents of whole numbers

A document whose numbers are integers of 64 bits gives a value that is read again as it was written. Of the members that
an object has under one key, the last gives the value. -/

namespace ProcessRuns.Json

/-- An integer of 64 bits, with a sign or without one. -/
def Literal.Whole (l : Literal) : Prop :=
  l.fraction = none ∧ l.exponent = none ∧
    Nat.ofDigitChars 10 l.whole 0 ≤ if l.negative then negativeMax else wordMax

namespace Document

mutual

/-- All the numbers of a document are integers of 64 bits. -/
def Whole : Document → Prop
  | null => True
  | bool _ => True
  | number l => l.Whole
  | text _ => True
  | array items => WholeItems items
  | object members => WholeMembers members

/-- The numbers of the items are whole. -/
def WholeItems : List Document → Prop
  | [] => True
  | d :: rest => d.Whole ∧ WholeItems rest

/-- The numbers of the members are whole. -/
def WholeMembers : List (Spelling × Document) → Prop
  | [] => True
  | (_, d) :: rest => d.Whole ∧ WholeMembers rest

end

/-- The last member of an object under a key. -/
def last? (key : String) : Document → Option Document
  | object members => (members.reverse.find? fun m => m.1.toText? = some key).map Prod.snd
  | _ => none

end Document

variable {depth : Nat}

/-! ### The value of a document -/

theorem itemsWithin?_cons {d : Document} {rest : List Document} {items : List Json}
    (h : Document.itemsWithin? depth (d :: rest) = some items) :
    ∃ v items', d.toJsonWithin? depth = some v ∧ Document.itemsWithin? depth rest = some items' ∧
        items = v :: items' := by
  simpa [Document.itemsWithin?, Option.bind_eq_some_iff, eq_comm (b := items)] using h

theorem membersWithin?_cons {key : Spelling} {d : Document} {rest : List (Spelling × Document)}
    {entries : List (String × Json)} (h : Document.membersWithin? depth ((key, d) :: rest) = some entries) :
    ∃ s v entries', key.toText? = some s ∧ d.toJsonWithin? depth = some v ∧
      Document.membersWithin? depth rest = some entries' ∧ entries = (s, v) :: entries' := by
  simpa [Document.membersWithin?, Option.bind_eq_some_iff, eq_comm (b := entries)] using h

theorem array_of_toJsonWithin? {items : List Document} {v : Json}
    (h : (Document.array items).toJsonWithin? depth = some v) :
    0 < depth ∧ ∃ values, Document.itemsWithin? (depth - 1) items = some values ∧ v = .array values := by
  simp only [Document.toJsonWithin?, Option.ite_none_left_eq_some, Option.map_eq_some_iff] at h
  obtain ⟨hdepth, values, hvalues, rfl⟩ := h
  exact ⟨Nat.pos_of_ne_zero hdepth, values, hvalues, rfl⟩

theorem object_of_toJsonWithin? {members : List (Spelling × Document)} {v : Json}
    (h : (Document.object members).toJsonWithin? depth = some v) :
    0 < depth ∧ ∃ entries, Document.membersWithin? (depth - 1) members = some entries ∧
      v = .object (Dictionary.ofEntries entries) := by
  simp only [Document.toJsonWithin?, Option.ite_none_left_eq_some, Option.map_eq_some_iff] at h
  obtain ⟨hdepth, entries, hentries, rfl⟩ := h
  exact ⟨Nat.pos_of_ne_zero hdepth, entries, hentries, rfl⟩

-- A limit that is not reached makes no difference.
mutual

theorem toJsonWithin?_mono : ∀ (d : Document) {depth limit : Nat} {v : Json}, depth ≤ limit →
    d.toJsonWithin? depth = some v → d.toJsonWithin? limit = some v
  | .null, _, _, _, _, h => h
  | .bool _, _, _, _, _, h => h
  | .number _, _, _, _, _, h => h
  | .text _, _, _, _, _, h => h
  | .array items, depth, limit, v, hle, h => by
    obtain ⟨hdepth, values, hvalues, rfl⟩ := array_of_toJsonWithin? h
    have hmore := itemsWithin?_mono items (Nat.sub_le_sub_right hle 1) hvalues
    rw [Document.toJsonWithin?, if_neg (by omega), hmore, Option.map_some]
  | .object members, depth, limit, v, hle, h => by
    obtain ⟨hdepth, entries, hentries, rfl⟩ := object_of_toJsonWithin? h
    have hmore := membersWithin?_mono members (Nat.sub_le_sub_right hle 1) hentries
    rw [Document.toJsonWithin?, if_neg (by omega), hmore, Option.map_some]

theorem itemsWithin?_mono : ∀ (ds : List Document) {depth limit : Nat} {items : List Json}, depth ≤ limit →
    Document.itemsWithin? depth ds = some items → Document.itemsWithin? limit ds = some items
  | [], _, _, _, _, h => h
  | d :: rest, _, _, _, hle, h => by
    obtain ⟨v, items, hv, hitems, rfl⟩ := itemsWithin?_cons h
    simp [Document.itemsWithin?, toJsonWithin?_mono d hle hv, itemsWithin?_mono rest hle hitems]

theorem membersWithin?_mono : ∀ (ds : List (Spelling × Document)) {depth limit : Nat} {entries : List (String × Json)},
    depth ≤ limit → Document.membersWithin? depth ds = some entries → Document.membersWithin? limit ds = some entries
  | [], _, _, _, _, h => h
  | (key, d) :: rest, _, _, _, hle, h => by
    obtain ⟨s, v, entries, hkey, hv, hentries, rfl⟩ := membersWithin?_cons h
    simp [Document.membersWithin?, hkey, toJsonWithin?_mono d hle hv, membersWithin?_mono rest hle hentries]

end

/-! ### Values that can be written -/

/-- A whole number is read as it is, but for a zero with a sign. -/
theorem Literal.Whole.toJson? {l : Literal} (h : l.Whole) : l.toJson? =
    some (if l.negative then
      if Nat.ofDigitChars 10 l.whole 0 = 0 then .float (.zero true) else .int (-(Nat.ofDigitChars 10 l.whole 0 : Nat))
    else .int (Nat.ofDigitChars 10 l.whole 0 : Nat)) := by
  obtain ⟨negative, whole, fraction, exponent⟩ := l
  obtain ⟨rfl, rfl, hrange⟩ := h
  have hword : Nat.ofDigitChars 10 whole 0 ≤ wordMax := by
    refine Nat.le_trans hrange ?_
    split <;> decide
  have habsorb := absorb_ofDigitChars whole hword
  cases negative with
  | false => simp [Literal.toJson?, habsorb]
  | true =>
    by_cases hzero : Nat.ofDigitChars 10 whole 0 = 0
    · rw [hzero] at habsorb
      simp only [Literal.toJson?, habsorb, hzero]
      rfl
    · have hmost : Nat.ofDigitChars 10 whole 0 ≤ negativeMax := hrange
      simp [Literal.toJson?, habsorb, hzero, hmost]

theorem Literal.Whole.readable {l : Literal} (h : l.Whole) {v : Json} (hv : l.toJson? = some v) : Readable depth v := by
  obtain ⟨-, -, hrange⟩ := id h
  rw [h.toJson?, Option.some.injEq] at hv
  subst hv
  split at hrange
  · rename_i hnegative
    rw [if_pos hnegative]
    split
    · rfl
    · constructor <;> simp only [negativeMax, wordMax] at hrange ⊢ <;> omega
  · rename_i hnegative
    rw [if_neg hnegative]
    constructor <;> simp only [negativeMax, wordMax] at hrange ⊢ <;> omega

theorem readableItems_iff {items : List Json} : ReadableItems depth items ↔ ∀ v ∈ items, Readable depth v := by
  induction items with
  | nil => simp [ReadableItems]
  | cons v items ih => simp [ReadableItems, ih]

theorem readableMembers_iff {members : List (String × Json)} :
    ReadableMembers depth members ↔ ∀ e ∈ members, Readable depth e.2 := by
  induction members with
  | nil => simp [ReadableMembers]
  | cons e members ih => simp [ReadableMembers, ih]

mutual

theorem readable_of_whole : ∀ (d : Document) {depth : Nat} {v : Json}, d.Whole → d.toJsonWithin? depth = some v →
    Readable depth v
  | .null, _, _, _, h => by cases h; trivial
  | .bool _, _, _, _, h => by cases h; trivial
  | .number l, _, _, hwhole, h => Literal.Whole.readable hwhole h
  | .text s, _, _, _, h => by
    obtain ⟨text, -, rfl⟩ := Option.map_eq_some_iff.mp h
    trivial
  | .array items, _, _, hwhole, h => by
    obtain ⟨hdepth, values, hvalues, rfl⟩ := array_of_toJsonWithin? h
    exact ⟨hdepth, readableItems_of_whole items hwhole hvalues⟩
  | .object members, _, _, hwhole, h => by
    obtain ⟨hdepth, entries, hentries, rfl⟩ := object_of_toJsonWithin? h
    have hall := readableMembers_iff.mp (readableMembers_of_whole members hwhole hentries)
    -- What is in the dictionary is one of the members.
    exact ⟨hdepth, Dictionary.sorted_ofEntries entries,
      readableMembers_iff.mpr fun e he => hall e (Dictionary.mem_ofEntries he)⟩

theorem readableItems_of_whole : ∀ (ds : List Document) {depth : Nat} {items : List Json}, Document.WholeItems ds →
    Document.itemsWithin? depth ds = some items → ReadableItems depth items
  | [], _, _, _, h => by cases h; trivial
  | d :: rest, _, _, hwhole, h => by
    obtain ⟨v, items, hv, hitems, rfl⟩ := itemsWithin?_cons h
    exact ⟨readable_of_whole d hwhole.1 hv, readableItems_of_whole rest hwhole.2 hitems⟩

theorem readableMembers_of_whole : ∀ (ds : List (Spelling × Document)) {depth : Nat} {entries : List (String × Json)},
    Document.WholeMembers ds → Document.membersWithin? depth ds = some entries → ReadableMembers depth entries
  | [], _, _, _, h => by cases h; trivial
  | (key, d) :: rest, _, _, hwhole, h => by
    obtain ⟨s, v, entries, -, hv, hentries, rfl⟩ := membersWithin?_cons h
    exact ⟨readable_of_whole d hwhole.1 hv, readableMembers_of_whole rest hwhole.2 hentries⟩

end

mutual

theorem exists_document? : ∀ (v : Json) {depth : Nat}, Readable depth v → ∃ d, document? v = some d
  | .null, _, _ => ⟨_, rfl⟩
  | .bool _, _, _ => ⟨_, rfl⟩
  | .int _, _, _ => ⟨_, rfl⟩
  | .float _, _, hv => ⟨_, if_pos hv⟩
  | .text _, _, _ => ⟨_, rfl⟩
  | .array items, _, hv => by
    obtain ⟨ds, hds⟩ := exists_documents? items hv.2
    exact ⟨.array ds, by rw [document?, hds, Option.map_some]⟩
  | .object members, _, hv => by
    obtain ⟨ds, hds⟩ := exists_memberDocuments? members hv.2.2
    exact ⟨.object ds, by rw [document?, hds, Option.map_some]⟩

theorem exists_documents? : ∀ (items : List Json) {depth : Nat}, ReadableItems depth items →
    ∃ ds, documents? items = some ds
  | [], _, _ => ⟨[], rfl⟩
  | v :: rest, _, hv => by
    obtain ⟨d, hd⟩ := exists_document? v hv.1
    obtain ⟨ds, hds⟩ := exists_documents? rest hv.2
    exact ⟨d :: ds, by simp [documents?, hd, hds]⟩

theorem exists_memberDocuments? : ∀ (members : List (String × Json)) {depth : Nat}, ReadableMembers depth members →
    ∃ ds, memberDocuments? members = some ds
  | [], _, _ => ⟨[], rfl⟩
  | (key, v) :: rest, _, hv => by
    obtain ⟨d, hd⟩ := exists_document? v hv.1
    obtain ⟨ds, hds⟩ := exists_memberDocuments? rest hv.2
    exact ⟨(spelling key, d) :: ds, by simp [memberDocuments?, hd, hds]⟩

end

theorem Readable.toJson?_toText {v : Json} (hv : Readable Document.depthLimit v) :
    (Document.read? v.toText).bind (·.toJson?) = some v := by
  obtain ⟨d, hd⟩ := exists_document? v hv
  exact Json.toJson?_toText hd hv

/-! ### The last of some members -/

theorem last?_cons (key : String) (m : Spelling × Document) (rest : List (Spelling × Document)) :
    (Document.object (m :: rest)).last? key =
      ((Document.object rest).last? key).or (if m.1.toText? = some key then some m.2 else none) := by
  rw [Document.last?, Document.last?, List.reverse_cons, List.find?_append, Option.map_or]
  congr 1
  by_cases h : m.1.toText? = some key <;> simp [h]

/-- The dictionary of some members has the values of the last ones. -/
theorem get?_members {ds : List (Spelling × Document)} {entries : List (String × Json)}
    (h : Document.membersWithin? depth ds = some entries) (key : String) :
    ((Dictionary.ofEntries entries).get? key).map some = ((Document.object ds).last? key).map
    (·.toJsonWithin? depth) := by
  rw [Dictionary.get?_ofEntries]
  induction ds generalizing entries with
  | nil =>
    cases h
    rfl
  | cons m rest ih =>
    obtain ⟨s, v, entries, hkey, hv, hentries, rfl⟩ := membersWithin?_cons h
    rw [List.reverse_cons, Dictionary.get?_append, last?_cons, Option.map_or, Option.map_or, ih hentries, hkey]
    congr 1
    by_cases hs : s = key <;> simp [Dictionary.get?, hs, hv]

end ProcessRuns.Json
