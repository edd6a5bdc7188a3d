import Mathlib.Data.List.Induction
import ProcessRuns.Log.Values
import ProcessRuns.Proofs.Json.Whole

/-! # Lists of values under tags

The text that a register keeps of its values holds a dictionary of lists. A value that is added stands at the end of
the list of its tag, and all the other lists are what they were, whatever characters tags and values are made of. -/

namespace ProcessRuns.Values

open Json (Document spelling document? documents? memberDocuments?)

theorem isEmpty_toText (members : Dictionary Json) : (Json.object members).toText.isEmpty = false := by
  rw [Bool.eq_false_iff, Ne, String.isEmpty_iff, Json.toText, ← String.toList_inj, String.toList_ofList]
  exact List.cons_ne_nil _ _

/-- An object that was written is read again. -/
theorem object_toText {members : Dictionary Json} (h : Json.Readable Document.depthLimit (.object members)) :
    object (some (Json.object members).toText) = .ok members := by
  rw [object, isEmpty_toText, h.toJson?_toText]
  rfl

/-- The values of a register by their tags. -/
abbrev Lists : Type := Dictionary (List String)

namespace Lists

variable {lists : Lists}

/-! ### The text of the lists -/

/-- The values as members of an object. -/
def members (lists : Lists) : Dictionary Json := lists.map fun e => (e.1, .array (e.2.map .text))

/-- The values as a document. -/
def document (lists : Lists) : Document :=
  .object (lists.map fun e => (spelling e.1, .array (e.2.map fun s => .text (spelling s))))

/-- The text that is kept of the values. -/
def text (lists : Lists) : String := (Json.object lists.members).toText

theorem documents?_texts (texts : List String) :
    documents? (texts.map .text) = some (texts.map fun s => .text (spelling s)) := by
  induction texts with
  | nil => rfl
  | cons s texts ih => simp [documents?, document?, ih]

theorem document?_members (lists : Lists) : document? (.object lists.members) = some lists.document := by
  have hmembers : memberDocuments? lists.members =
      some (lists.map fun e => (spelling e.1, .array (e.2.map fun s => .text (spelling s)))) := by
    induction lists with
    | nil => rfl
    | cons e lists ih =>
      rw [members] at ih
      simp [members, memberDocuments?, document?, documents?_texts, ih]
  rw [document?, hmembers]
  rfl

theorem sorted_members (h : lists.Sorted) : Dictionary.Sorted lists.members :=
  List.pairwise_map.mpr h

theorem readable_members (h : lists.Sorted) : Json.Readable Document.depthLimit (.object lists.members) := by
  have hitems : ∀ (depth : Nat) (texts : List String), Json.ReadableItems depth (texts.map .text) := by
    intro depth texts
    induction texts with
    | nil => trivial
    | cons s texts ih => exact ⟨trivial, ih⟩
  have hmembers : ∀ lists : Lists, Json.ReadableMembers (Document.depthLimit - 1) lists.members := by
    intro lists
    induction lists with
    | nil => trivial
    | cons e lists ih => exact ⟨⟨by decide, hitems _ e.2⟩, ih⟩
  exact ⟨by decide, sorted_members h, hmembers lists⟩

/-! ### What the text is read as -/

theorem object_text (h : lists.Sorted) : object (some lists.text) = .ok lists.members :=
  object_toText (readable_members h)

theorem toText?_text (s : String) : (Document.text (spelling s)).toText? = some s := Json.toText?_spelling s

theorem mapM_map_of_inverse {α β : Type} {f : α → β} {g : β → Option α} (h : ∀ a, g (f a) = some a)
    (l : List α) :
    (l.map f).mapM g = some l := by
  have hcomp : g ∘ f = fun a => pure a := funext h
  rw [List.mapM_map, hcomp, List.mapM_pure, List.map_id']
  rfl

theorem toDictionary?_document (h : lists.Sorted) :
    lists.document.toDictionary? (·.toList? (·.toText?)) = some lists := by
  rw [document, Document.toDictionary?, mapM_map_of_inverse, Option.map_some, h.ofEntries]
  intro e
  have hlist : (Document.array (e.2.map fun s => .text (spelling s))).toList? (·.toText?) = some e.2 :=
    mapM_map_of_inverse toText?_text e.2
  simp [hlist]

theorem read_text (h : lists.Sorted) : Values.read (some lists.text) = .ok lists := by
  rw [Values.read, text, isEmpty_toText]
  simp [Json.read?_toText (document?_members lists), toDictionary?_document h]

/-! ### Adding a value -/

/-- The lists with one value more. -/
def note (lists : Lists) (tag value : String) : Lists := lists.set tag ((lists.get? tag).getD [] ++ [value])

theorem listed_members (lists : Lists) (tag : String) :
    listed lists.members tag = ((lists.get? tag).getD []).map .text := by
  rw [listed, members, Dictionary.get?_map fun texts : List String => Json.array (texts.map .text)]
  cases lists.get? tag <;> rfl

theorem append_members (lists : Lists) (tag value : String) :
    (Json.object (lists.members.set tag (.array (listed lists.members tag ++ [.text value])))).toText =
      (lists.note tag value).text := by
  have hitems : listed lists.members tag ++ [.text value] = ((lists.get? tag).getD [] ++ [value]).map .text := by
    rw [listed_members, List.map_append]
    rfl
  rw [hitems, text, note, members, Dictionary.set_map fun texts : List String => Json.array (texts.map .text)]
  rfl

end Lists

/-- The text of a register holds some lists: there is none before the first value. -/
def Holds (data : Option String) (lists : Lists) : Prop :=
  lists.Sorted ∧ (data = some lists.text ∨ data = none ∧ lists = [])

theorem holds_none : Holds none [] := ⟨.nil, Or.inr ⟨rfl, rfl⟩⟩

theorem Holds.read {data : Option String} {lists : Lists} (h : Holds data lists) : Values.read data = .ok lists := by
  obtain ⟨hsorted, rfl | ⟨rfl, rfl⟩⟩ := h
  · exact Lists.read_text hsorted
  · rfl

theorem Holds.note {data : Option String} {lists : Lists} (h : Holds data lists) (tag value : String) :
    append data tag value = .ok (lists.note tag value).text ∧
      Holds (some (lists.note tag value).text) (lists.note tag value) := by
  obtain ⟨hsorted, hdata⟩ := h
  have hobject : object data = .ok lists.members := by
    rcases hdata with rfl | ⟨rfl, rfl⟩
    · exact Lists.object_text hsorted
    · rfl
  refine ⟨?_, hsorted.set tag _, Or.inl rfl⟩
  rw [append, hobject, ← Lists.append_members]
  rfl

/-! ### Values in the order in which they were added -/

namespace Lists

/-- The values that notes leave, oldest first. -/
def ofNotes (notes : List (String × String)) : Lists := notes.foldl (fun lists n => lists.note n.1 n.2) []

/-- The values that were added under a tag. -/
def valuesUnder (notes : List (String × String)) (tag : String) : List String :=
  (notes.filter fun n => n.1 = tag).map Prod.snd

theorem ofNotes_append (notes : List (String × String)) (n : String × String) :
    ofNotes (notes ++ [n]) = (ofNotes notes).note n.1 n.2 := by
  rw [ofNotes, List.foldl_append]
  rfl

theorem sorted_ofNotes (notes : List (String × String)) : (ofNotes notes).Sorted := by
  induction notes using List.reverseRecOn with
  | nil => exact .nil
  | append_singleton notes n ih =>
    rw [ofNotes_append]
    exact ih.set n.1 _

/-- A tag has the list of the values that were added under it, and no list if there are none. -/
theorem get?_ofNotes (notes : List (String × String)) (tag : String) :
    (ofNotes notes).get? tag =
      if valuesUnder notes tag = [] then none else some (valuesUnder notes tag) := by
  induction notes using List.reverseRecOn with
  | nil => rfl
  | append_singleton notes n ih =>
    have hvalues : valuesUnder (notes ++ [n]) tag =
        valuesUnder notes tag ++ if n.1 = tag then [n.2] else [] := by
      by_cases hn : n.1 = tag <;> simp [valuesUnder, hn]
    rw [ofNotes_append, note, hvalues]
    by_cases hn : n.1 = tag
    · rw [hn, Dictionary.get?_set_self, ih]
      by_cases hnone : valuesUnder notes tag = [] <;> simp [hnone]
    · rw [Dictionary.get?_set_of_ne _ _ (Ne.symm hn), ih, if_neg hn, List.append_nil]

end Lists

end ProcessRuns.Values
