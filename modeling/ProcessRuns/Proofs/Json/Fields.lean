import ProcessRuns.Json.Fields
import ProcessRuns.Proofs.Json.Reading

/-! # Reading records that were written

What is taken from the document of a value that was written by those who know its shape. A record that was written as an
object has its fields under their names, and where a field was left out the default stands for it. -/

namespace ProcessRuns.Json

variable {α β : Type}

/-- From the document of a value `a` is taken. -/
def ReadAs (v : Json) (read : Document → Option α) (a : α) : Prop := ∃ d, document? v = some d ∧ read d = some a

section Values

variable {read : Document → Option α} {a : α} {v : Json}

theorem ReadAs.isSome_document? (h : ReadAs v read a) : (document? v).isSome = true := by
  obtain ⟨d, hd, -⟩ := h
  rw [hd, Option.isSome_some]

theorem readAs_word {n : Nat} (h : n ≤ Literal.wordMax) : ReadAs (n : Json) (·.toWord?) n := by
  refine ⟨_, rfl, ?_⟩
  have hnegative : decide ((n : Int) < 0) = false := by simp
  have hdigits : Nat.ofDigitChars 10 (Nat.toDigits 10 n) 0 = n := Nat.ofDigitChars_toDigits (by decide) (by decide)
  simp only [Document.toWord?, Literal.toWord?, Literal.ofInt, hnegative, Int.natAbs_natCast, hdigits, if_pos h]

theorem readAs_bool (b : Bool) : ReadAs (b : Json) (·.toBool?) b := ⟨_, rfl, rfl⟩

theorem readAs_text (s : String) : ReadAs (s : Json) (·.toText?) s := ⟨_, rfl, toText?_spelling s⟩

theorem readAs_choice {choice : String → Option α} {name : String} (h : choice name = some a) :
    ReadAs (name : Json) (Document.toChoice? choice) a :=
  ⟨_, rfl, by rw [Document.toChoice?, toText?_spelling, Option.bind_some, h]⟩

/-- Nothing but null is written as null. -/
theorem document?_eq_null {v : Json} (h : document? v = some .null) : v = .null := by
  cases v with
  | null => rfl
  | float x =>
    obtain ⟨-, h⟩ := Option.ite_none_right_eq_some.mp h
    cases h
  | array items | object members =>
    obtain ⟨_, _, h⟩ := Option.map_eq_some_iff.mp h
    cases h
  | bool b | int n | text s => cases h

theorem readAs_option {f : β → Json} {g : β → α} {a : Option β} (hnull : ∀ x ∈ a, f x ≠ .null)
    (h : ∀ x ∈ a, ReadAs (f x) read (g x)) : ReadAs (.ofOption f a) (·.toOption? read) (a.map g) := by
  cases a with
  | none => exact ⟨_, rfl, rfl⟩
  | some x =>
    obtain ⟨d, hd, hread⟩ := h x rfl
    have hnotNull : d = .null → False := fun hnone => hnull x rfl (document?_eq_null (hnone ▸ hd))
    exact ⟨d, hd, by simp only [Document.toOption?.eq_2 _ _ hnotNull, hread, Option.map_some]⟩

theorem readAs_list {f : β → Json} {g : β → α} {l : List β} (h : ∀ x ∈ l, ReadAs (f x) read (g x)) :
    ReadAs (.array (l.map f)) (·.toList? read) (l.map g) := by
  suffices hitems : ∃ ds, documents? (l.map f) = some ds ∧ ds.mapM read = some (l.map g) by
    obtain ⟨ds, hds, hread⟩ := hitems
    exact ⟨.array ds, by rw [document?, hds, Option.map_some], hread⟩
  induction l with
  | nil => exact ⟨[], rfl, rfl⟩
  | cons x l ih =>
    obtain ⟨d, hd, hread⟩ := h x List.mem_cons_self
    obtain ⟨ds, hds, hreads⟩ := ih fun y hy => h y (List.mem_cons_of_mem x hy)
    exact ⟨d :: ds, by simp [documents?, hd, hds], by simp [hread, hreads]⟩

end Values

/-! ### Records -/

theorem add?_spelling {names : List String} {given : List (String × Document)} {name : String} (d : Document)
    (hname : name ∈ names) (hnew : name ∉ given.map Prod.fst) :
    Fields.add? names given (spelling name, d) = some (given ++ [(name, d)]) := by
  have hfirst : (given.any fun g => g.1 == name) = false := by
    rw [List.any_eq_false]
    intro g hg heq
    exact hnew (beq_iff_eq.mp heq ▸ List.mem_map_of_mem hg)
  simp [Fields.add?, hname, hfirst]

theorem foldlM_add? {names : List String} (members : List (String × Document)) {given : List (String × Document)}
    (hnames : ∀ m ∈ members, m.1 ∈ names) (hnodup : ((given ++ members).map Prod.fst).Nodup) :
    (members.map fun m => (spelling m.1, m.2)).foldlM (Fields.add? names) given = some (given ++ members) := by
  induction members generalizing given with
  | nil => simp
  | cons m members ih =>
    have hnew : m.1 ∉ given.map Prod.fst := by
      rw [List.map_append, List.nodup_append] at hnodup
      intro hmem
      exact hnodup.2.2 _ hmem _ List.mem_cons_self rfl
    have hsplit : given ++ m :: members = (given ++ [m]) ++ members := by simp
    rw [List.map_cons, List.foldlM_cons, add?_spelling m.2 (hnames m List.mem_cons_self) hnew, Option.bind_eq_bind,
      Option.bind_some, ih (fun m' hm' => hnames m' (List.mem_cons_of_mem m hm')) (hsplit ▸ hnodup), hsplit]

/-- The documents of the members of an object, under their names. -/
theorem exists_given {members : List (String × Json)} (hvalues : ∀ m ∈ members, (document? m.2).isSome = true) :
    ∃ given : List (String × Document), given.map Prod.fst = members.map Prod.fst ∧
      memberDocuments? members = some (given.map fun m => (spelling m.1, m.2)) ∧
      ∀ name, Dictionary.get? given name = (Dictionary.get? members name).bind document? := by
  induction members with
  | nil => exact ⟨[], rfl, rfl, fun _ => rfl⟩
  | cons m members ih =>
    obtain ⟨d, hd⟩ := Option.isSome_iff_exists.mp (hvalues m List.mem_cons_self)
    obtain ⟨given, hkeys, hdocuments, hget⟩ := ih fun m' hm' => hvalues m' (List.mem_cons_of_mem m hm')
    refine ⟨(m.1, d) :: given, by simp [hkeys], by simp [memberDocuments?, hd, hdocuments], fun name => ?_⟩
    rw [Dictionary.get?_cons, Dictionary.get?_cons, hget]
    split
    · rw [Option.bind_some, hd]
    · rfl

/-- A record has the members of an object as its fields. -/
def Gives (fields : Fields) (members : List (String × Json)) : Prop :=
  fields.named = true ∧ ∀ name, fields.find? name = (Dictionary.get? members name).bind document?

/-- An object that was written is read by the names of its members, which are names that the record has. -/
theorem readAs_object (names : List String) {members : List (String × Json)} {read : Document → Option α} {a : α}
    (hnames : names.Nodup) (hkeys : (members.map Prod.fst).Sublist names)
    (hvalues : ∀ m ∈ members, (document? m.2).isSome = true)
    (hread : ∀ d fields, Fields.of? names d = some fields → Gives fields members → read d = some a) :
    ReadAs (.object members) read a := by
  obtain ⟨given, hgiven, hdocuments, hget⟩ := exists_given hvalues
  rw [← hgiven] at hkeys
  have hadded : (given.map fun m => (spelling m.1, m.2)).foldlM (Fields.add? names) [] = some given :=
    foldlM_add? given (fun m hm => hkeys.subset (List.mem_map_of_mem hm)) (hkeys.nodup hnames)
  refine ⟨_, by rw [document?, hdocuments, Option.map_some], hread _ ⟨true, given⟩ ?_ ⟨rfl, hget⟩⟩
  rw [Fields.of?, hadded, Option.map_some]

namespace Gives

variable {fields : Fields} {members : List (String × Json)} {v : Json} {read : Document → Option α}

theorem find? (h : Gives fields members) {name : String} (hget : Dictionary.get? members name = some v) :
    fields.find? name = document? v := by
  rw [h.2, hget, Option.bind_some]

theorem required {a : α} (h : Gives fields members) (name : String) (hget : Dictionary.get? members name = some v)
    (hv : ReadAs v read a) : fields.required name read = some a := by
  obtain ⟨d, hd, hread⟩ := hv
  rw [Fields.required, h.find? hget, hd, Option.bind_some, hread]

theorem withDefault {a default : α} (h : Gives fields members) (name : String)
    (hget : Dictionary.get? members name = some v) (hv : ReadAs v read a) :
    fields.withDefault name default read = some a := by
  obtain ⟨d, hd, hread⟩ := hv
  rw [Fields.withDefault, h.find? hget, hd]
  exact hread

theorem withDefault_of_none {default : α} (h : Gives fields members) (name : String)
    (hget : Dictionary.get? members name = none) : fields.withDefault name default read = some default := by
  rw [Fields.withDefault, h.2, hget]
  rfl

theorem optional {a : Option α} (h : Gives fields members) (name : String)
    (hget : Dictionary.get? members name = some v) (hv : ReadAs v (·.toOption? read) a) :
    fields.optional name read = some a := by
  obtain ⟨d, hd, hread⟩ := hv
  rw [Fields.optional, h.find? hget, hd]
  exact hread

end Gives

end ProcessRuns.Json
