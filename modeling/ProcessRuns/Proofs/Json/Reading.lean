import ProcessRuns.Json.Reader
import ProcessRuns.Json.Writer

/-! # Reading what was written

The text of a value without fractional numbers is read as the document that spells it, whatever characters its texts
are made of, and the document says the value again if its numbers have 64 bits and its objects are in order. The one
fractional number among them is the zero with a sign, as which a whole zero with a sign is read. -/

namespace ProcessRuns.Json

/-! ### Texts -/

/-- How a character of a text is spelled when it is written. -/
def spelled (c : Char) : Spelled :=
  match c with
  | '\x08' | '\x0c' | '\n' | '\r' | '\t' => .char c
  | c => if c.toNat < 0x20 then .unit c.toNat else .char c

/-- How a text is written between quotes. -/
def spelling (s : String) : Spelling := s.toList.map spelled

theorem hexDigit?_digitChar : ∀ n < 16, Text.hexDigit? (Nat.digitChar n) = some n := by decide

/-- A control character without a short name is written by its number. -/
theorem readSpelling_unit {n : Nat} (hn : n < 0x20) (cs : List Char) :
    readSpelling ('\\' :: 'u' :: '0' :: '0' :: Nat.digitChar (n / 16) :: Nat.digitChar (n % 16) :: cs) =
      (readSpelling cs).map fun p => (.unit n :: p.1, p.2) := by
  have hhigh := hexDigit?_digitChar (n / 16) (by omega)
  have hlow := hexDigit?_digitChar (n % 16) (by omega)
  have hsum : 16 * (n / 16) + n % 16 = n := Nat.div_add_mod n 16
  have hzero : Text.hexDigit? '0' = some 0 := rfl
  cases h : readSpelling cs <;> simp [readSpelling, Text.hexNumber?, hzero, hhigh, hlow, hsum, h]

theorem readSpelling_char {c : Char} (hquote : c ≠ '"') (hslash : c ≠ '\\') (hc : ¬ c.toNat < 0x20) (cs : List Char) :
    readSpelling (c :: cs) = (readSpelling cs).map fun p => (.char c :: p.1, p.2) := by
  rw [readSpelling.eq_5 c cs hquote (fun _ _ _ _ _ h => absurd h hslash) fun _ _ h => absurd h hslash]
  cases h : readSpelling cs <;> simp [hslash, hc]

theorem readSpelling_escape (c : Char) (cs : List Char) :
    readSpelling (escape c ++ cs) = (readSpelling cs).map fun p => (spelled c :: p.1, p.2) := by
  unfold escape
  split
  case h_8 hquote hslash _ _ _ _ _ =>
    have hspelled : spelled c = if c.toNat < 0x20 then .unit c.toNat else .char c := by simp [spelled]
    rw [hspelled]
    by_cases hc : c.toNat < 0x20
    · simpa [hc] using readSpelling_unit hc cs
    · simpa [hc] using readSpelling_char hquote hslash hc cs
  all_goals cases h : readSpelling cs <;> simp [readSpelling, shortEscape?, h, spelled]

theorem readSpelling_flatMap (chars rest : List Char) :
    readSpelling (chars.flatMap escape ++ '"' :: rest) = some (chars.map spelled, rest) := by
  induction chars with
  | nil => rfl
  | cons c chars ih =>
    rw [List.flatMap_cons, List.append_assoc, readSpelling_escape, ih, Option.map_some, List.map_cons]

theorem assemble_unit {n : Nat} (hn : n < 0x20) (rest : Spelling) :
    Spelled.assemble (.unit n :: rest) = (Spelled.assemble rest).map (Char.ofNat n :: ·) := by
  have hhigh : Spelled.isHigh n = false := by simp [Spelled.isHigh]; omega
  have hlow : Spelled.isLow n = false := by simp [Spelled.isLow]; omega
  rw [Spelled.assemble.eq_def]
  simp [hhigh, hlow]

theorem assemble_spelled (c : Char) (rest : Spelling) :
    Spelled.assemble (spelled c :: rest) = (Spelled.assemble rest).map (c :: ·) := by
  unfold spelled
  split
  case h_6 =>
    split
    · rename_i hc
      rw [assemble_unit hc, Char.ofNat_toNat]
    · rfl
  all_goals rfl

@[simp] theorem toText?_spelling (s : String) : (spelling s).toText? = some s := by
  have hchars : ∀ chars : List Char, Spelled.assemble (chars.map spelled) = some chars := by
    intro chars
    induction chars with
    | nil => rfl
    | cons c chars ih => rw [List.map_cons, assemble_spelled, ih, Option.map_some]
  rw [Spelling.toText?, spelling, hchars, Option.map_some, String.ofList_toList]

theorem writeText_append (s : String) (rest : List Char) :
    writeText s ++ rest = '"' :: (s.toList.flatMap escape ++ '"' :: rest) := by
  simp [writeText]

theorem readSpelling_writeText (s : String) (rest : List Char) :
    readSpelling (s.toList.flatMap escape ++ '"' :: rest) = some (spelling s, rest) :=
  readSpelling_flatMap s.toList rest

/-! ### Whole numbers -/

/-- What may follow a number: nothing that would go on with it. -/
def Stops (rest : List Char) : Prop := ∀ c ∈ rest.head?, c.isDigit = false ∧ c ≠ '.' ∧ c ≠ 'e' ∧ c ≠ 'E'

@[simp] theorem stops_nil : Stops [] := by simp [Stops]
@[simp] theorem stops_comma (cs : List Char) : Stops (',' :: cs) := by simp [Stops]
@[simp] theorem stops_bracket (cs : List Char) : Stops (']' :: cs) := by simp [Stops]
@[simp] theorem stops_brace (cs : List Char) : Stops ('}' :: cs) := by simp [Stops]

/-- How a whole number is written. -/
def Literal.ofInt (n : Int) : Literal := ⟨n < 0, Nat.toDigits 10 n.natAbs, none, none⟩

theorem isDigit_toDigits (n : Nat) : ∀ c ∈ Nat.toDigits 10 n, c.isDigit = true := fun _ hc =>
  Nat.isDigit_of_mem_toDigits (by decide) (by decide) hc

theorem takeDigits_toDigits (n : Nat) {rest : List Char} (hrest : Stops rest) :
    takeDigits (Nat.toDigits 10 n ++ rest) = (Nat.toDigits 10 n, rest) := by
  have hnone : rest.takeWhile Char.isDigit = [] ∧ rest.dropWhile Char.isDigit = rest := by
    cases rest with
    | nil => exact ⟨rfl, rfl⟩
    | cons c cs => simp [(hrest c rfl).1]
  rw [takeDigits, List.takeWhile_append_of_pos (isDigit_toDigits n), List.dropWhile_append_of_pos (isDigit_toDigits n),
    hnone.1, hnone.2, List.append_nil]

/-- Only zero begins with a zero. -/
theorem toDigits_head? {n : Nat} (hn : 0 < n) : (Nat.toDigits 10 n).head? ≠ some '0' := by
  induction n using Nat.strongRecOn with
  | ind n ih =>
    by_cases hsmall : n < 10
    · rw [Nat.toDigits_of_lt_base hsmall]
      simp; omega
    · rw [Nat.toDigits_of_base_le (by decide) (by omega), List.head?_append,
        List.head?_eq_some_head Nat.toDigits_ne_nil,
        Option.some_or, ← List.head?_eq_some_head]
      exact ih (n / 10) (by omega) (by omega)

theorem readFraction_stops {rest : List Char} (hrest : Stops rest) : readFraction rest = some (none, rest) := by
  unfold readFraction
  split
  · exact absurd rfl (hrest _ rfl).2.1
  · rfl

theorem readExponent_stops {rest : List Char} (hrest : Stops rest) : readExponent rest = some (none, rest) := by
  cases rest with
  | nil => rfl
  | cons c cs => simp [readExponent, (hrest c rfl).2.2]

theorem length_toDigits_of_head? (n : Nat) (h : (Nat.toDigits 10 n).head? = some '0') :
    (Nat.toDigits 10 n).length = 1 := by
  rcases Nat.eq_zero_or_pos n with rfl | hpos
  · rfl
  · exact absurd h (toDigits_head? hpos)

theorem readLiteral_writeInt (n : Int) {rest : List Char} (hrest : Stops rest) :
    readLiteral (writeInt n ++ rest) = some (.ofInt n, rest) := by
  have hdigits := takeDigits_toDigits n.natAbs hrest
  have hzero := length_toDigits_of_head? n.natAbs
  by_cases hn : n < 0
  · simpa [writeInt, hn, readLiteral, hdigits, readFraction_stops hrest, readExponent_stops hrest, Literal.ofInt]
      using hzero
  · obtain ⟨c, cs, hcs⟩ := List.exists_cons_of_ne_nil (Nat.toDigits_ne_nil (n := n.natAbs) (b := 10))
    have hc : c ≠ '-' := by
      rintro rfl
      exact absurd (isDigit_toDigits n.natAbs '-' (by simp [hcs])) (by decide)
    rw [hcs] at hzero
    rw [hcs, List.cons_append] at hdigits
    simpa [writeInt, hn, readLiteral, hcs, hc, hdigits, readFraction_stops hrest, readExponent_stops hrest,
      Literal.ofInt] using hzero

/-- The zero with a sign, as it is written. -/
def Literal.minusZero : Literal := ⟨true, ['0'], some ['0'], none⟩

theorem readLiteral_minusZero {rest : List Char} (hrest : Stops rest) :
    readLiteral ('-' :: '0' :: '.' :: '0' :: rest) = some (.minusZero, rest) := by
  have hwhole : takeDigits ('0' :: '.' :: '0' :: rest) = (['0'], '.' :: '0' :: rest) := rfl
  have hfraction : takeDigits ('0' :: rest) = (['0'], rest) := takeDigits_toDigits 0 hrest
  simp [readLiteral, hwhole, readFraction, hfraction, readExponent_stops hrest, Literal.minusZero]

/-! ### Values -/

mutual

/-- The document that the text of a value spells; none if a number in it is fractional. -/
def document? : Json → Option Document
  | null => some .null
  | bool b => some (.bool b)
  | int n => some (.number (.ofInt n))
  | float x => if x = .zero true then some (.number .minusZero) else none
  | text s => some (.text (spelling s))
  | array items => (documents? items).map .array
  | object members => (memberDocuments? members).map .object

/-- The documents of the items of a list. -/
def documents? : List Json → Option (List Document)
  | [] => some []
  | v :: rest => do return (← document? v) :: (← documents? rest)

/-- The documents of the members of an object. -/
def memberDocuments? : List (String × Json) → Option (List (Spelling × Document))
  | [] => some []
  | (key, v) :: rest => do return (spelling key, ← document? v) :: (← memberDocuments? rest)

end

theorem skipSpace_of_head {c : Char} (hc : isSpace c = false) (cs : List Char) : skipSpace (c :: cs) = c :: cs := by
  simp [skipSpace, hc]

theorem writeInt_head (n : Int) : ∃ c cs, writeInt n = c :: cs ∧ (c = '-' ∨ c.isDigit = true) := by
  obtain ⟨c, cs, hcs⟩ := List.exists_cons_of_ne_nil (Nat.toDigits_ne_nil (n := n.natAbs) (b := 10))
  by_cases hn : n < 0
  · exact ⟨'-', c :: cs, by simp [writeInt, hn, hcs], Or.inl rfl⟩
  · exact ⟨c, cs, by simp [writeInt, hn, hcs], Or.inr (isDigit_toDigits n.natAbs c (by simp [hcs]))⟩

/-- A number begins with no space, with nothing that any other value begins with, and with nothing that ends an
array. -/
theorem number_head {c : Char} (hc : c = '-' ∨ c.isDigit = true) :
    c ∉ [' ', '\n', '\t', '\r', ']', 'n', 't', 'f', '"', '[', '{'] := by
  have hothers : ∀ other ∈ [' ', '\n', '\t', '\r', ']', 'n', 't', 'f', '"', '[', '{'],
      other ≠ '-' ∧ other.isDigit = false := by simp [Char.isDigit]
  intro hmem
  obtain ⟨hminus, hdigit⟩ := hothers c hmem
  rcases hc with hc | hc
  · exact hminus hc
  · rw [hdigit] at hc
    cases hc

/-- A written value begins with no space, and with nothing that ends an array. -/
theorem write_head {v : Json} {d : Document} (hd : document? v = some d) :
    ∃ c cs, write v = c :: cs ∧ isSpace c = false ∧ c ≠ ']' := by
  cases v with
  | bool b => cases b <;> exact ⟨_, _, rfl, rfl, by decide⟩
  | float x =>
    obtain ⟨rfl, -⟩ := Option.ite_none_right_eq_some.mp hd
    exact ⟨'-', ['0', '.', '0'], rfl, by decide, by decide⟩
  | int n =>
    obtain ⟨c, cs, hcs, hc⟩ := writeInt_head n
    have hhead := number_head hc
    simp only [List.mem_cons, not_or] at hhead
    exact ⟨c, cs, hcs, by simp [isSpace, hhead], hhead.2.2.2.2.1⟩
  | _ => exact ⟨_, _, rfl, rfl, by decide⟩

theorem readValue_number {c : Char} (hc : c = '-' ∨ c.isDigit = true) (fuel : Nat) (cs : List Char) :
    readValue (fuel + 1) (c :: cs) = (readLiteral (c :: cs)).map fun p => (.number p.1, p.2) := by
  have hhead := number_head hc
  simp only [List.mem_cons, not_or] at hhead
  rw [readValue, skipSpace_of_head (by simp [isSpace, hhead])]
  split <;> simp_all

theorem readValue_text (fuel : Nat) (s : String) (rest : List Char) :
    readValue (fuel + 1) (writeText s ++ rest) = some (.text (spelling s), rest) := by
  simp [writeText_append, readValue, skipSpace, isSpace, readSpelling_writeText]

theorem readValue_array {c : Char} (hspace : isSpace c = false) (hc : c ≠ ']') (fuel : Nat) (cs : List Char) :
    readValue (fuel + 1) ('[' :: c :: cs) = (readItems fuel (c :: cs)).map fun p => (.array p.1, p.2) := by
  rw [readValue, skipSpace_of_head (by decide)]
  simp [skipSpace_of_head hspace, hc]

theorem readValue_object (fuel : Nat) (cs : List Char) :
    readValue (fuel + 1) ('{' :: '"' :: cs) = (readMembers fuel ('"' :: cs)).map fun p => (.object p.1, p.2) := by
  simp [readValue, skipSpace, isSpace]

theorem writeItems_cons (v : Json) (rest : List Json) :
    writeItems (v :: rest) = write v ++ if rest = [] then [']'] else ',' :: writeItems rest := by
  cases rest <;> simp [writeItems]

theorem writeMembers_cons (key : String) (v : Json) (rest : List (String × Json)) :
    writeMembers ((key, v) :: rest) =
      writeText key ++ ':' :: (write v ++ if rest = [] then ['}'] else ',' :: writeMembers rest) := by
  cases rest <;> simp [writeMembers]

theorem documents?_cons {v : Json} {rest : List Json} {ds : List Document} (h : documents? (v :: rest) = some ds) :
    ∃ d ds', document? v = some d ∧ documents? rest = some ds' ∧ ds = d :: ds' := by
  simpa [documents?, Option.bind_eq_some_iff, eq_comm (b := ds)] using h

theorem memberDocuments?_cons {key : String} {v : Json} {rest : List (String × Json)} {ds : List (Spelling × Document)}
    (h : memberDocuments? ((key, v) :: rest) = some ds) :
    ∃ d ds', document? v = some d ∧ memberDocuments? rest = some ds' ∧ ds = (spelling key, d) :: ds' := by
  simpa [memberDocuments?, Option.bind_eq_some_iff, eq_comm (b := ds)] using h

-- The induction is along the value; the fuel is measured by the characters of the value alone, whatever follows it.
mutual

theorem readValue_write : ∀ (v : Json) {d : Document}, document? v = some d → ∀ (fuel : Nat) (rest : List Char),
    2 * (write v).length ≤ fuel → Stops rest → readValue fuel (write v ++ rest) = some (d, rest)
  | .null, d, hd, fuel + 1, rest, _, _ => by
    cases hd
    simp [write, readValue, skipSpace, isSpace]
  | .bool b, d, hd, fuel + 1, rest, _, _ => by
    cases hd
    cases b <;> simp [write, readValue, skipSpace, isSpace]
  | .int n, d, hd, fuel + 1, rest, _, hrest => by
    obtain ⟨c, cs, hcs, hc⟩ := writeInt_head n
    cases hd
    rw [write, hcs, List.cons_append, readValue_number hc, ← List.cons_append, ← hcs, readLiteral_writeInt n hrest]
    rfl
  | .float x, d, hd, fuel + 1, rest, _, hrest => by
    obtain ⟨rfl, hd⟩ := Option.ite_none_right_eq_some.mp hd
    cases hd
    have hwrite : write (.float (.zero true)) = ['-', '0', '.', '0'] := rfl
    simp only [hwrite, List.cons_append, List.nil_append]
    rw [readValue_number (Or.inl rfl), readLiteral_minusZero hrest]
    rfl
  | .text s, d, hd, fuel + 1, rest, _, _ => by
    cases hd
    exact readValue_text fuel s rest
  | .array [], d, hd, fuel + 1, rest, _, _ => by
    cases hd
    simp [write, writeItems, readValue, skipSpace, isSpace]
  | .array (v :: items), d, hd, fuel + 1, rest, hfuel, hrest => by
    obtain ⟨ds, hds, rfl⟩ := Option.map_eq_some_iff.mp hd
    have hitems := readItems_write v items hds fuel rest (by simp [write] at hfuel; omega)
    obtain ⟨d, -, hd, -, -⟩ := documents?_cons hds
    obtain ⟨c, cs, hcs, hspace, hc⟩ := write_head hd
    rw [writeItems_cons, hcs] at hitems
    rw [write, writeItems_cons, hcs]
    simp only [List.cons_append] at hitems ⊢
    rw [readValue_array hspace hc, hitems]
    rfl
  | .object [], d, hd, fuel + 1, rest, _, _ => by
    cases hd
    simp [write, writeMembers, readValue, skipSpace, isSpace]
  | .object ((key, v) :: members), d, hd, fuel + 1, rest, hfuel, hrest => by
    obtain ⟨ds, hds, rfl⟩ := Option.map_eq_some_iff.mp hd
    have hmembers := readMembers_write key v members hds fuel rest (by simp [write] at hfuel; omega)
    rw [writeMembers_cons, List.append_assoc, writeText_append] at hmembers
    rw [write, writeMembers_cons, List.cons_append, List.append_assoc, writeText_append, readValue_object, hmembers]
    rfl
  -- No value is written with no characters, so the fuel is not used up.
  | v, d, hd, 0, rest, hfuel, _ => by
    obtain ⟨c, cs, hcs, -⟩ := write_head hd
    simp [hcs] at hfuel

theorem readItems_write : ∀ (v : Json) (items : List Json) {ds : List Document}, documents? (v :: items) = some ds →
    ∀ (fuel : Nat) (rest : List Char), 2 * (writeItems (v :: items)).length ≤ fuel →
      readItems fuel (writeItems (v :: items) ++ rest) = some (ds, rest)
  | v, items, ds, hds, 0, rest, hfuel => by
    rw [writeItems_cons] at hfuel
    split at hfuel <;> simp at hfuel
  | v, [], ds, hds, fuel + 1, rest, hfuel => by
    obtain ⟨d, _, hd, hnil, rfl⟩ := documents?_cons hds
    cases hnil
    have hvalue := readValue_write v hd fuel (']' :: rest) (by simp [writeItems] at hfuel; omega)
      (stops_bracket rest)
    simp [writeItems, readItems, hvalue, skipSpace, isSpace]
  | v, w :: items, ds, hds, fuel + 1, rest, hfuel => by
    obtain ⟨d, ds', hd, hds', rfl⟩ := documents?_cons hds
    rw [writeItems_cons, if_neg (List.cons_ne_nil w items)] at hfuel ⊢
    simp only [List.length_append, List.length_cons] at hfuel
    have hvalue := readValue_write v hd fuel (',' :: (writeItems (w :: items) ++ rest)) (by omega)
      (stops_comma _)
    have hitems := readItems_write w items hds' fuel rest (by omega)
    simp [readItems, hvalue, hitems, skipSpace, isSpace]

theorem readMembers_write : ∀ (key : String) (v : Json) (members : List (String × Json))
    {ds : List (Spelling × Document)}, memberDocuments? ((key, v) :: members) = some ds →
    ∀ (fuel : Nat) (rest : List Char), 2 * (writeMembers ((key, v) :: members)).length ≤ fuel →
      readMembers fuel (writeMembers ((key, v) :: members) ++ rest) = some (ds, rest)
  | key, v, members, ds, hds, 0, rest, hfuel => by
    simp [writeMembers_cons] at hfuel
  | key, v, [], ds, hds, fuel + 1, rest, hfuel => by
    obtain ⟨d, _, hd, hnil, rfl⟩ := memberDocuments?_cons hds
    cases hnil
    have hvalue := readValue_write v hd fuel ('}' :: rest) (by simp [writeMembers] at hfuel; omega)
      (stops_brace rest)
    rw [writeMembers_cons, List.append_assoc, writeText_append]
    simp [readMembers, readSpelling_writeText, hvalue, skipSpace, isSpace]
  | key, v, (other, w) :: members, ds, hds, fuel + 1, rest, hfuel => by
    obtain ⟨d, ds', hd, hds', rfl⟩ := memberDocuments?_cons hds
    rw [writeMembers_cons, if_neg (List.cons_ne_nil (other, w) members)] at hfuel ⊢
    simp only [List.length_append, List.length_cons] at hfuel
    have hvalue := readValue_write v hd fuel (',' :: (writeMembers ((other, w) :: members) ++ rest))
      (by omega) (stops_comma _)
    have hmembers := readMembers_write other w members hds' fuel rest (by omega)
    rw [List.append_assoc, writeText_append]
    simp [readMembers, readSpelling_writeText, hvalue, hmembers, skipSpace, isSpace]

end

/-- The text of a value is read as the document that spells it. -/
theorem read?_toText {v : Json} {d : Document} (hd : document? v = some d) : Document.read? v.toText = some d := by
  have hvalue := readValue_write v hd (2 * (write v).length + 1) [] (Nat.le_succ _) stops_nil
  rw [List.append_nil] at hvalue
  simp only [Document.read?, toText, String.toList_ofList, hvalue]
  rfl

/-! ### Values that are read again as they are -/

mutual

/-- The numbers of a value have 64 bits, except for the zero with a sign, its objects are in the order of their keys,
and its arrays and objects are nested at most `depth` deep. -/
def Readable (depth : Nat) : Json → Prop
  | null => True
  | bool _ => True
  | int n => -(Literal.negativeMax : Int) ≤ n ∧ n ≤ Literal.wordMax
  | float x => x = .zero true
  | text _ => True
  | array items => 0 < depth ∧ ReadableItems (depth - 1) items
  | object members => 0 < depth ∧ Dictionary.Sorted members ∧ ReadableMembers (depth - 1) members

/-- The items of a list can be read at a depth. -/
def ReadableItems (depth : Nat) : List Json → Prop
  | [] => True
  | v :: rest => Readable depth v ∧ ReadableItems depth rest

/-- The members of an object can be read at a depth. -/
def ReadableMembers (depth : Nat) : List (String × Json) → Prop
  | [] => True
  | (_, v) :: rest => Readable depth v ∧ ReadableMembers depth rest

end

theorem absorb_ofDigitChars (cs : List Char) {n : Nat} (h : Nat.ofDigitChars 10 cs n ≤ Literal.wordMax) :
    Literal.absorb n cs = (Nat.ofDigitChars 10 cs n, []) := by
  induction cs generalizing n with
  | nil => rfl
  | cons c cs ih =>
    rw [Nat.ofDigitChars_cons] at h ⊢
    have hgrows : 10 * n + (c.toNat - '0'.toNat) ≤ Nat.ofDigitChars 10 cs (10 * n + (c.toNat - '0'.toNat)) := by
      rw [Nat.ofDigitChars_eq_ofDigitChars_zero]
      exact Nat.le_add_right_of_le (Nat.le_mul_of_pos_left _ (Nat.pow_pos (by decide)))
    rw [Literal.absorb, if_pos (Nat.le_trans hgrows h), ih h]

theorem toJson?_minusZero : Literal.minusZero.toJson? = some (.float (.zero true)) := rfl

theorem toJson?_ofInt {n : Int} (hlow : -(Literal.negativeMax : Int) ≤ n) (hhigh : n ≤ Literal.wordMax) :
    (Literal.ofInt n).toJson? = some (.int n) := by
  have hdigits : Nat.ofDigitChars 10 (Nat.toDigits 10 n.natAbs) 0 = n.natAbs :=
    Nat.ofDigitChars_toDigits (by decide) (by decide)
  have habsorb : Literal.absorb 0 (Nat.toDigits 10 n.natAbs) = (n.natAbs, []) := by
    rw [absorb_ofDigitChars, hdigits]
    rw [hdigits]
    simp only [Literal.negativeMax, Literal.wordMax] at hlow hhigh ⊢
    omega
  by_cases hn : n < 0
  · have hmost : n.natAbs ≠ 0 ∧ n.natAbs ≤ Literal.negativeMax := by omega
    have hread : (Literal.ofInt n).toJson? = some (.int (-n.natAbs)) := by
      simp [Literal.ofInt, Literal.toJson?, habsorb, hn, hmost]
    rw [hread, Int.ofNat_natAbs_of_nonpos (Int.le_of_lt hn), Int.neg_neg]
  · have hread : (Literal.ofInt n).toJson? = some (.int n.natAbs) := by
      simp [Literal.ofInt, Literal.toJson?, habsorb, hn]
    rw [hread, Int.natAbs_of_nonneg (Int.not_lt.mp hn)]

mutual

theorem toJsonWithin?_document? : ∀ (v : Json) {d : Document} {depth : Nat}, document? v = some d → Readable depth v →
    d.toJsonWithin? depth = some v
  | .null, _, _, hd, _ => by cases hd; rfl
  | .bool _, _, _, hd, _ => by cases hd; rfl
  | .int n, _, _, hd, hv => by
    cases hd
    exact toJson?_ofInt hv.1 hv.2
  | .float x, _, _, hd, _ => by
    obtain ⟨rfl, hd⟩ := Option.ite_none_right_eq_some.mp hd
    cases hd
    exact toJson?_minusZero
  | .text s, _, _, hd, _ => by
    cases hd
    simp [Document.toJsonWithin?]
  | .array items, _, _, hd, hv => by
    obtain ⟨ds, hds, rfl⟩ := Option.map_eq_some_iff.mp hd
    simp [Document.toJsonWithin?, Nat.ne_of_gt hv.1, itemsWithin?_documents? items hds hv.2]
  | .object members, _, _, hd, hv => by
    obtain ⟨ds, hds, rfl⟩ := Option.map_eq_some_iff.mp hd
    simp [Document.toJsonWithin?, Nat.ne_of_gt hv.1, membersWithin?_memberDocuments? members hds hv.2.2,
      Dictionary.Sorted.ofEntries hv.2.1]

theorem itemsWithin?_documents? : ∀ (items : List Json) {ds : List Document} {depth : Nat},
    documents? items = some ds → ReadableItems depth items → Document.itemsWithin? depth ds = some items
  | [], _, _, hds, _ => by cases hds; rfl
  | v :: rest, _, _, hds, hv => by
    obtain ⟨d, ds, hd, hrest, rfl⟩ := documents?_cons hds
    simp [Document.itemsWithin?, toJsonWithin?_document? v hd hv.1, itemsWithin?_documents? rest hrest hv.2]

theorem membersWithin?_memberDocuments? : ∀ (members : List (String × Json)) {ds : List (Spelling × Document)}
    {depth : Nat}, memberDocuments? members = some ds → ReadableMembers depth members →
      Document.membersWithin? depth ds = some members
  | [], _, _, hds, _ => by cases hds; rfl
  | (key, v) :: rest, _, _, hds, hv => by
    obtain ⟨d, ds, hd, hrest, rfl⟩ := memberDocuments?_cons hds
    simp [Document.membersWithin?, toJsonWithin?_document? v hd hv.1, membersWithin?_memberDocuments? rest hrest hv.2]

end

/-- A value is read again as it was written. -/
theorem toJson?_toText {v : Json} {d : Document} (hd : document? v = some d) (hv : Readable Document.depthLimit v) :
    (Document.read? v.toText).bind (·.toJson?) = some v := by
  rw [read?_toText hd, Option.bind_some, Document.toJson?, toJsonWithin?_document? v hd hv]

end ProcessRuns.Json
