import ProcessRuns.Text.CaseTable

/-! # Lower case

The lower-case form of a text: ASCII letters by arithmetic, all others by the tables of
`ProcessRuns.Text.CaseTable`. Two characters depend on more than themselves: `İ` becomes two characters, and
a capital sigma at the end of a word becomes `ς`. -/

namespace ProcessRuns.Text

/-- The lower-case letter of one character, where it is a single character. -/
def lowerChar (c : Char) : Char :=
  if c.toNat < 0x80 then c.toLower
  else
    match lowerRuns.find? fun r => r.first ≤ c.toNat && c.toNat ≤ r.last && (c.toNat - r.first) % r.step == 0 with
    | some r => Char.ofNat (c.toNat + r.shift).toNat
    | none => c

/-- A character lies in one of the ranges. -/
def CodeRange.holds (rs : List CodeRange) (c : Char) : Bool :=
  rs.any fun r => r.first ≤ c.toNat && c.toNat ≤ r.last

/-- The nearest character of a context that is not skipped has a case. -/
def casedNext (cs : List Char) : Bool :=
  match cs.find? fun c => !CodeRange.holds ignorableRanges c with
  | some c => CodeRange.holds casedRanges c
  | none => false

/-- Lower-cases a text that is preceded by the reversed text `before`. -/
def lowerAfter (before : List Char) : List Char → List Char
  | [] => []
  | c :: cs =>
    let here :=
      if c == 'Σ' then [if casedNext before && !casedNext cs then 'ς' else 'σ']
      else if c == 'İ' then ['i', '\u0307']
      else [lowerChar c]
    here ++ lowerAfter (c :: before) cs

/-- The lower-case form of a text. -/
def lower (cs : List Char) : List Char := lowerAfter [] cs

theorem lowerChar_ascii {c : Char} (h : c.toNat < 0x80) : lowerChar c = c.toLower := by
  simp [lowerChar, h]

theorem lowerAfter_ascii {cs : List Char} (h : ∀ c ∈ cs, c.toNat < 0x80) (before : List Char) :
    lowerAfter before cs = cs.map Char.toLower := by
  induction cs generalizing before with
  | nil => rfl
  | cons c cs ih =>
    have hc := h c (by simp)
    have hsigma : (c == 'Σ') = false := by
      rw [beq_eq_false_iff_ne]; rintro rfl; exact absurd hc (by decide)
    have hdot : (c == 'İ') = false := by
      rw [beq_eq_false_iff_ne]; rintro rfl; exact absurd hc (by decide)
    simp [lowerAfter, hsigma, hdot, lowerChar_ascii hc, ih (fun x hx => h x (by simp [hx]))]

/-- ASCII text is lower-cased letter by letter. -/
theorem lower_ascii {cs : List Char} (h : ∀ c ∈ cs, c.toNat < 0x80) : lower cs = cs.map Char.toLower :=
  lowerAfter_ascii h []

end ProcessRuns.Text
