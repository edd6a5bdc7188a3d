/-! # Blank characters

White space as the Unicode character database defines it, and text without the blanks at its ends. -/

namespace ProcessRuns.Text

/-- A blank is a character with Unicode's `White_Space` property. -/
def isBlank (c : Char) : Bool :=
  let n := c.toNat
  (9 ≤ n && n ≤ 13) || n == 0x20 || n == 0x85 || n == 0xA0 || n == 0x1680 || (0x2000 ≤ n && n ≤ 0x200A) ||
    n == 0x2028 || n == 0x2029 || n == 0x202F || n == 0x205F || n == 0x3000

/-- The text from its first character that is no blank. -/
def trimStart (cs : List Char) : List Char := cs.dropWhile isBlank

/-- The text from its first to its last character that is no blank. -/
def trim (cs : List Char) : List Char := (trimStart (trimStart cs).reverse).reverse

theorem trimStart_eq_self {c : Char} {cs : List Char} (h : isBlank c = false) : trimStart (c :: cs) = c :: cs := by
  simp [trimStart, h]

/-- A text without blanks is its own trimmed form. -/
theorem trim_eq_self {cs : List Char} (h : ∀ c ∈ cs, isBlank c = false) : trim cs = cs := by
  have start : ∀ {l : List Char}, (∀ c ∈ l, isBlank c = false) → trimStart l = l := by
    intro l hl
    cases l with
    | nil => rfl
    | cons c l => exact trimStart_eq_self (hl c (by simp))
  rw [trim, start h, start (by simpa using h), List.reverse_reverse]

end ProcessRuns.Text
