import ScopedLambda.Text.CodeRange

/-!
# Blank characters

The characters that separate tokens — those with the Unicode property `White_Space`.

* `blankRanges` — the property as a table.
* `isBlank` — whether a character has it.

Every character that is white space in ASCII is blank (`isBlank_of_isWhitespace`).
-/

set_option autoImplicit false

namespace ScopedLambda.Text

/-- The code points with the property `White_Space`. -/
def blankRanges : List CodeRange := [
  ⟨0x9, 0xD⟩, ⟨0x20, 0x20⟩, ⟨0x85, 0x85⟩, ⟨0xA0, 0xA0⟩, ⟨0x1680, 0x1680⟩, ⟨0x2000, 0x200A⟩,
  ⟨0x2028, 0x2029⟩, ⟨0x202F, 0x202F⟩, ⟨0x205F, 0x205F⟩, ⟨0x3000, 0x3000⟩]

/-- Whether a character separates tokens and is otherwise ignored. -/
def isBlank (c : Char) : Bool := covers blankRanges c.toNat

theorem blankRanges_ascending : Ascending blankRanges := by decide

/-- The blanks of ASCII are blank. -/
theorem isBlank_of_isWhitespace {c : Char} (h : c.isWhitespace = true) : isBlank c = true := by
  simp only [Char.isWhitespace, Bool.or_eq_true, decide_eq_true_eq] at h
  rcases h with ((rfl | rfl) | rfl) | rfl <;> decide

end ScopedLambda.Text
