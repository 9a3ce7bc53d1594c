import DeclGraph.Text.Ranges

/-!
# Character classes

* `isBlank`: the property White_Space.
* `isAlphanumeric`: the property Alphabetic, or a number of any kind.
* `isWordChar`: what an identifier is made of: letters, marks, decimal digits, connectors and
  joiners.
* `isUnprintable`: what a quoted message shows by its code point.
-/

namespace DeclGraph.Text

/-- Unicode white space. Zero-width characters and the information separators are not blank. -/
def isBlank (c : Char) : Bool :=
  let n := c.toNat
  n == 0x20 || (0x09 ≤ n && n ≤ 0x0D) || n == 0x85 || n == 0xA0 || n == 0x1680 ||
    (0x2000 ≤ n && n ≤ 0x200A) || n == 0x2028 || n == 0x2029 || n == 0x202F || n == 0x205F ||
    n == 0x3000

/-- A letter, or a combining sign that spells one. -/
def isAlphabetic (c : Char) : Bool :=
  if c.toNat < 0x80 then c.isAlpha else inRanges c.toNat alphabeticRanges

/-- A decimal digit of any script. -/
def isDecimalDigit (c : Char) : Bool :=
  if c.toNat < 0x80 then c.isDigit else inRanges c.toNat decimalDigitRanges

/-- A letter or a number of any kind. -/
def isAlphanumeric (c : Char) : Bool :=
  isAlphabetic c || isDecimalDigit c || inRanges c.toNat otherNumberRanges

/-- A character of an identifier. -/
def isWordChar (c : Char) : Bool :=
  isAlphabetic c || isDecimalDigit c || c == '_' || inRanges c.toNat plainMarkRanges ||
    inRanges c.toNat connectorRanges || c == '\u200C' || c == '\u200D'

/-- A character that a quoted message shows by its code point. -/
def isUnprintable (c : Char) : Bool :=
  c.toNat < 0x20 || c.toNat == 0x7F || inRanges c.toNat unprintableRanges

/-- Blanks of the standard library are blanks here. -/
theorem isBlank_of_isWhitespace {c : Char} (h : c.isWhitespace = true) : isBlank c = true := by
  simp only [Char.isWhitespace, Bool.or_eq_true, decide_eq_true_eq] at h
  rcases h with ((rfl | rfl) | rfl) | rfl <;> decide

example : isWordChar 'é' ∧ isWordChar '\u0301' ∧ isWordChar '٣' ∧ ¬ isWordChar '½' := by
  decide +kernel

example : isAlphanumeric '½' ∧ isAlphanumeric 'ß' ∧ ¬ isAlphanumeric '\u0301' := by
  decide +kernel

example : isBlank '\u3000' ∧ ¬ isBlank '\u200B' ∧ ¬ isBlank '\x1c' := by decide

end DeclGraph.Text
