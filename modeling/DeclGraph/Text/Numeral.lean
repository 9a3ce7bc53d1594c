import DeclGraph.Text.Basic

/-!
# Numerals

Natural numbers written and read in a base, with a bound on what a field can hold.
-/

namespace DeclGraph.Text

/-- The value of a digit, letters counting from ten in either case. -/
def digitValue (c : Char) : Option Nat :=
  if c.isDigit then some (c.toNat - '0'.toNat)
  else if 'a' ≤ c && c ≤ 'z' then some (c.toNat - 'a'.toNat + 10)
  else if 'A' ≤ c && c ≤ 'Z' then some (c.toNat - 'A'.toNat + 10)
  else none

/-- Reads digits onto the number read so far. -/
def readDigits (base : Nat) : Nat → List Char → Option Nat
  | n, [] => some n
  | n, c :: r =>
    match digitValue c with
    | some d => if d < base then readDigits base (n * base + d) r else none
    | none => none

/-- Reads a nonempty numeral whose value is at most `bound`. A plus sign may stand before it. -/
def readUnsigned (base bound : Nat) (s : List Char) : Option Nat :=
  let digits := (after? ['+'] s).getD s
  if digits.isEmpty then none
  else (readDigits base 0 digits).filter (· ≤ bound)

/-- The decimal numeral of a number. -/
def decimal (n : Nat) : List Char := Nat.toDigits 10 n

/-- The hexadecimal numeral of a number, in capitals. -/
def upperHex (n : Nat) : String := String.ofList ((Nat.toDigits 16 n).map Char.toUpper)

/-- A number as `0x` and its hexadecimal numeral. -/
def hexOffset (n : Nat) : String := "0x" ++ upperHex n

example : readUnsigned 10 255 "+255".toList = some 255 := by decide +kernel
example : readUnsigned 10 255 "256".toList = none := by decide +kernel
example : readUnsigned 16 255 "fF".toList = some 255 := by decide +kernel
example : readUnsigned 10 255 "+".toList = none := by decide +kernel
example : hexOffset 4096 = "0x1000" := by decide +kernel

end DeclGraph.Text
