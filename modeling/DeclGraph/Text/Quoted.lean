import DeclGraph.Text.CharClass
import DeclGraph.Text.Numeral

/-!
# Quoted text in messages

A text between quotes as messages show it: quotes and backslashes are escaped, line breaks and
tabs have short escapes, and what cannot be shown is written by its code point.
-/

namespace DeclGraph.Text

/-- A character as it stands between quotes. -/
def quotedChar (c : Char) : List Char :=
  if c = '\x00' then ['\\', '0']
  else if c = '\t' then ['\\', 't']
  else if c = '\r' then ['\\', 'r']
  else if c = '\n' then ['\\', 'n']
  else if c = '"' then ['\\', '"']
  else if c = '\\' then ['\\', '\\']
  else if isUnprintable c then ['\\', 'u', '{'] ++ Nat.toDigits 16 c.toNat ++ ['}']
  else [c]

/-- A text between quotes. -/
def quoted (s : String) : String := String.ofList ('"' :: s.toList.flatMap quotedChar ++ ['"'])

example : quoted "a\"\n" = "\"a\\\"\\n\"" := by decide +kernel

end DeclGraph.Text
