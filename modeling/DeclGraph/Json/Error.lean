import DeclGraph.Decimal.Shortest
import DeclGraph.Text.Quoted

/-!
# Why a JSON text cannot be read

A text is read from its start, and the first problem met is reported. Problems are of three
categories: the text is not JSON, it ends too early, or it is JSON of the wrong shape.
-/

namespace DeclGraph.Json

open Text

/-- A number as it is written in a text. -/
inductive Number
  | natural (n : Nat)
  /-- The number `-n`. -/
  | negative (n : Nat)
  | float (x : Float)

/-- What was found in place of what was expected. -/
inductive Found
  | null
  | bool (b : Bool)
  | number (n : Number)
  | text (s : String)
  | list
  | object

/-- What was found, as messages name it. -/
def Found.describe : Found → String
  | null => "null"
  | bool b => "boolean \x60" ++ toString b ++ "\x60"
  | number (.natural n) => "integer \x60" ++ toString n ++ "\x60"
  | number (.negative n) => "integer \x60-" ++ toString n ++ "\x60"
  | number (.float x) => "floating point \x60" ++ Decimal.shortestFloat x ++ "\x60"
  | text s => "string " ++ quoted s
  | list => "sequence"
  | object => "map"

/-- What was being read when the text ended. -/
inductive Unfinished
  | value | list | object | text
  deriving DecidableEq, Repr

/-- What makes a text no JSON. -/
inductive Malformation
  | expectedColon | expectedListEnd | expectedObjectEnd | expectedIdent | expectedValue
  | invalidEscape | invalidNumber | numberOutOfRange | controlCharacter | keyMustBeString
  | loneSurrogate | unfinishedSurrogate | trailingComma | trailingCharacters
  deriving DecidableEq, Repr

/-- Why a text cannot be read. -/
inductive ReadError
  | unfinished (what : Unfinished)
  | malformed (what : Malformation)
  | invalidType (found : Found) (expected : String)
  | invalidValue (found : Found) (expected : String)
  | invalidLength (length : Nat) (expected : String)
  | missingField (name : String)
  | duplicateField (name : String)
  | unknownVariant (name : String) (choices : List String)

/-- The categories of problems. -/
inductive Category
  | syntax_ | eof | data
  deriving DecidableEq, Repr

namespace ReadError

/-- The category of a problem. -/
def category : ReadError → Category
  | unfinished _ => .eof
  | malformed _ => .syntax_
  | _ => .data

/-- The problem as it is reported. -/
def message : ReadError → String
  | unfinished .value => "EOF while parsing a value"
  | unfinished .list => "EOF while parsing a list"
  | unfinished .object => "EOF while parsing an object"
  | unfinished .text => "EOF while parsing a string"
  | malformed .expectedColon => "expected \x60:\x60"
  | malformed .expectedListEnd => "expected \x60,\x60 or \x60]\x60"
  | malformed .expectedObjectEnd => "expected \x60,\x60 or \x60\x7d\x60"
  | malformed .expectedIdent => "expected ident"
  | malformed .expectedValue => "expected value"
  | malformed .invalidEscape => "invalid escape"
  | malformed .invalidNumber => "invalid number"
  | malformed .numberOutOfRange => "number out of range"
  | malformed .controlCharacter =>
    "control character (\\u0000-\\u001F) found while parsing a string"
  | malformed .keyMustBeString => "key must be a string"
  | malformed .loneSurrogate => "lone leading surrogate in hex escape"
  | malformed .unfinishedSurrogate => "unexpected end of hex escape"
  | malformed .trailingComma => "trailing comma"
  | malformed .trailingCharacters => "trailing characters"
  | invalidType found expected => "invalid type: " ++ found.describe ++ ", expected " ++ expected
  | invalidValue found expected =>
    "invalid value: " ++ found.describe ++ ", expected " ++ expected
  | invalidLength length expected =>
    "invalid length " ++ toString length ++ ", expected " ++ expected
  | missingField name => "missing field \x60" ++ name ++ "\x60"
  | duplicateField name => "duplicate field \x60" ++ name ++ "\x60"
  | unknownVariant name choices =>
    "unknown variant \x60" ++ name ++ "\x60, expected one of " ++
      joinStrings ", " (choices.map fun c => "\x60" ++ c ++ "\x60")

end ReadError

/-- Reads a value from the start of a text and gives the rest. -/
abbrev Reader (α : Type) := List Char → Except ReadError (α × List Char)

/-- Fails because the text ends. -/
def ended {α : Type} (what : Unfinished) : Except ReadError α := .error (.unfinished what)

/-- Fails because the text is no JSON. -/
def malformed {α : Type} (what : Malformation) : Except ReadError α := .error (.malformed what)

end DeclGraph.Json
