import DeclGraph.Json.Skip
import DeclGraph.Word

/-!
# Codecs

A codec reads values of a type from JSON and writes them. Each kind of value says what it expects
when something else stands in its place. Values are written on lines of their own inside lists
and records, two spaces deeper than what they stand in; `depth` counts the levels.
-/

namespace DeclGraph.Json

/-- How values of a type are read and written. -/
structure Codec (α : Type) where
  read : Reader α
  write : Nat → α → List Char
  /-- Whether a record leaves the value out. -/
  isAbsent : α → Bool := fun _ => false

/-- Fails because of the value that starts here, where another kind was expected. A value that is
itself faulty is reported as such. -/
def mismatch {α : Type} (expected : String) (s : List Char) : Except ReadError α := do
  let found : Found ← match s with
    | 'n' :: r => do let _ ← readWord ['u', 'l', 'l'] r; pure .null
    | 't' :: r => do let _ ← readWord ['r', 'u', 'e'] r; pure (.bool true)
    | 'f' :: r => do let _ ← readWord ['a', 'l', 's', 'e'] r; pure (.bool false)
    | '-' :: r => do let (n, _) ← readNumber false r; pure (.number n)
    | '"' :: r => do let (cs, _) ← readChars r; pure (.text (String.ofList cs))
    | '[' :: _ => pure .list
    | '{' :: _ => pure .object
    | c :: r =>
      if c.isDigit then do let (n, _) ← readNumber true (c :: r); pure (.number n)
      else malformed .expectedValue
    | [] => malformed .expectedValue
  .error (.invalidType found expected)

/-- Takes a number that must be natural and at most `bound`. -/
def expectNatural (bound : Nat) (expected : String) :
    Number × List Char → Except ReadError (Nat × List Char)
  | (.natural n, r) =>
    if n ≤ bound then .ok (n, r) else .error (.invalidValue (.number (.natural n)) expected)
  | (.negative n, _) => .error (.invalidValue (.number (.negative n)) expected)
  | (.float x, _) => .error (.invalidType (.number (.float x)) expected)

/-- Reads a natural number of at most `bound`. -/
def readNatural (bound : Nat) (expected : String) : Reader Nat := fun s =>
  match skipBlanks s with
  | [] => ended .value
  | '-' :: r => do expectNatural bound expected (← readNumber false r)
  | c :: r =>
    if c.isDigit then do expectNatural bound expected (← readNumber true (c :: r))
    else mismatch expected (c :: r)

/-- Reads a string; `expected` says what is wanted in its place. -/
def readText (expected : String) : Reader String := fun s =>
  match skipBlanks s with
  | [] => ended .value
  | '"' :: r => (readChars r).map fun (cs, r) => (String.ofList cs, r)
  | s => mismatch expected s

/-- Reads a truth value. -/
def readBool : Reader Bool := fun s =>
  match skipBlanks s with
  | [] => ended .value
  | 't' :: r => (readWord ['r', 'u', 'e'] r).map (true, ·)
  | 'f' :: r => (readWord ['a', 'l', 's', 'e'] r).map (false, ·)
  | s => mismatch "a boolean" s

/-! ## Lists -/

/-- Finds the next element of a list of which `isFirst` says that nothing has been read, or
nothing at its end. The closing bracket is left in place. -/
def nextElement? (isFirst : Bool) (s : List Char) : Except ReadError (Option (List Char)) :=
  match skipBlanks s with
  | [] => ended .list
  | ']' :: _ => .ok none
  | c :: r =>
    if isFirst then .ok (some (c :: r))
    else if c = ',' then
      match skipBlanks r with
      | [] => ended .value
      | ']' :: _ => malformed .trailingComma
      | r => .ok (some r)
    else malformed .expectedListEnd

/-- The text after the closing bracket of a list that must end here. -/
def endList (s : List Char) : Except ReadError (List Char) :=
  match skipBlanks s with
  | ']' :: r => .ok r
  | ',' :: r =>
    match skipBlanks r with
    | ']' :: _ => malformed .trailingComma
    | _ => malformed .trailingCharacters
  | [] => ended .list
  | _ => malformed .trailingCharacters

/-- Reads the elements of a list up to its closing bracket, at most `steps` of them. -/
def readElements {α : Type} (read : Reader α) : Nat → Bool → Reader (List α)
  | 0, _, _ => ended .list
  | steps + 1, isFirst, s => do
    match ← nextElement? isFirst s with
    | none => return ([], ← endList s)
    | some s =>
      let (a, s) ← read s
      let (rest, s) ← readElements read steps false s
      return (a :: rest, s)

/-- Reads a list. Every element takes a character. -/
def readList {α : Type} (read : Reader α) : Reader (List α) := fun s =>
  match skipBlanks s with
  | [] => ended .value
  | '[' :: r => readElements read (r.length + 1) true r
  | s => mismatch "a sequence" s

/-! ## Writing -/

/-- The start of a line at a depth. -/
def indent (depth : Nat) : List Char := List.replicate (2 * depth) ' '

/-- Parts on lines of their own between brackets. -/
def writeBlock (opening closing : Char) (depth : Nat) (parts : List (List Char)) : List Char :=
  match parts with
  | [] => [opening, closing]
  | _ =>
    opening :: '\n' :: Text.join [',', '\n'] (parts.map (indent (depth + 1) ++ ·)) ++
      '\n' :: indent depth ++ [closing]

namespace Codec

/-- Strings. -/
def text : Codec String := ⟨readText "a string", fun _ s => writeText s.toList, fun _ => false⟩

/-- Truth values. -/
def bool : Codec Bool :=
  ⟨readBool, fun _ b => (toString b).toList, fun _ => false⟩

/-- Natural numbers up to a bound, under the name of the field's type. -/
def natural (bound : Nat) (expected : String) : Codec Nat :=
  ⟨readNatural bound expected, fun _ n => Text.decimal n, fun _ => false⟩

/-- The codec of a type whose values are those of another by `f` and back by `g`. -/
def map {α β : Type} (c : Codec α) (f : α → β) (g : β → α) : Codec β :=
  { read := fun s => (c.read s).map fun (a, r) => (f a, r)
    write := fun depth b => c.write depth (g b)
    isAbsent := fun b => c.isAbsent (g b) }

/-- Bytes. -/
def byte : Codec UInt8 := (natural 255 "u8").map UInt8.ofNat UInt8.toNat

/-- 32-bit words. -/
def word : Codec UInt32 := (natural maxWord "u32").map UInt32.ofNat UInt32.toNat

/-- 64-bit words. -/
def long : Codec UInt64 := (natural maxNatural "u64").map UInt64.ofNat UInt64.toNat

/-- Counts. -/
def count : Codec Nat := natural maxNatural "usize"

/-- Values that may be missing, or null. -/
def option {α : Type} (c : Codec α) : Codec (Option α) :=
  { read := fun s =>
      match skipBlanks s with
      | 'n' :: r => (readWord ['u', 'l', 'l'] r).map (none, ·)
      | s => (c.read s).map fun (a, r) => (some a, r)
    write := fun depth a => (a.map (c.write depth)).getD "null".toList
    isAbsent := Option.isNone }

/-- Lists. -/
def list {α : Type} (c : Codec α) : Codec (List α) :=
  { read := readList c.read
    write := fun depth as => writeBlock '[' ']' depth (as.map (c.write (depth + 1))) }

/-- Reads one of several names, alone or as the only key of an object whose value is null. -/
def readName {α : Type} (choices : List (String × α)) : Reader α := fun s => do
  let choose (name : String) : Except ReadError α :=
    match choices.lookup name with
    | some a => .ok a
    | none => .error (.unknownVariant name (choices.map Prod.fst))
  match skipBlanks s with
  | [] => ended .value
  | '"' :: r =>
    let (cs, r) ← readChars r
    return (← choose (String.ofList cs), r)
  | '{' :: r =>
    let (name, r) ← readText "variant identifier" r
    let a ← choose name
    let r ← readColon r
    let r ← match skipBlanks r with
      | [] => ended .value
      | 'n' :: r => readWord ['u', 'l', 'l'] r
      | s => mismatch "unit" s
    match skipBlanks r with
    | '}' :: r => return (a, r)
    | [] => ended .object
    | _ => malformed .expectedValue
  | _ => malformed .expectedValue

/-- One of several names. -/
def choice {α : Type} (choices : List (String × α)) (name : α → String) : Codec α :=
  ⟨readName choices, fun _ a => writeText (name a).toList, fun _ => false⟩

end Codec

end DeclGraph.Json
