import DeclGraph.Json.Codec

/-!
# Records

A record is an object with known keys. A schema lists its columns in order, each with its codec
and its place in the record, and gives the record in which all columns have their default. It
reads a record from an object, whose keys may come in any order and among unknown ones, or from a
list of the columns in order; and it writes the columns in order, less those that are absent.
-/

namespace DeclGraph.Json

/-- A column of records `ρ`. -/
structure Column (ρ : Type) where
  name : String
  /-- Whether a record must have the column. -/
  required : Bool
  /-- Reads a value and gives the change that puts it into a record. -/
  read : Reader (ρ → ρ)
  /-- Writes the value of a record, unless it is absent. -/
  write : Nat → ρ → Option (List Char)

/-- The column `name` of records, with the place of its value. -/
def Column.make {ρ α : Type} (name : String) (c : Codec α) (get : ρ → α) (set : α → ρ → ρ)
    (required : Bool := false) : Column ρ :=
  { name
    required
    read := fun s => (c.read s).map fun (a, r) => (set a, r)
    write := fun depth r =>
      if c.isAbsent (get r) then none else some (c.write depth (get r)) }

/-- The columns of records `ρ`. -/
structure Schema (ρ : Type) where
  /-- What is expected in place of a record. -/
  title : String
  /-- The record without any column. -/
  blank : ρ
  columns : List (Column ρ)

/-- Finds the next key of an object, or nothing at its end. The text after the key's opening
quote, or after the closing brace, comes with it. -/
def nextKey (isFirst : Bool) (s : List Char) : Except ReadError (Bool × List Char) :=
  match skipBlanks s with
  | [] => ended .object
  | '}' :: r => .ok (false, r)
  | c :: r =>
    if isFirst then
      if c = '"' then .ok (true, r) else malformed .keyMustBeString
    else if c = ',' then
      match skipBlanks r with
      | '"' :: r => .ok (true, r)
      | '}' :: _ => malformed .trailingComma
      | [] => ended .value
      | _ => malformed .keyMustBeString
    else malformed .expectedObjectEnd

namespace Schema

variable {ρ : Type} (schema : Schema ρ)

/-- The record, if no required column is missing among those seen. -/
def finish (seen : List String) (record : ρ) : Except ReadError ρ :=
  match schema.columns.find? fun c => c.required && !seen.contains c.name with
  | some c => .error (.missingField c.name)
  | none => .ok record

/-- Reads the entries of an object up to its closing brace, at most `steps` of them. -/
def readEntries : Nat → Bool → List String → ρ → Reader ρ
  | 0, _, _, _, _ => ended .object
  | steps + 1, isFirst, seen, record, s => do
    let (more, s) ← nextKey isFirst s
    if more then
      let (cs, s) ← readChars s
      let key := String.ofList cs
      match schema.columns.find? (·.name = key) with
      | none =>
        let s ← skipValue (← readColon s)
        readEntries steps false seen record s
      | some c =>
        if seen.contains key then .error (.duplicateField key)
        else
          let (put, s) ← c.read (← readColon s)
          readEntries steps false (key :: seen) (put record) s
    else
      return (← schema.finish seen record, s)

/-- Reads columns from a list in order, of which `position` have been read. -/
def readColumns (position : Nat) (record : ρ) : List (Column ρ) → Reader ρ
  | [], s => do return (record, ← endList s)
  | c :: rest, s => do
    match ← nextElement? (position == 0) s with
    | some s =>
      let (put, s) ← c.read s
      readColumns (position + 1) (put record) rest s
    | none =>
      if c.required then
        .error (.invalidLength position
          (schema.title ++ " with " ++ toString schema.columns.length ++ " elements"))
      else readColumns (position + 1) record rest s

/-- Reads a record. -/
def read : Reader ρ := fun s =>
  match skipBlanks s with
  | [] => ended .value
  | '{' :: r => schema.readEntries (r.length + 1) true [] schema.blank r
  | '[' :: r => schema.readColumns 0 schema.blank schema.columns r
  | s => mismatch schema.title s

/-- Writes a record. -/
def write (depth : Nat) (record : ρ) : List Char :=
  writeBlock '{' '}' depth (schema.columns.filterMap fun c =>
    (c.write (depth + 1) record).map (writeText c.name.toList ++ [':', ' '] ++ ·))

/-- The codec of records. -/
def codec : Codec ρ := ⟨schema.read, schema.write, fun _ => false⟩

/-- Reads a record that is a whole text. -/
def ofText (text : String) : Except ReadError ρ := do
  let (record, rest) ← schema.read text.toList
  if (skipBlanks rest).isEmpty then return record else malformed .trailingCharacters

/-- The text of a record. -/
def toText (record : ρ) : String := String.ofList (schema.write 0 record)

end Schema

end DeclGraph.Json
