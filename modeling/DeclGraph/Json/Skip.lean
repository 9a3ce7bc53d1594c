import DeclGraph.Json.Number

/-!
# Values that are not kept

The value of an unknown key is passed over. Lists and objects that are open are kept on a stack,
so that no depth is too large.
-/

namespace DeclGraph.Json

/-- A list or object that is open. -/
inductive Frame
  | list | object
  deriving DecidableEq, Repr

/-- Passes over the key of an entry and its colon. -/
def skipKey (s : List Char) : Except ReadError (List Char) := do
  match skipBlanks s with
  | '"' :: r => readColon (← skipChars r)
  | [] => ended .object
  | _ => malformed .keyMustBeString

/-- Passes over a value that is neither list nor object. -/
def skipScalar : List Char → Except ReadError (List Char)
  | [] => ended .value
  | 'n' :: r => readWord ['u', 'l', 'l'] r
  | 't' :: r => readWord ['r', 'u', 'e'] r
  | 'f' :: r => readWord ['a', 'l', 's', 'e'] r
  | '"' :: r => skipChars r
  | '-' :: r => skipNumber r
  | c :: r => if c.isDigit then skipNumber (c :: r) else malformed .expectedValue

/-- What comes next while a value is passed over. -/
inductive SkipState
  /-- A value. -/
  | value
  /-- An entry of the innermost open frame or its end; a comma only after an entry. -/
  | inside (afterEntry : Bool)
  deriving DecidableEq, Repr

/-- Passes over the rest of a value, in at most `steps` steps. -/
def skipWithin : Nat → SkipState → List Frame → List Char → Except ReadError (List Char)
  | 0, _, _, _ => ended .value
  | steps + 1, .value, stack, s =>
    match skipBlanks s with
    | '[' :: r => skipWithin steps (.inside false) (.list :: stack) r
    | '{' :: r => skipWithin steps (.inside false) (.object :: stack) r
    | s => do
      let r ← skipScalar s
      if stack.isEmpty then return r else skipWithin steps (.inside true) stack r
  | _ + 1, .inside _, [], s => .ok s
  | steps + 1, .inside afterEntry, frame :: stack, s =>
    let entry (s : List Char) : Except ReadError (List Char) :=
      match frame with
      | .list => skipWithin steps .value (frame :: stack) s
      | .object => do skipWithin steps .value (frame :: stack) (← skipKey s)
    let close (r : List Char) : Except ReadError (List Char) :=
      if stack.isEmpty then .ok r else skipWithin steps (.inside true) stack r
    match skipBlanks s, frame with
    | [], .list => ended .list
    | [], .object => ended .object
    | ']' :: r, .list => close r
    | '}' :: r, .object => close r
    | c :: r, _ =>
      if afterEntry then
        if c = ',' then entry r
        else match frame with
          | .list => malformed .expectedListEnd
          | .object => malformed .expectedObjectEnd
      else entry (c :: r)

/-- Passes over a value. Each character takes two steps at most. -/
def skipValue (s : List Char) : Except ReadError (List Char) :=
  skipWithin (2 * s.length + 2) .value [] s

end DeclGraph.Json
