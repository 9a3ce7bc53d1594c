import DeclGraph.Json.Text

/-!
# Numbers of JSON

A number without fraction and exponent is whole as long as it fits 64 bits; every other one, and
`-0`, is a float. Digits beyond the first nineteen or twenty of a float only scale it, and the
decimal is turned into binary by one multiplication or division by a power of ten.
-/

namespace DeclGraph.Json

/-- The largest natural number. -/
def maxNatural : Nat := 0xFFFFFFFFFFFFFFFF

/-- Reads digits onto a number while it stays within 64 bits, and gives the digits left over. -/
def accumulate : Nat → List Char → Nat × List Char
  | n, [] => (n, [])
  | n, c :: r =>
    let next := n * 10 + (c.toNat - '0'.toNat)
    if maxNatural < next then (n, c :: r) else accumulate next r

/-- The float `10 ^ n`. -/
def powerOfTen (n : Nat) : Float := Float.ofScientific 1 false n

/-- Scales a float by a power of ten, in at most `steps` steps. -/
def scaleFloat : Nat → Float → Int → Except ReadError Float
  | 0, x, _ => .ok x
  | steps + 1, x, exponent =>
    if exponent.natAbs ≤ 308 then
      if 0 ≤ exponent then
        let y := x * powerOfTen exponent.natAbs
        if y.isInf then malformed .numberOutOfRange else .ok y
      else .ok (x / powerOfTen exponent.natAbs)
    else if x == 0 then .ok x
    else if 0 ≤ exponent then malformed .numberOutOfRange
    else scaleFloat steps (x / powerOfTen 308) (exponent + 308)

/-- The float with a sign, significand and exponent. Three divisions by `10 ^ 308` take any
significand to zero. -/
def makeFloat (positive : Bool) (significand : Nat) (exponent : Int) :
    Except ReadError Number := do
  let x ← scaleFloat 4 significand.toUInt64.toFloat exponent
  return .float (if positive then x else -x)

/-- The exponent that a number may have at most. -/
def maxExponent : Nat := 0x7FFFFFFF

/-- Reads an exponent after its `e`. -/
def readExponent (positive : Bool) (significand : Nat) (start : Int) : Reader Number := fun s => do
  let (isUp, s) := match s with
    | '+' :: r => (true, r)
    | '-' :: r => (false, r)
    | _ => (true, s)
  match s with
  | [] => ended .value
  | c :: _ =>
    if !c.isDigit then malformed .invalidNumber
    else
      let rest := s.dropWhile Char.isDigit
      let n := ((Text.readDigits 10 0 (s.takeWhile Char.isDigit))).getD 0
      if maxExponent < n then
        if significand ≠ 0 && isUp then malformed .numberOutOfRange
        else return (.float (if positive then 0.0 else -0.0), rest)
      else
        let exponent := if isUp then start + n else start - n
        return (← makeFloat positive significand exponent, rest)

/-- Reads what follows the digits of a float: an exponent, or nothing. -/
def readScale (positive : Bool) (significand : Nat) (exponent : Int) : Reader Number
  | 'e' :: r => readExponent positive significand exponent r
  | 'E' :: r => readExponent positive significand exponent r
  | s => do return (← makeFloat positive significand exponent, s)

/-- Reads a fraction after its point. -/
def readFraction (positive : Bool) (significand : Nat) (exponent : Int) : Reader Number := fun s =>
  let digits := s.takeWhile Char.isDigit
  let rest := s.dropWhile Char.isDigit
  if digits.isEmpty then
    if rest.isEmpty then ended .value else malformed .invalidNumber
  else
    let (significand, left) := accumulate significand digits
    readScale positive significand (exponent - (digits.length - left.length : Nat)) rest

/-- Reads what follows the whole part of a number. -/
def readTail (positive : Bool) (significand : Nat) (dropped : Nat) : Reader Number
  | '.' :: r => readFraction positive significand dropped r
  | 'e' :: r => readExponent positive significand dropped r
  | 'E' :: r => readExponent positive significand dropped r
  | s =>
    if 0 < dropped then do return (← makeFloat positive significand dropped, s)
    else if positive then .ok (.natural significand, s)
    else if significand = 0 || 1 <<< 63 < significand then
      .ok (.float (-significand.toUInt64.toFloat), s)
    else .ok (.negative significand, s)

/-- Reads a number after its sign. -/
def readNumber (positive : Bool) : Reader Number
  | [] => ended .value
  | '0' :: r =>
    match r with
    | c :: _ => if c.isDigit then malformed .invalidNumber else readTail positive 0 0 r
    | [] => readTail positive 0 0 r
  | c :: r =>
    if c.isDigit then
      let s := c :: r
      let (significand, left) := accumulate 0 (s.takeWhile Char.isDigit)
      readTail positive significand left.length (s.dropWhile Char.isDigit)
    else malformed .invalidNumber

/-! ## Numbers that are not kept -/

/-- Passes over an exponent after its `e`. -/
def skipExponent (s : List Char) : Except ReadError (List Char) :=
  let s := match s with
    | '+' :: r => r
    | '-' :: r => r
    | _ => s
  match s with
  | c :: r => if c.isDigit then .ok (r.dropWhile Char.isDigit) else malformed .invalidNumber
  | [] => malformed .invalidNumber

/-- Passes over a fraction and exponent, if there are. -/
def skipTail : List Char → Except ReadError (List Char)
  | '.' :: r =>
    match r with
    | c :: t =>
      if c.isDigit then
        match t.dropWhile Char.isDigit with
        | 'e' :: u => skipExponent u
        | 'E' :: u => skipExponent u
        | rest => .ok rest
      else malformed .invalidNumber
    | [] => malformed .invalidNumber
  | 'e' :: r => skipExponent r
  | 'E' :: r => skipExponent r
  | s => .ok s

/-- Passes over a number after its sign. -/
def skipNumber : List Char → Except ReadError (List Char)
  | [] => malformed .invalidNumber
  | '0' :: r =>
    match r with
    | c :: _ => if c.isDigit then malformed .invalidNumber else skipTail r
    | [] => .ok []
  | c :: r => if c.isDigit then skipTail (r.dropWhile Char.isDigit) else malformed .invalidNumber

end DeclGraph.Json
