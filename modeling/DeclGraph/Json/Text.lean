import DeclGraph.Json.Error

/-!
# Blanks, words and strings of JSON

The lexemes of JSON other than numbers, read from the start of a text. Blanks are the four ASCII
ones only. Strings are written with the short escapes where there are some and with `\u` for the
other control characters; everything else stands for itself.

* `length_of_escape`: an escape takes characters from the text, so reading a string ends.
-/

namespace DeclGraph.Json

/-- The blanks between lexemes. -/
def isBlank (c : Char) : Bool := c == ' ' || c == '\n' || c == '\t' || c == '\r'

/-- The text after its leading blanks. -/
def skipBlanks (s : List Char) : List Char := s.dropWhile isBlank

/-- The text after the letters of a word that has begun. -/
def readWord : List Char → List Char → Except ReadError (List Char)
  | [], s => .ok s
  | _ :: _, [] => ended .value
  | e :: es, c :: s => if c = e then readWord es s else malformed .expectedIdent

/-- The text after the colon between a key and its value. -/
def readColon (s : List Char) : Except ReadError (List Char) :=
  match skipBlanks s with
  | ':' :: r => .ok r
  | [] => ended .object
  | _ => malformed .expectedColon

/-! ## Escapes -/

/-- The value of a hexadecimal digit. -/
def hexValue? (c : Char) : Option Nat := (Text.digitValue c).filter (· < 16)

/-- Reads four hexadecimal digits. The text must have four more bytes before they are looked
at. -/
def readHex (s : List Char) : Except ReadError (Nat × List Char) :=
  match s with
  | a :: b :: c :: d :: r =>
    match hexValue? a, hexValue? b, hexValue? c, hexValue? d with
    | some a, some b, some c, some d => .ok (((a * 16 + b) * 16 + c) * 16 + d, r)
    | _, _, _, _ => malformed .invalidEscape
  | short => if (String.ofList short).utf8ByteSize < 4 then ended .text else malformed .invalidEscape

/-- Reads what follows `\u`: a code unit, or two that form a surrogate pair. -/
def readUnit (s : List Char) : Except ReadError (Char × List Char) := do
  let (n, r) ← readHex s
  if 0xDC00 ≤ n ∧ n ≤ 0xDFFF then malformed .loneSurrogate
  else if n < 0xD800 ∨ 0xDBFF < n then .ok (Char.ofNat n, r)
  else
    match r with
    | [] => ended .text
    | '\\' :: [] => ended .text
    | '\\' :: 'u' :: r =>
      let (m, r) ← readHex r
      if m < 0xDC00 ∨ 0xDFFF < m then malformed .loneSurrogate
      else .ok (Char.ofNat ((n - 0xD800) * 0x400 + (m - 0xDC00) + 0x10000), r)
    | _ => malformed .unfinishedSurrogate

/-- The character that a letter after a backslash stands for. -/
def shortEscape? : Char → Option Char
  | '"' => some '"'
  | '\\' => some '\\'
  | '/' => some '/'
  | 'b' => some '\x08'
  | 'f' => some '\x0c'
  | 'n' => some '\n'
  | 'r' => some '\r'
  | 't' => some '\t'
  | _ => none

/-- Reads what follows a backslash. -/
def readEscape : List Char → Except ReadError (Char × List Char)
  | [] => ended .text
  | c :: r =>
    match shortEscape? c with
    | some e => .ok (e, r)
    | none => if c = 'u' then readUnit r else malformed .invalidEscape

/-- Passes over what follows a backslash in a string that is not kept. -/
def skipEscape : List Char → Except ReadError (List Char)
  | [] => ended .text
  | c :: r =>
    match shortEscape? c with
    | some _ => .ok r
    | none => if c = 'u' then (readHex r).map Prod.snd else malformed .invalidEscape

theorem length_of_readHex {s r : List Char} {n : Nat} (h : readHex s = .ok (n, r)) :
    r.length < s.length := by
  unfold readHex at h
  split at h
  · split at h
    · simp only [Except.ok.injEq, Prod.mk.injEq] at h
      simp only [List.length_cons, ← h.2]
      omega
    · simp [malformed] at h
  · split at h <;> simp [malformed, ended] at h

theorem length_of_readUnit {s r : List Char} {c : Char} (h : readUnit s = .ok (c, r)) :
    r.length < s.length := by
  unfold readUnit at h
  cases hx : readHex s with
  | error e => rw [hx] at h; simp [bind, Except.bind] at h
  | ok p =>
    obtain ⟨n, t⟩ := p
    have h1 := length_of_readHex hx
    rw [hx] at h
    simp only [bind, Except.bind] at h
    split at h
    · simp [malformed] at h
    · split at h
      · simp only [Except.ok.injEq, Prod.mk.injEq] at h
        simp only [← h.2]; exact h1
      · split at h
        · simp [ended] at h
        · simp [ended] at h
        · next u =>
          cases hy : readHex u with
          | error e => rw [hy] at h; simp at h
          | ok p =>
            obtain ⟨m, v⟩ := p
            have h2 := length_of_readHex hy
            rw [hy] at h
            simp only at h
            split at h
            · simp [malformed] at h
            · simp only [Except.ok.injEq, Prod.mk.injEq] at h
              simp only [List.length_cons, ← h.2] at h1 ⊢
              omega
        · simp [malformed] at h

theorem length_of_readEscape {s r : List Char} {c : Char} (h : readEscape s = .ok (c, r)) :
    r.length < s.length := by
  unfold readEscape at h
  split at h
  · simp [ended] at h
  · split at h
    · simp only [Except.ok.injEq, Prod.mk.injEq] at h
      simp [← h.2]
    · split at h
      · have := length_of_readUnit h
        simp only [List.length_cons]; omega
      · simp [malformed] at h

theorem length_of_skipEscape {s r : List Char} (h : skipEscape s = .ok r) :
    r.length < s.length := by
  unfold skipEscape at h
  split at h
  · simp [ended] at h
  · next c t =>
    split at h
    · simp only [Except.ok.injEq] at h
      simp [← h]
    · split at h
      · cases hx : readHex t with
        | error e => rw [hx] at h; simp [Except.map] at h
        | ok p =>
          have := length_of_readHex hx
          rw [hx] at h
          simp only [Except.map, Except.ok.injEq] at h
          simp only [List.length_cons, ← h]; omega
      · simp [malformed] at h

/-! ## Strings -/

/-- Reads the characters of a string up to its closing quote. -/
def readChars (s : List Char) : Except ReadError (List Char × List Char) :=
  match s with
  | [] => ended .text
  | c :: r =>
    if c = '"' then .ok ([], r)
    else if c = '\\' then
      match _h : readEscape r with
      | .ok (e, r) => (readChars r).map fun (cs, rest) => (e :: cs, rest)
      | .error e => .error e
    else if c.toNat < 0x20 then malformed .controlCharacter
    else (readChars r).map fun (cs, rest) => (c :: cs, rest)
termination_by s.length
decreasing_by
  · have := length_of_readEscape _h
    simp only [List.length_cons]; omega
  · simp

/-- Passes over a string up to its closing quote. -/
def skipChars (s : List Char) : Except ReadError (List Char) :=
  match s with
  | [] => ended .text
  | c :: r =>
    if c = '"' then .ok r
    else if c = '\\' then
      match _h : skipEscape r with
      | .ok r => skipChars r
      | .error e => .error e
    else if c.toNat < 0x20 then malformed .controlCharacter
    else skipChars r
termination_by s.length
decreasing_by
  · have := length_of_skipEscape _h
    simp only [List.length_cons]; omega
  · simp

/-- A character as it stands in a string. -/
def writeChar (c : Char) : List Char :=
  if c = '"' then ['\\', '"']
  else if c = '\\' then ['\\', '\\']
  else if c = '\x08' then ['\\', 'b']
  else if c = '\x0c' then ['\\', 'f']
  else if c = '\n' then ['\\', 'n']
  else if c = '\r' then ['\\', 'r']
  else if c = '\t' then ['\\', 't']
  else if c.toNat < 0x20 then
    ['\\', 'u', '0', '0', Nat.digitChar (c.toNat / 16), Nat.digitChar (c.toNat % 16)]
  else [c]

/-- A string with its quotes. -/
def writeText (s : List Char) : List Char := '"' :: s.flatMap writeChar ++ ['"']

/-- Everything that is not an escape reads back as one character. -/
theorem readChars_writeChar (c : Char) (rest : List Char) :
    readChars (writeChar c ++ rest) =
      (readChars rest).map fun (cs, r) => (c :: cs, r) := by
  unfold writeChar
  split
  · subst_vars; rw [List.cons_append, readChars]; rfl
  split
  · subst_vars; rw [List.cons_append, readChars]; rfl
  split
  · subst_vars; rw [List.cons_append, readChars]; rfl
  split
  · subst_vars; rw [List.cons_append, readChars]; rfl
  split
  · subst_vars; rw [List.cons_append, readChars]; rfl
  split
  · subst_vars; rw [List.cons_append, readChars]; rfl
  split
  · subst_vars; rw [List.cons_append, readChars]; rfl
  split
  · next h =>
    have key : ∀ n, n < 0x20 → readEscape (['u', '0', '0', Nat.digitChar (n / 16),
        Nat.digitChar (n % 16)] ++ rest) = .ok (Char.ofNat n, rest) := by
      have : ∀ n, n < 0x20 → hexValue? (Nat.digitChar (n / 16)) = some (n / 16) ∧
          hexValue? (Nat.digitChar (n % 16)) = some (n % 16) := by decide
      intro n hn
      obtain ⟨h1, h2⟩ := this n hn
      have h0 : hexValue? '0' = some 0 := by decide
      have hs : shortEscape? 'u' = none := by decide
      simp only [List.cons_append, List.nil_append, readEscape, hs, readUnit, readHex, h0, h1, h2,
        bind, Except.bind, if_true]
      rw [show ((0 * 16 + 0) * 16 + n / 16) * 16 + n % 16 = n by omega, if_neg (by omega),
        if_pos (by omega)]
    have hk := key c.toNat h
    rw [Char.ofNat_toNat] at hk
    rw [List.cons_append, readChars]
    simp only [show ('\\' : Char) ≠ '"' by decide, if_false, if_true]
    split
    · next e r' he => rw [hk] at he; cases he; rfl
    · next e he => rw [hk] at he; cases he
  · next h1 h2 _ _ _ _ _ h8 =>
    rw [List.cons_append, List.nil_append, readChars]
    simp only [h1, h2, h8, if_false]

/-- A string reads back as it was written. -/
theorem readChars_writeText (s rest : List Char) :
    readChars (s.flatMap writeChar ++ '"' :: rest) = .ok (s, rest) := by
  induction s with
  | nil => simp [readChars]
  | cons c s ih =>
    rw [List.flatMap_cons, List.append_assoc, readChars_writeChar, ih]
    rfl

end DeclGraph.Json
