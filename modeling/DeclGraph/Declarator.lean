import DeclGraph.Name.Spelling
import DeclGraph.Primitive
import DeclGraph.Text.Numeral
import DeclGraph.Word

/-!
# Declarators

A declaration names its type by a type string: a base name between leading words (`const`,
`struct`, …) and trailing marks (`*`, `&`, qualifiers, array dimensions). `Declarator.parse`
takes such a string apart:

* dimensions come off the end first, then the trailing marks, then the leading words;
* a function pointer is recognised by its parentheses and is kept whole.

The ends of a string are consumed in reverse, so `suffix?` and `takeDimensions` work on reversed
characters.
-/

namespace DeclGraph

open Text Name

/-- A word that says which kind of type a base name belongs to. -/
inductive Keyword
  | struct | class_ | union | enum
  deriving DecidableEq, Repr

/-- The word itself. -/
def Keyword.word : Keyword → String
  | struct => "struct"
  | class_ => "class"
  | union => "union"
  | enum => "enum"

/-- A type string taken apart. -/
structure Declarator where
  /-- The name without modifiers, spaced as written. -/
  base : String := ""
  pointerDepth : UInt8 := 0
  isReference : Bool := false
  isConst : Bool := false
  /-- Element counts as written, outermost first. -/
  dimensions : List UInt32 := []
  isFunctionPointer : Bool := false
  keyword : Option Keyword := none
  /-- The whole string. -/
  text : String
  deriving DecidableEq, Repr

namespace Declarator

/-! ## Function pointers -/

/-- A calling convention: two underscores and more of an identifier. -/
def isConvention (w : List Char) : Bool :=
  w.all isWordChar && ['_', '_'].isPrefixOf w && 2 < w.length

/-- Whether `s` is a parameter list up to its closing parenthesis, all on one line, followed by
blanks only. -/
def isParameters (s : List Char) : Bool :=
  match (trimEnd s).reverse with
  | ')' :: inner => !inner.contains '\n'
  | _ => false

/-- Whether `s` is what follows the opening parenthesis of a function pointer: calling
conventions, stars, perhaps a name, and a parameter list. -/
def isPointerGroup (s : List Char) : Bool :=
  let stars := s.dropWhile (· != '*')
  let named := dropBlanks (stars.dropWhile (· == '*'))
  let closed := dropBlanks (named.dropWhile fun c => isWordChar c || c == ':')
  (words (s.takeWhile (· != '*'))).all isConvention && !stars.isEmpty &&
    match closed with
    | ')' :: r =>
      match dropBlanks r with
      | '(' :: parameters => isParameters parameters
      | _ => false
    | _ => false

/-- Whether a function pointer group starts anywhere in the text. -/
def hasPointerGroup : List Char → Bool
  | [] => false
  | c :: r => (c == '(' && isPointerGroup r) || hasPointerGroup r

/-! ## Array dimensions -/

/-- The value of a dimension: a decimal numeral, or a hexadecimal one after `0x`, with or without
the suffix `u`. Whatever is not such a numeral, or is too large for a word, counts as zero. -/
def dimension (s : List Char) : UInt32 :=
  let unsuffixed (s : List Char) := (s.reverse.dropWhile fun c => c == 'u' || c == 'U').reverse
  let value := match trim s with
    | '0' :: 'x' :: hex => readUnsigned 16 maxWord (unsuffixed hex)
    | '0' :: 'X' :: hex => readUnsigned 16 maxWord (unsuffixed hex)
    | s => readUnsigned 10 maxWord (unsuffixed s)
  UInt32.ofNat (value.getD 0)

theorem length_dropWhile_le (p : Char → Bool) (s : List Char) :
    (s.dropWhile p).length ≤ s.length := by
  induction s with
  | nil => simp
  | cons c r ih =>
    rw [List.dropWhile_cons]
    split
    · simp; omega
    · simp

/-- Takes the bracketed dimensions off the end of a reversed text, adding them before `found`. -/
def takeDimensions (found : List UInt32) (rev : List Char) : List UInt32 × List Char :=
  match rev with
  | ']' :: r =>
    match _h : r.dropWhile (· != '[') with
    | [] => (found, ']' :: r)
    | _ :: before =>
      takeDimensions (dimension (r.takeWhile (· != '[')).reverse :: found) (dropBlanks before)
  | _ => (found, rev)
termination_by rev.length
decreasing_by
  have h1 := length_dropWhile_le (· != '[') r
  have h2 := length_dropWhile_le isBlank before
  rw [_h] at h1
  simp only [List.length_cons] at h1
  simp only [dropBlanks, List.length_cons]
  omega

/-! ## Trailing marks -/

/-- A mark that follows the base name. -/
inductive Suffix
  | reference | pointer | const | qualifier
  deriving DecidableEq, Repr

/-- The qualifiers that may follow a base name. -/
def trailingWords : List (String × Suffix) :=
  [("const", .const), ("volatile", .qualifier), ("__ptr32", .qualifier), ("__ptr64", .qualifier),
    ("__unaligned", .qualifier), ("__restrict", .qualifier)]

/-- The text before `word`, if the reversed text ends in it and an identifier does not run into
it. -/
def beforeWord? (word : String) (rev : List Char) : Option (List Char) :=
  match word.toList.reverse.isPrefixOf? rev with
  | some (c :: r) => if isAlphanumeric c || c == '_' then none else some (dropBlanks (c :: r))
  | _ => none

/-- The mark at the end of a reversed text, and the reversed text before it. -/
def suffix? : List Char → Option (Suffix × List Char)
  | '&' :: '&' :: r => some (.reference, dropBlanks r)
  | '&' :: r => some (.reference, dropBlanks r)
  | '*' :: r => some (.pointer, dropBlanks r)
  | rev => trailingWords.findSome? fun (word, mark) => (beforeWord? word rev).map (mark, ·)

theorem length_of_isPrefixOf? {p s r : List Char} (h : p.isPrefixOf? s = some r) :
    r.length + p.length = s.length := by
  induction p generalizing s with
  | nil => cases h; rfl
  | cons a p ih =>
    cases s with
    | nil => cases h
    | cons b s =>
      change (if a == b then p.isPrefixOf? s else none) = some r at h
      split at h
      · have := ih h
        simp; omega
      · simp at h

theorem length_dropBlanks_le (s : List Char) : (dropBlanks s).length ≤ s.length :=
  length_dropWhile_le _ _

theorem length_of_beforeWord? {word : String} {rev r : List Char} (hw : word.toList ≠ [])
    (h : beforeWord? word rev = some r) : r.length < rev.length := by
  unfold beforeWord? at h
  split at h
  · next c r' hp =>
    split at h
    · simp at h
    · have h1 := length_of_isPrefixOf? hp
      have h2 := length_dropBlanks_le (c :: r')
      have h3 : 0 < word.toList.length := List.length_pos_iff.2 hw
      simp only [Option.some.injEq] at h
      subst h
      simp only [List.length_reverse] at h1
      omega
  · simp at h

/-- Taking a mark off shortens the text. -/
theorem length_of_suffix? {rev r : List Char} {m : Suffix} (h : suffix? rev = some (m, r)) :
    r.length < rev.length := by
  unfold suffix? at h
  split at h
  · next t =>
    cases h
    have h1 := length_dropBlanks_le t
    simp only [List.length_cons]
    omega
  · next t _ =>
    cases h
    have h1 := length_dropBlanks_le t
    simp only [List.length_cons]
    omega
  · next t =>
    cases h
    have h1 := length_dropBlanks_le t
    simp only [List.length_cons]
    omega
  · obtain ⟨⟨word, mark⟩, hm, h⟩ := List.exists_of_findSome?_eq_some h
    obtain ⟨t, ht, he⟩ := Option.map_eq_some_iff.1 h
    have hw : word.toList ≠ [] := by
      simp only [trailingWords, List.mem_cons, Prod.mk.injEq, List.not_mem_nil, or_false] at hm
      rcases hm with ⟨rfl, _⟩ | ⟨rfl, _⟩ | ⟨rfl, _⟩ | ⟨rfl, _⟩ | ⟨rfl, _⟩ | ⟨rfl, _⟩ <;> decide
    have := length_of_beforeWord? hw ht
    simp_all

/-- Takes all marks off the end of a reversed text. -/
def suffixes (rev : List Char) : List Suffix × List Char :=
  match _h : suffix? rev with
  | some (m, r) => let (ms, base) := suffixes r; (m :: ms, base)
  | none => ([], rev)
termination_by rev.length
decreasing_by exact length_of_suffix? _h

/-! ## Leading words -/

/-- A word that precedes the base name. -/
inductive Lead
  | const | qualifier | keyword (k : Keyword)
  deriving DecidableEq, Repr

/-- The words that may precede a base name. -/
def leadingWords : List (String × Lead) :=
  [("const", .const), ("volatile", .qualifier), ("typename", .qualifier),
    ("struct", .keyword .struct), ("class", .keyword .class_), ("union", .keyword .union),
    ("enum", .keyword .enum)]

/-- The text after `word` and the blanks that must follow it. -/
def afterWord? (word : String) (s : List Char) : Option (List Char) :=
  match word.toList.isPrefixOf? s with
  | some (c :: r) => if isBlank c then some (dropBlanks r) else none
  | _ => none

/-- The word at the start of a text, and the text after it. -/
def lead? (s : List Char) : Option (Lead × List Char) :=
  leadingWords.findSome? fun (word, l) => (afterWord? word s).map (l, ·)

/-- Taking a word off shortens the text. -/
theorem length_of_lead? {s r : List Char} {l : Lead} (h : lead? s = some (l, r)) :
    r.length < s.length := by
  obtain ⟨⟨word, l'⟩, _, h⟩ := List.exists_of_findSome?_eq_some h
  obtain ⟨t, ht, he⟩ := Option.map_eq_some_iff.1 h
  simp only [Prod.mk.injEq] at he
  obtain ⟨_, rfl⟩ := he
  unfold afterWord? at ht
  split at ht
  · next c r' hp =>
    split at ht
    · have h1 := length_of_isPrefixOf? hp
      have h2 := length_dropBlanks_le r'
      simp only [Option.some.injEq] at ht
      subst ht
      simp only [List.length_cons] at h1
      omega
    · simp at ht
  · simp at ht

/-- Takes all leading words off a text. -/
def leads (s : List Char) : List Lead × List Char :=
  match _h : lead? s with
  | some (l, r) => let (ls, base) := leads r; (l :: ls, base)
  | none => ([], s)
termination_by s.length
decreasing_by exact length_of_lead? _h

/-- The keyword that stands last among leading words. -/
def lastKeyword (ls : List Lead) : Option Keyword :=
  ls.foldl (fun k l => match l with | .keyword k => some k | _ => k) none

/-! ## The whole string -/

/-- Takes a type string apart. -/
def parse (text : String) : Declarator :=
  let trimmed := trim text.toList
  if hasPointerGroup trimmed then
    { base := String.ofList trimmed, pointerDepth := 1, isFunctionPointer := true, text }
  else
    -- The ends come off a reversed text, the leading words off what is left of it, turned back.
    let (dimensions, rev) := takeDimensions [] trimmed.reverse
    let (marks, rev) := suffixes rev
    let (ls, base) := leads rev.reverse
    { base := String.ofList (trim base)
      pointerDepth := clampByte (marks.count .pointer)
      isReference := marks.contains .reference
      isConst := marks.contains .const || ls.contains .const
      dimensions
      keyword := lastKeyword ls
      text }

variable (d : Declarator)

/-- Whether the base is pointed at. -/
def isPointer : Bool := 0 < d.pointerDepth

/-- Whether dimensions were written. -/
def isArray : Bool := !d.dimensions.isEmpty

/-- The number of elements over all dimensions, none if it is no array. -/
def arrayCount : Option UInt32 :=
  if d.dimensions.isEmpty then none
  else some (d.dimensions.foldl (fun n k => clampWord (n.toNat * k.toNat)) 1)

/-- The canonical spelling of the whole string. -/
def canonicalText : String := canonical d.text

/-- The canonical spelling of the base, template arguments kept. -/
def canonicalBase : String := canonical d.base

/-- The canonical base without its template arguments. -/
def bareName : String := bare d.canonicalBase

/-- The primitive type that the base spells. -/
def primitive : Option Primitive :=
  if d.isFunctionPointer then none else Primitive.ofName? (collapsed d.base)

/-- Whether the string ends in a primitive type or a function pointer, so that no declaration is
looked for. -/
def isPrimitiveLeaf : Bool := d.isFunctionPointer || Primitive.isName (collapsed d.base)

example : (parse "Foo * const *").pointerDepth = 2 ∧ (parse "Foo * const *").isConst ∧
    (parse "Foo * const *").base = "Foo" := by decide +kernel
example : (parse "int [2][0x10u]").dimensions = [2, 16] := by decide +kernel
example : (parse "struct Foo &").keyword = some .struct := by decide +kernel
example : (parse "void (__cdecl *)(int, char *)").isFunctionPointer := by decide +kernel
example : (parse "Reconst").base = "Reconst" := by decide +kernel

end Declarator

end DeclGraph
