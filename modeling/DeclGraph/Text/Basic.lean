import DeclGraph.Text.CharClass

/-!
# Trimming, cutting and joining

Text is processed as a list of characters. This module holds the operations that the rest of
the library shares: blanks at either end, a given start, words and joins.
-/

namespace DeclGraph.Text

/-- The text after its leading blanks. -/
def dropBlanks (s : List Char) : List Char := s.dropWhile isBlank

/-- The text up to its trailing blanks. -/
def trimEnd (s : List Char) : List Char := (dropBlanks s.reverse).reverse

/-- The text without the blanks at its ends. -/
def trim (s : List Char) : List Char := trimEnd (dropBlanks s)

/-- What follows `start` in a text that begins with it. -/
def after? (start s : List Char) : Option (List Char) := start.isPrefixOf? s

/-- The maximal runs of characters that are not blank. -/
def words (s : List Char) : List (List Char) :=
  (s.foldr grow [[]]).filter (!·.isEmpty)
where
  /-- Extends the first word by `c`, or starts another word before it. -/
  grow (c : Char) : List (List Char) → List (List Char)
    | [] => [[c]]
    | w :: rest => if isBlank c then [] :: w :: rest else (c :: w) :: rest

/-- The texts with `sep` between each two of them. -/
def join (sep : List Char) : List (List Char) → List Char
  | [] => []
  | [s] => s
  | s :: rest => s ++ sep ++ join sep rest

/-- The strings with `sep` between each two of them. -/
def joinStrings (sep : String) (xs : List String) : String :=
  String.ofList (join sep.toList (xs.map String.toList))

/-- Applies an operation on characters to a string. -/
def onChars (f : List Char → List Char) (s : String) : String := String.ofList (f s.toList)

@[simp] theorem toList_onChars (f : List Char → List Char) (s : String) :
    (onChars f s).toList = f s.toList := String.toList_ofList

@[simp] theorem dropBlanks_nil : dropBlanks [] = [] := rfl

theorem dropBlanks_cons (c : Char) (s : List Char) :
    dropBlanks (c :: s) = if isBlank c then dropBlanks s else c :: s := by
  simp [dropBlanks, List.dropWhile_cons]

example : trim "\u00a0 a b\t".toList = "a b".toList := by decide +kernel
example : words " __a  *b ".toList = ["__a".toList, "*b".toList] := by decide +kernel

end DeclGraph.Text
