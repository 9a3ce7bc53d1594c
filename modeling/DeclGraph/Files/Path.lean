import DeclGraph.Text.Basic

/-!
# Paths

A path is compared by its components: repeated and trailing slashes count for nothing, nor does a
dot, unless it leads a relative path. Nothing is looked up, so a name and its parent's parent stay
what they are.
-/

namespace DeclGraph.Path

open Text

/-- The pieces between slashes, of which `piece` is being read, last character first. -/
def cut (piece : List Char) : List Char → List (List Char)
  | [] => [piece.reverse]
  | c :: r => if c = '/' then piece.reverse :: cut [] r else cut (c :: piece) r

/-- The pieces between slashes, empty ones included. -/
def pieces (path : String) : List String := (cut [] path.toList).map String.ofList

/-- Whether a path starts at the root. -/
def isAbsolute (path : String) : Bool := path.toList.head? == some '/'

/-- Whether a piece names something. -/
def isName (piece : String) : Bool := piece ≠ "" && piece ≠ "."

/-- The components of a path, the root and a leading dot included. -/
def components (path : String) : List String :=
  match pieces path with
  | [] => []
  | first :: rest =>
    (if isAbsolute path then ["/"] else if first = "" then [] else [first]) ++ rest.filter isName

/-- Whether two paths have the same components. -/
def same (a b : String) : Bool := components a = components b

example : components "a//b/./c/" = ["a", "b", "c"] := by decide +kernel
example : components "/./a" = ["/", "a"] := by decide +kernel
example : components "./a" = [".", "a"] ∧ components "" = [] := by decide +kernel

end DeclGraph.Path
