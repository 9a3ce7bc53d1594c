import DeclGraph.Name.Spelling

/-!
# Scopes of a qualified name

A qualified name is a list of segments joined by `::`. A scope operator inside a template
argument list belongs to the argument and separates nothing.

* `segments`: the nonempty segments of a name.
* `enclosing`: the scopes around a declaration, innermost first.
* `qualify`: a name inside a namespace.
-/

namespace DeclGraph.Name

open Text

/-- Cuts at each `::` outside brackets. `depth` brackets are open, and `piece` holds the segment
that is being read, last character first. -/
def cutScopes : Nat → List Char → List Char → List (List Char)
  | _, piece, [] => [piece.reverse]
  | 0, piece, ':' :: ':' :: r => piece.reverse :: cutScopes 0 [] r
  | depth, piece, c :: r =>
    let depth := if c = '<' then depth + 1 else if c = '>' then depth - 1 else depth
    cutScopes depth (c :: piece) r

/-- The nonempty segments of a name. -/
def segmentChars (s : List Char) : List (List Char) := (cutScopes 0 [] s).filter (!·.isEmpty)

/-- The nonempty segments of a name. -/
def segments (s : String) : List String := (segmentChars s.toList).map String.ofList

/-- The last segment, or the whole name if it has none. -/
def lastSegment (s : String) : String := (segments s).getLast?.getD s

/-- Segments joined by the scope operator. -/
def ofSegments (parts : List String) : String := joinStrings "::" parts

/-- The scopes around a declaration in `space`, innermost first: `a::b::c`, `a::b`, `a`. -/
def enclosing (space : String) : List String :=
  let parts := segments space
  (List.range parts.length).reverse.map fun n => ofSegments (parts.take (n + 1))

/-- The name without the scope operator that makes it absolute, if it has one. -/
def relative (name : String) : String :=
  match after? [':', ':'] name.toList with
  | some r => String.ofList r
  | none => name

/-- Whether a name starts with the scope operator, and so means itself in every scope. -/
def isAbsolute (name : String) : Bool := [':', ':'].isPrefixOf name.toList

/-- `name` as a member of the namespace `space`. -/
def qualify (space name : String) : String :=
  if space = "" then relative name else space ++ "::" ++ relative name

/-- `name` in each scope around `space`, innermost first, and then as it stands. -/
def inScopes (space name : String) : List String :=
  (enclosing space).map (qualify · name) ++ [name]

example : segments "a::Map<b::C, d::E>::Node" = ["a", "Map<b::C, d::E>", "Node"] := by
  decide +kernel
example : enclosing "a::b::c" = ["a::b::c", "a::b", "a"] := by decide +kernel
example : qualify "a" "::Foo" = "a::Foo" := by decide +kernel
example : lastSegment "::" = "::" := by decide +kernel

end DeclGraph.Name
