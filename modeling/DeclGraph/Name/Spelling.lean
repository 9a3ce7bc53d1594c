import DeclGraph.Text.Basic

/-!
# Canonical spelling of a type name

Every stored name has one spelling: single spaces, none around `::` or inside angle brackets or
before `*` and `&`, and `", "` between template arguments. `canonical` reaches it in six steps,
each of which settles the blanks around one kind of mark.
-/

namespace DeclGraph.Name

open Text

/-- Each run of blanks becomes one space. -/
def squeeze : List Char → List Char
  | [] => []
  | c :: r =>
    if isBlank c then
      match r with
      | [] => [' ']
      | d :: _ => if isBlank d then squeeze r else ' ' :: squeeze r
    else c :: squeeze r

/-- Outer blanks go, inner runs of blanks become one space. -/
def collapse (s : List Char) : List Char := squeeze (trim s)

/-- Removes the blanks around each `::`. The scope operators are found from the left, so of three
colons the first two are one; `fresh` says that one has just been read. -/
def tightScopes (fresh : Bool) : List Char → List Char
  | [] => []
  | ':' :: ':' :: r => ':' :: ':' :: tightScopes true r
  | c :: r =>
    if isBlank c && (fresh || [':', ':'].isPrefixOf (dropBlanks r)) then tightScopes fresh r
    else c :: tightScopes false r

/-- Removes the blanks before each character that satisfies `mark`. -/
def tightBefore (mark : Char → Bool) (s : List Char) : List Char :=
  s.foldr (fun c r => if isBlank c && r.head?.any mark then r else c :: r) []

/-- Writes `text` for each `mark`, and removes the blanks around it. -/
def tightAround (mark : Char) (text : List Char) (s : List Char) : List Char :=
  s.foldr (fun c r =>
    if c = mark then text ++ dropBlanks r
    else if isBlank c && r.head? == some mark then r else c :: r) []

/-- The canonical spelling of a name. -/
def canonicalChars (s : List Char) : List Char :=
  let segmented := tightScopes false (collapse s)
  let opened := tightAround '<' ['<'] segmented
  let closed := tightBefore (· == '>') opened
  let listed := tightAround ',' [',', ' '] closed
  tightBefore (fun c => c == '*' || c == '&') listed

/-- The text without its balanced template argument lists, trimmed. A closing bracket that was
never opened stays. -/
def bareChars (s : List Char) : List Char := trim (outside 0 s)
where
  /-- The characters that lie outside brackets, `depth` of which are open. -/
  outside (depth : Nat) : List Char → List Char
    | [] => []
    | c :: r =>
      if c = '<' then outside (depth + 1) r
      else if depth = 0 then c :: outside 0 r
      else if c = '>' then outside (depth - 1) r
      else outside depth r

/-- Outer blanks go, inner runs of blanks become one space. -/
def collapsed (s : String) : String := onChars collapse s

/-- The canonical spelling of a name. -/
def canonical (s : String) : String := onChars canonicalChars s

/-- The name without its template argument lists. -/
def bare (s : String) : String := onChars bareChars s

@[simp] theorem toList_canonical (s : String) :
    (canonical s).toList = canonicalChars s.toList := toList_onChars _ _

@[simp] theorem toList_collapsed (s : String) :
    (collapsed s).toList = collapse s.toList := toList_onChars _ _

example : canonical " ns :: Foo < int , char * > " = "ns::Foo<int, char*>" := by decide +kernel
example : canonical "Map<Key<int> >" = "Map<Key<int>>" := by decide +kernel
example : canonical "a::: b,c" = "a::: b, c" := by decide +kernel
example : bare "ns::Table<Key<int>>::Node" = "ns::Table::Node" := by decide +kernel

end DeclGraph.Name
