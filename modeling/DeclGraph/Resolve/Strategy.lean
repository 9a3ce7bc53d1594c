import DeclGraph.Store.Unresolved

/-!
# Resolving one type string

A type string is resolved in the scope of its declaration. Five strategies are tried in a fixed
order, and the first that finds something wins:

* `primitive`: the base spells a primitive type, or the string is a function pointer;
* `exact`: a type has the base as its name;
* `typedef`: a typedef has the base as its name, and its chain ends in a type or primitive;
* `bareName`: either holds for the base without template arguments, or exactly one type has its
  last segment as base name;
* `canonical`: either holds for the base in canonical spelling.

A name is looked up in the innermost scope first.
-/

namespace DeclGraph

open Text Name

/-- A type string to resolve, with the scope it was declared in. -/
structure Request where
  declarator : Declarator
  /-- A namespace or an enclosing type; empty at the outermost level. -/
  scope : String
  deriving DecidableEq, Repr

namespace Request

/-- The request for a type string. -/
def make (typeString scope : String) : Request := ⟨Declarator.parse typeString, scope⟩

/-- The type string. -/
def typeString (r : Request) : String := r.declarator.text

/-- The qualified names that a name may stand for, in the order in which they are tried. -/
def namesFor (r : Request) (name : String) : List String :=
  let name := onChars trim name
  if name = "" then [] else readings r.scope name

end Request

/-- A way to resolve a type string. -/
inductive Strategy
  | primitive | exact | typedef | bareName | canonical
  deriving DecidableEq, Repr

namespace Strategy

/-- The strategies in the order in which they are tried. -/
def all : List Strategy := [primitive, exact, typedef, bareName, canonical]

/-- The name of a strategy. -/
def name : Strategy → String
  | primitive => "primitive"
  | exact => "exact"
  | typedef => "typedef"
  | bareName => "bare_name"
  | canonical => "canonical"

end Strategy

namespace Store

variable (s : Store)

/-- The type that a name stands for. -/
def typeNamed (r : Request) (name : String) : Option Resolution :=
  ((r.namesFor name).findSome? s.typeByName?).map fun n => .type n.id

/-- What the first of the candidates whose typedef chain ends well resolves to. -/
def followFirst : List String → Noted (Option Resolution)
  | [] => return none
  | name :: rest => do
    let (target, _) ← s.lookup.follow [] name
    match target.bind (·.resolution) with
    | some found => return some found
    | none => followFirst rest

/-- What a name stands for as a typedef. -/
def typedefNamed (r : Request) (name : String) : Noted (Option Resolution) :=
  s.followFirst (r.namesFor name)

/-- What a name stands for as a type, or else as a typedef. -/
def eitherNamed (r : Request) (name : String) : Noted (Option Resolution) :=
  match s.typeNamed r name with
  | some found => return some found
  | none => s.typedefNamed r name

/-- The only type with a base name. Several are noted and left alone. -/
def onlyNamed (r : Request) (name : String) : Noted (Option Resolution) := do
  match s.typesByBaseName name with
  | [] => return none
  | [only] => return some (.type only.id)
  | many =>
    .note .debug ("Ambiguous bare name '" ++ name ++ "' for '" ++ r.typeString ++ "': " ++
      toString many.length ++ " candidates, skipping")
    return none

/-- What one strategy finds. -/
def tryStrategy (r : Request) : Strategy → Noted (Option Resolution)
  | .primitive => return if r.declarator.isPrimitiveLeaf then some .primitive else none
  | .exact => return s.typeNamed r r.declarator.base
  | .typedef => s.typedefNamed r r.declarator.base
  | .bareName => do
    let bare := r.declarator.bareName
    match ← s.eitherNamed r bare with
    | some found => return some found
    | none => s.onlyNamed r (lastSegment bare)
  | .canonical => s.eitherNamed r r.declarator.canonicalBase

/-- The first of the strategies that finds something, with what it finds. -/
def firstStrategy (r : Request) : List Strategy → Noted (Option (Strategy × Resolution))
  | [] => return none
  | strategy :: rest => do
    match ← s.tryStrategy r strategy with
    | some found => return some (strategy, found)
    | none => firstStrategy r rest

/-- The strategy that resolves a request, with what it finds. -/
def winner (r : Request) : Noted (Option (Strategy × Resolution)) := s.firstStrategy r Strategy.all

/-- What a type string means in a scope, if anything. -/
def resolution? (typeString scope : String) : Option Resolution :=
  (s.winner (.make typeString scope)).value.map Prod.snd

/-- Resolves a type string and notes the outcome. -/
def resolveNoting (typeString scope : String) : Noted (Option Resolution) := do
  match ← s.winner (.make typeString scope) with
  | some (strategy, found) =>
    let shown := match found with
      | .type id => "Resolved(TypeId(" ++ toString id.val ++ "))"
      | .primitive => "Primitive"
    .note .trace ("'" ++ typeString ++ "' resolved by " ++ strategy.name ++ " strategy: " ++ shown)
    return some found
  | none =>
    .note .trace ("'" ++ typeString ++ "' unresolved")
    return none

/-- Noting the outcome does not change it. -/
theorem value_resolveNoting (typeString scope : String) :
    (s.resolveNoting typeString scope).value = s.resolution? typeString scope := by
  unfold resolveNoting resolution?
  rw [Noted.value_bind]
  rcases (s.winner (.make typeString scope)).value with _ | ⟨_, _ | _⟩ <;> rfl

end Store

end DeclGraph
