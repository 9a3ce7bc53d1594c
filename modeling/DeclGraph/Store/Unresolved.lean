import DeclGraph.Store.Basic

/-!
# What is still unresolved

The reads on which a resolution pass works: references of members and typedefs, bases, and
template arguments, each in insertion order.
-/

namespace DeclGraph

/-- The declaration that a reference belongs to. -/
inductive ReferenceOwner
  | member (type : TypeId) (member : MemberId) (name : String)
  | typedef (id : TypedefId)
  deriving DecidableEq, Repr

/-- Whether a member or a typedef declared the reference. -/
def ReferenceOwner.site : ReferenceOwner → Site
  | typedef _ => .typedef
  | member .. => .member

/-- An unresolved reference with the place it was declared in. -/
structure Unresolved where
  reference : Reference
  owner : ReferenceOwner
  /-- Where its name is looked up: the declaring type, or the namespace of the typedef. -/
  scope : String
  /-- The declaration, as reports name it. -/
  parent : String
  deriving DecidableEq, Repr

/-- The elements whose key has not come before; `seen` keys have. -/
def distinctBy {α κ : Type} [DecidableEq κ] (key : α → κ) (seen : List κ) : List α → List α
  | [] => []
  | a :: rest =>
    if key a ∈ seen then distinctBy key seen rest
    else a :: distinctBy key (key a :: seen) rest

namespace Store

variable (s : Store)

/-- The reference of a member with its place, if the member has one. -/
def memberReference? (m : Member) : Option Unresolved := do
  let reference ← m.reference.bind s.references.find?
  let scope := ((s.types.find? m.owner).map (·.qualifiedName)).getD ""
  return ⟨reference, .member m.owner m.id m.name, scope, scope ++ "::" ++ m.name⟩

/-- The target of a typedef with its place. -/
def typedefReference? (t : Typedef) : Option Unresolved := do
  let reference ← s.references.find? t.target
  return ⟨reference, .typedef t.id, t.space, t.qualifiedName⟩

/-- The references of members, then of typedefs, that need resolution, each once. -/
def unresolvedReferences : List Unresolved :=
  let all := s.members.values.filterMap s.memberReference? ++
    s.typedefs.values.filterMap s.typedefReference?
  distinctBy (·.reference.id) [] (all.filter (·.reference.needsResolution))

/-- The bases that name no type yet. -/
def unresolvedBases : List BaseEdge := s.bases.values.filter (·.target.isNone)

/-- The template arguments without a reference, or whose reference needs resolution. -/
def unresolvedArguments : List TemplateArgument :=
  s.arguments.values.filter fun a =>
    match a.reference with
    | none => true
    | some id => ((s.references.find? id).map (·.needsResolution)).getD true

end Store

end DeclGraph
