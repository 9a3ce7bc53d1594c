/-!
# Identities

Everything in a graph has a number, and numbers of different kinds of entity do not mix.
-/

namespace DeclGraph

/-- The kinds of entity that carry a number. -/
inductive Entity
  | type | reference | member | base | argument | typedef
  deriving DecidableEq, Repr

/-- The word before the number when an identity is shown. -/
def Entity.tag : Entity → String
  | type => "type"
  | reference => "ref"
  | member => "member"
  | base => "base"
  | argument => "targ"
  | typedef => "typedef"

/-- The identity of an entity of kind `e`. -/
structure Id (e : Entity) where
  val : Nat
  deriving DecidableEq, Repr

/-- An identity as text, such as `type#7`. -/
def Id.display {e : Entity} (id : Id e) : String := e.tag ++ "#" ++ toString id.val

abbrev TypeId := Id .type
abbrev ReferenceId := Id .reference
abbrev MemberId := Id .member
abbrev BaseId := Id .base
abbrev ArgumentId := Id .argument
abbrev TypedefId := Id .typedef

end DeclGraph
