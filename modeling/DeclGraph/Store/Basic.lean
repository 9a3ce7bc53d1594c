import DeclGraph.Log
import DeclGraph.Order
import DeclGraph.Store.Error
import DeclGraph.Typedef.Chain

/-!
# The store

A store holds the graph: every entity in the order in which it came in, indexes by name and by
owner, and the writes that are staged but not yet committed. All reads see committed state only.

* Reads by owner are sorted by source order, and entities of equal order by identity.
* Identities are handed out by one counter for all kinds of entity.
-/

namespace DeclGraph

open Text Name

/-- Writes that wait for the next flush, in the order in which they were staged. -/
structure Batch where
  resolutions : List (ReferenceId × Resolution) := []
  references : List Reference := []
  links : List (ArgumentId × ReferenceId) := []
  bases : List (BaseId × TypeId) := []
  offsets : List (MemberId × UInt32) := []
  sizes : List (TypeId × UInt32) := []
  deriving DecidableEq, Repr

/-- The number of writes. -/
def Batch.size (b : Batch) : Nat :=
  b.resolutions.length + b.references.length + b.links.length + b.bases.length +
    b.offsets.length + b.sizes.length

/-- A graph of declarations with the writes that are staged on it. -/
structure Store where
  types : Table TypeId DeclaredType := {}
  references : Table ReferenceId Reference := {}
  members : Table MemberId Member := {}
  bases : Table BaseId BaseEdge := {}
  arguments : Table ArgumentId TemplateArgument := {}
  typedefs : Table TypedefId Typedef := {}
  typedefIndex : TypedefIndex := {}
  /-- Types by qualified name. -/
  byName : Table String TypeId := {}
  /-- Types by the canonical spelling of their base name. -/
  byBaseName : Table String (List TypeId) := {}
  membersByType : Table TypeId (List MemberId) := {}
  basesByType : Table TypeId (List BaseId) := {}
  argumentsByType : Table TypeId (List ArgumentId) := {}
  /-- The number of the next entity. -/
  nextId : Nat := 1
  staged : Batch := {}
  deriving DecidableEq, Repr

namespace Store

/-- The store without declarations. -/
def empty : Store := {}

variable (s : Store)

/-- The type of a qualified name. -/
def typeByName? (name : String) : Option DeclaredType := (s.byName.find? name).bind s.types.find?

/-- The types whose base name has a canonical spelling, in insertion order. -/
def typesByBaseName (name : String) : List DeclaredType :=
  (s.byBaseName.list name).filterMap s.types.find?

/-- The members of a type in source order. -/
def membersOf (id : TypeId) : List Member :=
  ((s.membersByType.list id).filterMap s.members.find?).mergeSort fun a b =>
    pairLe (a.order.toNat, a.id.val) (b.order.toNat, b.id.val)

/-- The bases of a type in source order. -/
def basesOf (id : TypeId) : List BaseEdge :=
  ((s.basesByType.list id).filterMap s.bases.find?).mergeSort fun a b =>
    pairLe (a.order.toNat, a.id.val) (b.order.toNat, b.id.val)

/-- The template arguments of a type by position. -/
def argumentsOf (id : TypeId) : List TemplateArgument :=
  ((s.argumentsByType.list id).filterMap s.arguments.find?).mergeSort fun a b =>
    pairLe (a.position.toNat, a.id.val) (b.position.toNat, b.id.val)

/-- The aggregates among the types. -/
def aggregates : List DeclaredType := s.types.values.filter (·.isAggregate)

/-- The entries of a table under the given keys, each key once, where it has an entry. -/
def pick {κ α : Type} [DecidableEq κ] (t : Table κ α) (keys : List κ) : Table κ α :=
  Table.ofPairs (keys.filterMap fun k => (t.find? k).map (k, ·))

/-- The members of each of the given types, where the type exists. -/
def membersOfEach (ids : List TypeId) : Table TypeId (List Member) :=
  Table.ofPairs ((ids.filter s.types.contains).map fun id => (id, s.membersOf id))

/-- The bases of each of the given types, where the type exists. -/
def basesOfEach (ids : List TypeId) : Table TypeId (List BaseEdge) :=
  Table.ofPairs ((ids.filter s.types.contains).map fun id => (id, s.basesOf id))

/-- Where typedef chains look names and references up. -/
def lookup : Lookup := ⟨s.typedefIndex, s.references.find?, s.byName.find?⟩

/-- The number of staged writes. -/
def pending : Nat := s.staged.size

end Store

end DeclGraph
