import DeclGraph.Store.Basic

/-!
# Declaring entities

How a graph is built: types, members, bases, template arguments and typedefs are added one by
one. Each operation returns its outcome with the store after it. A refused declaration still uses
up the identities it was given, and the reference that it declared stays.

A member or a base without a source order of its own comes after those the type already has.
-/

namespace DeclGraph

open Name

/-- The declaration of a type. -/
structure TypeDecl where
  name : String
  space : String := ""
  kind : Kind
  alignment : Option UInt32 := none
  isIgnored : Bool := false
  basePath : String := ""
  deriving DecidableEq, Repr

/-- The canonical qualified name that a declaration gives its type. -/
def TypeDecl.qualifiedName (d : TypeDecl) : String := canonical (qualify d.space d.name)

/-- The declaration of a member. -/
structure MemberDecl where
  name : String
  typeString : String
  order : Option UInt32 := none
  bitWidth : Option UInt8 := none
  alignment : Option UInt32 := none
  isFunctionPointer : Bool := false
  signature : Option UInt64 := none
  deriving DecidableEq, Repr

namespace Store

/-- Takes a fresh identity. -/
def fresh (e : Entity) (s : Store) : Id e × Store :=
  (⟨s.nextId⟩, { s with nextId := s.nextId + 1 })

/-- Adds the unresolved reference that a type string declares. -/
def addReference (s : Store) (typeString : String) : ReferenceId × Store :=
  let (id, s) := s.fresh .reference
  (id, { s with references := s.references.insert id (Reference.ofTypeString id typeString) })

/-- Adds a type, unless another has its qualified name. -/
def addType (s : Store) (d : TypeDecl) : Except StoreError TypeId × Store :=
  let (id, s) := s.fresh .type
  let name := d.qualifiedName
  if s.byName.contains name then (.error (.duplicateType name), s)
  else
    let node : DeclaredType :=
      { id
        baseName := d.name
        space := d.space
        kind := d.kind
        alignment := d.alignment
        isIgnored := d.isIgnored
        qualifiedName := name
        basePath := d.basePath
        size := none }
    (.ok id, { s with
      types := s.types.insert id node
      byName := s.byName.insert name id
      byBaseName := s.byBaseName.push (canonical d.name) id })

/-- Adds a member to a type. -/
def addMember (s : Store) (owner : TypeId) (d : MemberDecl) : Except StoreError MemberId × Store :=
  let order := d.order.getD (UInt32.ofNat (s.membersOf owner).length)
  let (reference, s) := s.addReference d.typeString
  let (id, s) := s.fresh .member
  if s.types.contains owner then
    let member : Member :=
      { id
        owner
        name := d.name
        order
        typeString := d.typeString
        reference := some reference
        offset := none
        bitWidth := d.bitWidth
        alignment := d.alignment
        isFunctionPointer := d.isFunctionPointer
        signature := d.signature }
    (.ok id, { s with
      members := s.members.insert id member
      membersByType := s.membersByType.push owner id })
  else (.error (.unknownType owner), s)

/-- Adds a base to a type. -/
def addBase (s : Store) (owner : TypeId) (typeString : String) :
    Except StoreError BaseId × Store :=
  let order := UInt32.ofNat (s.basesOf owner).length
  let (id, s) := s.fresh .base
  if s.types.contains owner then
    (.ok id, { s with
      bases := s.bases.insert id { id, owner, order, target := none, typeString }
      basesByType := s.basesByType.push owner id })
  else (.error (.unknownType owner), s)

/-- Adds a template argument to a type. -/
def addArgument (s : Store) (owner : TypeId) (typeString : String) :
    Except StoreError ArgumentId × Store :=
  let position := UInt32.ofNat (s.argumentsOf owner).length
  let (id, s) := s.fresh .argument
  if s.types.contains owner then
    (.ok id, { s with
      arguments := s.arguments.insert id { id, owner, position, typeString, reference := none }
      argumentsByType := s.argumentsByType.push owner id })
  else (.error (.unknownType owner), s)

/-- Adds a typedef, unless another has its qualified name. -/
def addTypedef (s : Store) (space name target : String) : Except StoreError TypedefId × Store :=
  let (reference, s) := s.addReference target
  let (id, s) := s.fresh .typedef
  let t : Typedef := { id, name, space, target := reference }
  if s.typedefIndex.contains t.qualifiedName then
    (.error (.duplicateTypedef t.qualifiedName), s)
  else
    (.ok id, { s with
      typedefs := s.typedefs.insert id t
      typedefIndex := s.typedefIndex.add t })

end Store

end DeclGraph
