import DeclGraph.Document.Record
import DeclGraph.Store.Basic

/-!
# Exporting a store

The document of a store's committed state: types and typedefs in insertion order, what types
declare in source order, and every resolution by the qualified name of its type.
-/

namespace DeclGraph

namespace Store

variable (s : Store)

/-- The qualified name of a type that something was resolved to. -/
def nameOf (id : Option TypeId) : Option String :=
  (id.bind s.types.find?).map (·.qualifiedName)

/-- The type string of a declaration with what its reference was resolved to. -/
def linkRecord (typeString : String) (reference : Option ReferenceId) : LinkRecord :=
  match reference.bind s.references.find? with
  | some r => { typeString, resolved := s.nameOf r.target, primitive := r.isPrimitive }
  | none => { typeString }

/-- The record of a base. -/
def baseRecord (b : BaseEdge) : LinkRecord :=
  { typeString := b.typeString, resolved := s.nameOf b.target }

/-- The record of a template argument. -/
def argumentRecord (a : TemplateArgument) : LinkRecord := s.linkRecord a.typeString a.reference

/-- The record of a member. -/
def memberRecord (m : Member) : MemberRecord :=
  let link := s.linkRecord m.typeString m.reference
  { name := m.name
    typeString := m.typeString
    order := some m.order
    bitWidth := m.bitWidth
    alignment := m.alignment
    isFunctionPointer := m.isFunctionPointer
    signature := m.signature
    offset := m.offset
    resolved := link.resolved
    primitive := link.primitive }

/-- The record of a type. -/
def typeRecord (n : DeclaredType) : TypeRecord :=
  { name := n.baseName
    space := n.space
    kind := n.kind
    alignment := n.alignment
    isIgnored := n.isIgnored
    basePath := n.basePath
    size := n.size
    bases := (s.basesOf n.id).map s.baseRecord
    arguments := (s.argumentsOf n.id).map s.argumentRecord
    members := (s.membersOf n.id).map s.memberRecord }

/-- The record of a typedef. -/
def typedefRecord (t : Typedef) : TypedefRecord :=
  let target := ((s.references.find? t.target).map (·.typeString)).getD ""
  let link := s.linkRecord target (some t.target)
  { name := t.name
    space := t.space
    target
    resolved := link.resolved
    primitive := link.primitive }

end Store

/-- The document of a store. -/
def Document.ofStore (s : Store) : Document :=
  { types := s.types.values.map s.typeRecord
    typedefs := s.typedefs.values.map s.typedefRecord }

end DeclGraph
