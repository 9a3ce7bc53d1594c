import DeclGraph.Graph.Reference
import DeclGraph.Name.Scope

/-!
# Declarations

The records of a graph: types, their members, bases and template arguments, and typedefs.
-/

namespace DeclGraph

open Text Name

/-- What kind of thing a declared type is. -/
inductive Kind
  | struct | class_ | union | enum | primitive | unknown
  deriving DecidableEq, Repr

namespace Kind

instance : Inhabited Kind := ⟨unknown⟩

/-- The kinds in declaration order. -/
def all : List Kind := [struct, class_, union, enum, primitive, unknown]

/-- Whether types of this kind have members. -/
def isAggregate : Kind → Bool
  | struct | class_ | union => true
  | enum | primitive | unknown => false

/-- Whether the members of types of this kind overlap. -/
def isUnion : Kind → Bool
  | union => true
  | _ => false

/-- The kind in lower case, as it is shown. -/
def keyword : Kind → String
  | struct => "struct"
  | class_ => "class"
  | union => "union"
  | enum => "enum"
  | primitive => "primitive"
  | unknown => "unknown"

/-- The kind as documents name it. -/
def name : Kind → String
  | struct => "Struct"
  | class_ => "Class"
  | union => "Union"
  | enum => "Enum"
  | primitive => "Primitive"
  | unknown => "Unknown"

/-- The kind that a document names. -/
def ofName? (s : String) : Option Kind := all.find? (·.name = s)

theorem ofName?_name (k : Kind) : ofName? k.name = some k := by cases k <;> decide

end Kind

/-- A declared type. -/
structure DeclaredType where
  id : TypeId
  baseName : String
  space : String
  kind : Kind
  /-- Alignment that the declaration asks for. -/
  alignment : Option UInt32
  isIgnored : Bool
  /-- The canonical qualified name, which identifies the type. -/
  qualifiedName : String
  basePath : String
  /-- Size in bytes, once laid out. -/
  size : Option UInt32
  deriving DecidableEq, Repr

namespace DeclaredType

/-- Whether the type has members. -/
def isAggregate (n : DeclaredType) : Bool := n.kind.isAggregate

/-- The type on one line, with its size and mark if it has them. -/
def display (n : DeclaredType) : String :=
  n.kind.keyword ++ " " ++ n.qualifiedName ++
    (match n.size with
      | some size => " [size: " ++ hexOffset size.toNat ++ "]"
      | none => "") ++
    if n.isIgnored then " [ignored]" else ""

end DeclaredType

/-- A member of an aggregate. -/
structure Member where
  id : MemberId
  owner : TypeId
  name : String
  /-- Position in the source, which decides the layout. -/
  order : UInt32
  typeString : String
  reference : Option ReferenceId
  /-- Offset in bytes, once laid out. -/
  offset : Option UInt32
  bitWidth : Option UInt8
  alignment : Option UInt32
  isFunctionPointer : Bool
  signature : Option UInt64
  deriving DecidableEq, Repr

/-- The member on one line, with its width and offset if it has them. -/
def Member.display (m : Member) : String :=
  m.typeString ++ " " ++ m.name ++
    (match m.bitWidth with
      | some width => " : " ++ toString width.toNat
      | none => "") ++
    match m.offset with
    | some offset => " @ " ++ hexOffset offset.toNat
    | none => ""

/-- A base class, declared by the derived type `owner`. -/
structure BaseEdge where
  id : BaseId
  owner : TypeId
  order : UInt32
  target : Option TypeId
  typeString : String
  deriving DecidableEq, Repr

/-- A template argument of the type `owner`. -/
structure TemplateArgument where
  id : ArgumentId
  owner : TypeId
  position : UInt32
  typeString : String
  reference : Option ReferenceId
  deriving DecidableEq, Repr

/-- Another name for the type that `target` refers to. -/
structure Typedef where
  id : TypedefId
  name : String
  space : String
  target : ReferenceId
  deriving DecidableEq, Repr

/-- The canonical qualified name, which identifies the typedef. -/
def Typedef.qualifiedName (t : Typedef) : String := canonical (qualify t.space t.name)

/-- Where a type string was written. -/
inductive Site
  | member | typedef | inheritance | templateArgument
  deriving DecidableEq, Repr

namespace Site

/-- The sites in the order in which they are processed. -/
def all : List Site := [member, typedef, inheritance, templateArgument]

/-- The site as messages name it. -/
def display : Site → String
  | member => "member"
  | typedef => "typedef"
  | inheritance => "inheritance"
  | templateArgument => "template argument"

end Site

end DeclGraph
