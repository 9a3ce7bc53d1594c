import DeclGraph.Graph.Declaration

/-!
# Documents

A document carries a graph between programs: a record for each type with its bases, template
arguments and members, and one for each typedef. Declarations refer to types by name only, so a
document is independent of identities. What has been computed, resolutions, offsets and sizes,
may come with it.
-/

namespace DeclGraph

/-- A type string and the qualified name of the type it was resolved to. -/
structure LinkRecord where
  typeString : String := ""
  resolved : Option String := none
  primitive : Bool := false
  deriving DecidableEq, Repr

/-- A member. -/
structure MemberRecord where
  name : String := ""
  typeString : String := ""
  order : Option UInt32 := none
  bitWidth : Option UInt8 := none
  alignment : Option UInt32 := none
  isFunctionPointer : Bool := false
  signature : Option UInt64 := none
  offset : Option UInt32 := none
  resolved : Option String := none
  primitive : Bool := false
  deriving DecidableEq, Repr

/-- A type. -/
structure TypeRecord where
  name : String := ""
  space : String := ""
  kind : Kind := .unknown
  alignment : Option UInt32 := none
  isIgnored : Bool := false
  basePath : String := ""
  size : Option UInt32 := none
  bases : List LinkRecord := []
  arguments : List LinkRecord := []
  members : List MemberRecord := []
  deriving DecidableEq, Repr

/-- A typedef. -/
structure TypedefRecord where
  name : String := ""
  space : String := ""
  target : String := ""
  resolved : Option String := none
  primitive : Bool := false
  deriving DecidableEq, Repr

/-- A whole graph. -/
structure Document where
  types : List TypeRecord := []
  typedefs : List TypedefRecord := []
  deriving DecidableEq, Repr

end DeclGraph
