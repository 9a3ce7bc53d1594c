import DeclGraph.Graph.Id

/-!
# Why a store refuses a write
-/

namespace DeclGraph

/-- Why a store refuses a declaration or a batch of writes. -/
inductive StoreError
  | unknownType (id : TypeId)
  | unknownReference (id : ReferenceId)
  | unknownMember (id : MemberId)
  | unknownBase (id : BaseId)
  | unknownArgument (id : ArgumentId)
  /-- A reference that points at `existing` was to point at `proposed`. -/
  | conflictingResolution (id : ReferenceId) (existing proposed : TypeId)
  /-- A base that names `existing` was to name `proposed`. -/
  | conflictingBase (id : BaseId) (existing proposed : TypeId)
  | duplicateType (name : String)
  | duplicateTypedef (name : String)
  deriving DecidableEq, Repr

/-- The error as it is reported. -/
def StoreError.message : StoreError → String
  | unknownType id => "Type not found: " ++ id.display
  | unknownReference id => "Type reference not found: " ++ id.display
  | unknownMember id => "Struct member not found: " ++ id.display
  | unknownBase id => "Inheritance edge not found: " ++ id.display
  | unknownArgument id => "Template argument not found: " ++ id.display
  | conflictingResolution id existing proposed =>
    id.display ++ " already resolves to " ++ existing.display ++ ", refusing to rebind to " ++
      proposed.display
  | conflictingBase id existing proposed =>
    id.display ++ " already names base " ++ existing.display ++ ", refusing to rebind to " ++
      proposed.display
  | duplicateType name => "Duplicate type name: " ++ name
  | duplicateTypedef name => "Duplicate typedef name: " ++ name

end DeclGraph
