import DeclGraph.Declarator
import DeclGraph.Graph.Id

/-!
# References

A reference ties a type string to what it names. It starts unresolved, and resolution either
points it at a type or marks it primitive; a primitive reference never gets a target.
-/

namespace DeclGraph

/-- What resolving a reference can find. -/
inductive Resolution
  | type (id : TypeId)
  | primitive
  deriving DecidableEq, Repr

/-- A type string with the modifiers that were read from it and what it was found to name. -/
structure Reference where
  id : ReferenceId
  typeString : String
  canonicalString : String
  isPointer : Bool
  pointerDepth : UInt8
  isArray : Bool
  /-- Elements over all dimensions. -/
  arraySize : Option UInt32
  isReference : Bool
  isConst : Bool
  target : Option TypeId := none
  isPrimitive : Bool := false
  deriving DecidableEq, Repr

namespace Reference

/-- The unresolved reference that a type string declares. -/
def ofTypeString (id : ReferenceId) (typeString : String) : Reference :=
  let d := Declarator.parse typeString
  { id
    typeString
    canonicalString := d.canonicalText
    isPointer := d.isPointer || d.isFunctionPointer
    pointerDepth := d.pointerDepth
    isArray := d.isArray
    arraySize := d.arrayCount
    isReference := d.isReference
    isConst := d.isConst }

variable (r : Reference)

/-- Whether the reference points at a type. -/
def isResolved : Bool := r.target.isSome

/-- Whether the reference neither points at a type nor is primitive. -/
def needsResolution : Bool := r.target.isNone && !r.isPrimitive

/-- Whether the reference takes one machine word, whatever it refers to. -/
def isIndirect : Bool := r.isPointer || 0 < r.pointerDepth || r.isReference

/-- Writes a resolution into the reference. -/
def apply : Resolution → Reference
  | .type id => { r with target := some id }
  | .primitive => { r with isPrimitive := true }

/-- What the reference has been resolved to. A target outranks the primitive mark. -/
def resolution : Option Resolution :=
  match r.target with
  | some id => some (.type id)
  | none => if r.isPrimitive then some .primitive else none

/-- The element count that multiplies the size, if the reference is an array. -/
def elementCount : Option UInt32 := if r.isArray then r.arraySize else none

/-- The type string and what it was resolved to. -/
def display : String :=
  r.typeString ++ match r.resolution with
    | some (.type id) => " -> " ++ id.display
    | some .primitive => " (primitive)"
    | none => " (unresolved)"

/-- A reference needs resolution exactly when it has none. -/
theorem needsResolution_iff : r.needsResolution = true ↔ r.resolution = none := by
  unfold needsResolution resolution
  cases r.target <;> cases r.isPrimitive <;> simp

end Reference

end DeclGraph
