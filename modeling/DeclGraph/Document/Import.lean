import DeclGraph.Document.Record
import DeclGraph.Store.Declare
import DeclGraph.Store.Staging

/-!
# Importing a document

All types are declared first, then the typedefs, and then what each type declares: bases, template
arguments and members. Only after that are the names that resolutions carry looked up; what they
find is staged with the offsets and sizes, and committed in one flush.

A resolution whose name is no type of the document is dropped, and the primitive mark counts only
where there is no such type.
-/

namespace DeclGraph

namespace Store

/-- Declares each of a list of things in turn, and pairs it with the identity it got. The first
refusal ends it. -/
def declareEach {α ι : Type} (declare : Store → α → Except StoreError ι × Store) (s : Store) :
    List α → Except StoreError (List (ι × α) × Store)
  | [] => .ok ([], s)
  | a :: rest =>
    match declare s a with
    | (.error e, _) => .error e
    | (.ok id, s) => do
      let (declared, s) ← declareEach declare s rest
      return ((id, a) :: declared, s)

/-- Declares the type of a record. -/
def declareType (s : Store) (r : TypeRecord) : Except StoreError TypeId × Store :=
  s.addType
    { name := r.name
      space := r.space
      kind := r.kind
      alignment := r.alignment
      isIgnored := r.isIgnored
      basePath := r.basePath }

/-- Declares the typedef of a record. -/
def declareTypedef (s : Store) (r : TypedefRecord) : Except StoreError TypedefId × Store :=
  s.addTypedef r.space r.name r.target

/-- Declares the member of a record. Only function pointers have a signature. -/
def declareMember (owner : TypeId) (s : Store) (r : MemberRecord) :
    Except StoreError MemberId × Store :=
  s.addMember owner
    { name := r.name
      typeString := r.typeString
      order := r.order
      bitWidth := r.bitWidth
      alignment := r.alignment
      isFunctionPointer := r.isFunctionPointer
      signature := if r.isFunctionPointer then r.signature else none }

end Store

/-- The parts of a type that have been declared, with their records. -/
structure DeclaredParts where
  bases : List (BaseId × LinkRecord) := []
  arguments : List (ArgumentId × LinkRecord) := []
  members : List (MemberId × MemberRecord) := []

/-- The parts of one type and then those of another. -/
def DeclaredParts.append (a b : DeclaredParts) : DeclaredParts :=
  ⟨a.bases ++ b.bases, a.arguments ++ b.arguments, a.members ++ b.members⟩

/-- Everything of a document that has been declared, with the records. -/
structure DeclaredDocument where
  types : List (TypeId × TypeRecord)
  typedefs : List (TypedefId × TypedefRecord)
  parts : DeclaredParts

namespace Store

/-- Declares what types declare, type by type. -/
def declareParts (s : Store) :
    List (TypeId × TypeRecord) → Except StoreError (DeclaredParts × Store)
  | [] => .ok ({}, s)
  | (id, r) :: rest => do
    let (bases, s) ← declareEach (fun s b => s.addBase id b.typeString) s r.bases
    let (arguments, s) ← declareEach (fun s a => s.addArgument id a.typeString) s r.arguments
    let (members, s) ← declareEach (declareMember id) s r.members
    let (parts, s) ← declareParts s rest
    return (DeclaredParts.append ⟨bases, arguments, members⟩ parts, s)

/-- Declares a document in an empty store. -/
def declareDocument (d : Document) : Except StoreError (DeclaredDocument × Store) := do
  let (types, s) ← declareEach declareType empty d.types
  let (typedefs, s) ← declareEach declareTypedef s d.typedefs
  let (parts, s) ← s.declareParts types
  return (⟨types, typedefs, parts⟩, s)

variable (s : Store)

/-- What a record says that its type string was resolved to, if it says so of a type that
exists or of a primitive. -/
def recordedResolution (resolved : Option String) (primitive : Bool) : Option Resolution :=
  match resolved.bind s.typeByName? with
  | some n => some (.type n.id)
  | none => if primitive then some .primitive else none

/-- The resolution that a record gives the reference of a typedef. -/
def typedefResolution (declared : TypedefId × TypedefRecord) :
    Option (ReferenceId × Resolution) := do
  let t ← s.typedefs.find? declared.1
  let found ← s.recordedResolution declared.2.resolved declared.2.primitive
  return (t.target, found)

/-- The resolution that a record gives the reference of a member. -/
def memberResolution (declared : MemberId × MemberRecord) : Option (ReferenceId × Resolution) := do
  let m ← s.members.find? declared.1
  let id ← m.reference
  let found ← s.recordedResolution declared.2.resolved declared.2.primitive
  return (id, found)

/-- The type that a record gives a base. -/
def baseResolution (declared : BaseId × LinkRecord) : Option (BaseId × TypeId) := do
  let n ← declared.2.resolved.bind s.typeByName?
  return (declared.1, n.id)

/-- Stages a resolved reference for each template argument whose record has a resolution. -/
def stageArguments (s : Store) :
    List (ArgumentId × LinkRecord) → List (ArgumentId × ReferenceId) × Store
  | [] => ([], s)
  | (argument, r) :: rest =>
    match s.recordedResolution r.resolved r.primitive with
    | none => stageArguments s rest
    | some found =>
      let (id, s) := s.stageReference ((Reference.ofTypeString ⟨0⟩ r.typeString).apply found)
      let (links, s) := stageArguments s rest
      ((argument, id) :: links, s)

/-- Stages everything that was computed before the document was written. -/
def stageRecorded (d : DeclaredDocument) : Store :=
  let resolutions := d.typedefs.filterMap s.typedefResolution ++
    d.parts.members.filterMap s.memberResolution
  let bases := d.parts.bases.filterMap s.baseResolution
  let offsets := d.parts.members.filterMap fun (id, r) => r.offset.map (id, ·)
  let sizes := d.types.filterMap fun (id, r) => r.size.map (id, ·)
  let (links, s) := s.stageArguments d.parts.arguments
  ((((s.stageResolutions resolutions).stageBases bases).stageLinks links).stageOffsets
    offsets).stageSizes sizes

end Store

/-- The store of a document. -/
def Document.toStore (d : Document) : Noted (Except StoreError Store) :=
  match Store.declareDocument d with
  | .error e => return .error e
  | .ok (declared, s) =>
    let s := s.stageRecorded declared
    -- A document without results is not flushed, so nothing is noted.
    if s.pending = 0 then return .ok s
    else do
      match ← s.flush with
      | (.ok _, s) => return .ok s
      | (.error e, _) => return .error e

end DeclGraph
