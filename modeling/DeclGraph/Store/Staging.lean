import DeclGraph.Store.Basic

/-!
# Staged writes

What the passes find out is staged and then committed in one flush, which applies every staged
write or none. `Store.refusal?` finds the first write that cannot stand; `Store.commit` applies a
batch that has none. Either way nothing is staged afterwards.

A write that would change nothing is no error: it is skipped, and not counted.
-/

namespace DeclGraph

/-- What one flush changed. -/
structure Changes where
  referencesResolved : Nat := 0
  referencesCreated : Nat := 0
  argumentsLinked : Nat := 0
  basesResolved : Nat := 0
  offsetsWritten : Nat := 0
  sizesWritten : Nat := 0
  deriving DecidableEq, Repr

namespace Changes

variable (f : Changes)

/-- All changes. -/
def total : Nat :=
  f.referencesResolved + f.referencesCreated + f.argumentsLinked + f.basesResolved +
    f.offsetsWritten + f.sizesWritten

/-- Whether nothing changed. -/
def isEmpty : Bool := f.total == 0

/-- The changes on one line. -/
def display : String :=
  toString f.referencesResolved ++ " references resolved, " ++ toString f.referencesCreated ++
    " created, " ++ toString f.argumentsLinked ++ " template arguments linked, " ++
    toString f.basesResolved ++ " bases resolved, " ++ toString f.offsetsWritten ++
    " offsets, " ++ toString f.sizesWritten ++ " sizes"

end Changes

namespace Table

variable {κ α ω : Type} [DecidableEq κ]

/-- Applies writes in order and counts those that change something. `change` gives the new value,
or nothing where the write has no effect. -/
def writeAll (change : ω → α → Option α) (t : Table κ α) : List (κ × ω) → Table κ α × Nat
  | [] => (t, 0)
  | (k, w) :: rest =>
    match (t.find? k).bind (change w) with
    | some a =>
      let (t, n) := writeAll change (t.insert k a) rest
      (t, n + 1)
    | none => writeAll change t rest

end Table

namespace Store

/-! ## Staging -/

/-- Stages resolutions of references. -/
def stageResolutions (s : Store) (ws : List (ReferenceId × Resolution)) : Store :=
  { s with staged := { s.staged with resolutions := s.staged.resolutions ++ ws } }

/-- Stages a new reference under a fresh identity. -/
def stageReference (s : Store) (r : Reference) : ReferenceId × Store :=
  let id : ReferenceId := ⟨s.nextId⟩
  (id, { s with
    nextId := s.nextId + 1
    staged := { s.staged with references := s.staged.references ++ [{ r with id }] } })

/-- Stages the references of template arguments. -/
def stageLinks (s : Store) (ws : List (ArgumentId × ReferenceId)) : Store :=
  { s with staged := { s.staged with links := s.staged.links ++ ws } }

/-- Stages the types that bases name. -/
def stageBases (s : Store) (ws : List (BaseId × TypeId)) : Store :=
  { s with staged := { s.staged with bases := s.staged.bases ++ ws } }

/-- Stages offsets of members. -/
def stageOffsets (s : Store) (ws : List (MemberId × UInt32)) : Store :=
  { s with staged := { s.staged with offsets := s.staged.offsets ++ ws } }

/-- Stages sizes of types. -/
def stageSizes (s : Store) (ws : List (TypeId × UInt32)) : Store :=
  { s with staged := { s.staged with sizes := s.staged.sizes ++ ws } }

/-- Forgets what is staged. -/
def discard (s : Store) : Store := { s with staged := {} }

/-! ## Refusals -/

variable (s : Store)

/-- Refuses a type that does not exist. -/
def refuseType? (id : TypeId) : Option StoreError :=
  if s.types.contains id then none else some (.unknownType id)

/-- Refuses a reference that neither exists nor is staged. -/
def refuseReference? (id : ReferenceId) : Option StoreError :=
  if s.references.contains id || s.staged.references.any (·.id = id) then none
  else some (.unknownReference id)

/-- Refuses a resolution of a missing reference, to a missing type, or to another type than the
reference points at. -/
def refuseResolution? : ReferenceId × Resolution → Option StoreError
  | (id, .primitive) => s.refuseReference? id
  | (id, .type t) =>
    s.refuseReference? id <|> s.refuseType? t <|>
      match (s.references.find? id).bind (·.target) with
      | some existing =>
        if existing = t then none else some (.conflictingResolution id existing t)
      | none => none

/-- Refuses a link of a missing template argument or to a missing reference. -/
def refuseLink? : ArgumentId × ReferenceId → Option StoreError
  | (id, r) =>
    if s.arguments.contains id then s.refuseReference? r else some (.unknownArgument id)

/-- Refuses a target for a missing base, a missing type, or another type than the base names. -/
def refuseBase? : BaseId × TypeId → Option StoreError
  | (id, t) =>
    match s.bases.find? id with
    | none => some (.unknownBase id)
    | some edge =>
      s.refuseType? t <|>
        match edge.target with
        | some existing => if existing = t then none else some (.conflictingBase id existing t)
        | none => none

/-- Refuses an offset of a missing member. -/
def refuseOffset? : MemberId × UInt32 → Option StoreError
  | (id, _) => if s.members.contains id then none else some (.unknownMember id)

/-- The first staged write that cannot be committed. -/
def refusal? : Option StoreError :=
  s.staged.references.findSome? (fun r => r.target.bind s.refuseType?) <|>
    s.staged.resolutions.findSome? s.refuseResolution? <|>
    s.staged.links.findSome? s.refuseLink? <|>
    s.staged.bases.findSome? s.refuseBase? <|>
    s.staged.offsets.findSome? s.refuseOffset? <|>
    s.staged.sizes.findSome? fun w => s.refuseType? w.1

/-! ## Committing -/

/-- Resolves a reference that still needs it. -/
def changeReference (w : Resolution) (r : Reference) : Option Reference :=
  if r.needsResolution then some (r.apply w) else none

/-- Links a template argument that has no reference. -/
def changeArgument (w : ReferenceId) (a : TemplateArgument) : Option TemplateArgument :=
  if a.reference.isNone then some { a with reference := some w } else none

/-- Resolves a base that names no type. -/
def changeBase (w : TypeId) (b : BaseEdge) : Option BaseEdge :=
  if b.target.isNone then some { b with target := some w } else none

/-- Writes an offset that differs. -/
def changeMember (w : UInt32) (m : Member) : Option Member :=
  if m.offset = some w then none else some { m with offset := some w }

/-- Writes a size that differs. -/
def changeType (w : UInt32) (n : DeclaredType) : Option DeclaredType :=
  if n.size = some w then none else some { n with size := some w }

/-- Applies a batch, new references first. -/
def apply (b : Batch) : Changes × Store :=
  -- Resolutions and links of the same batch may concern the new references.
  let created := b.references.foldl (fun t r => t.insert r.id r) s.references
  let (references, resolved) := created.writeAll changeReference b.resolutions
  let (arguments, linked) := s.arguments.writeAll changeArgument b.links
  let (bases, based) := s.bases.writeAll changeBase b.bases
  let (members, placed) := s.members.writeAll changeMember b.offsets
  let (types, sized) := s.types.writeAll changeType b.sizes
  ({ referencesResolved := resolved
     referencesCreated := b.references.length
     argumentsLinked := linked
     basesResolved := based
     offsetsWritten := placed
     sizesWritten := sized },
    { s with references, arguments, bases, members, types })

/-- Commits every staged write, or none of them if one is refused. -/
def flush : Noted (Except StoreError Changes × Store) := do
  match s.refusal? with
  | some e =>
    .note .warn ("Flush rejected, discarding " ++ toString s.pending ++ " staged writes: " ++
      e.message)
    return (.error e, s.discard)
  | none =>
    let (summary, committed) := s.discard.apply s.staged
    .note .debug ("Flushed: " ++ summary.display)
    return (.ok summary, committed)

end Store

end DeclGraph
