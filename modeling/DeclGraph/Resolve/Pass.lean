import DeclGraph.PassRun
import DeclGraph.Resolve.Report
import DeclGraph.Resolve.Strategy

/-!
# The resolution pass

Resolves every reference of a member or typedef, every base and every template argument that is
still unresolved, and commits the outcome in one flush.

* The scope of a member is its declaring type, that of a typedef its namespace, and that of a
  base or template argument the namespace of the type that declares it.
* A base is resolved only to a type, and never to the type that declares it.
* Template arguments share references: in one pass, equal type strings get one reference, and a
  reference is resolved once.
-/

namespace DeclGraph

/-- A type string that the pass has dealt with. -/
structure ResolvedItem where
  site : Site
  typeString : String
  /-- The declaration, as reports name it. -/
  parent : String
  outcome : Option Resolution
  /-- What was noted on the way. -/
  notes : List Note
  deriving DecidableEq, Repr

namespace Store

variable (s : Store)

/-- The scope in which a type looks up its bases and template arguments, and its name in reports. -/
def ownerScope (id : TypeId) : String × String :=
  match s.types.find? id with
  | some n => (n.space, n.qualifiedName)
  | none => ("", id.display)

/-- Deals with an unresolved reference. -/
def resolveReference (u : Unresolved) : ResolvedItem :=
  let found := s.resolveNoting u.reference.typeString u.scope
  { site := u.owner.site
    typeString := u.reference.typeString
    parent := u.parent
    outcome := found.value
    notes := found.notes }

/-- Deals with an unresolved base. -/
def resolveBase (b : BaseEdge) : ResolvedItem :=
  let (scope, parent) := s.ownerScope b.owner
  let found := s.resolveNoting b.typeString scope
  { site := .inheritance
    typeString := b.typeString
    parent
    outcome := match found.value with
      | some (.type id) => if id = b.owner then none else some (.type id)
      | _ => none
    notes := found.notes }

end Store

/-- How template arguments share references within a pass. -/
structure Sharing where
  /-- The store with the references staged so far. -/
  store : Store
  /-- The reference for each type string. -/
  byString : Table String ReferenceId := {}
  /-- What each reference was resolved to. -/
  outcomes : Table ReferenceId (Option Resolution) := {}
  resolutions : List (ReferenceId × Resolution) := []
  links : List (ArgumentId × ReferenceId) := []
  created : Nat := 0

namespace Sharing

variable (h : Sharing)

/-- What a reference was resolved to in this pass. -/
def outcomeOf (id : ReferenceId) : Option Resolution := (h.outcomes.find? id).join

/-- Deals with an argument that has a reference: resolves it unless this has been done. -/
def withReference (a : TemplateArgument) (scope : String) (id : ReferenceId) :
    Sharing × Option Resolution × List Note :=
  if h.outcomes.contains id then (h, h.outcomeOf id, [])
  else
    let typeString := ((h.store.references.find? id).map (·.typeString)).getD a.typeString
    let found := h.store.resolveNoting typeString scope
    let byString := if h.byString.contains a.typeString then h.byString
      else h.byString.insert a.typeString id
    ({ h with
        byString
        outcomes := h.outcomes.insert id found.value
        resolutions := h.resolutions ++ (found.value.map (id, ·)).toList },
      found.value, found.notes)

/-- Deals with an argument without a reference: links it to the one for its type string, which is
created if need be. -/
def withoutReference (a : TemplateArgument) (scope : String) :
    Sharing × Option Resolution × List Note :=
  match h.byString.find? a.typeString with
  | some id => ({ h with links := h.links ++ [(a.id, id)] }, h.outcomeOf id, [])
  | none =>
    let found := h.store.resolveNoting a.typeString scope
    -- Staging gives the reference its identity.
    let declared := Reference.ofTypeString ⟨0⟩ a.typeString
    let (id, store) := h.store.stageReference ((found.value.map declared.apply).getD declared)
    ({ h with
        store
        byString := h.byString.insert a.typeString id
        outcomes := h.outcomes.insert id found.value
        links := h.links ++ [(a.id, id)]
        created := h.created + 1 },
      found.value, found.notes)

/-- Deals with one template argument. -/
def step (a : TemplateArgument) : Sharing × ResolvedItem :=
  let (scope, parent) := h.store.ownerScope a.owner
  let (h, outcome, notes) := match a.reference with
    | some id => h.withReference a scope id
    | none => h.withoutReference a scope
  (h, { site := .templateArgument
        typeString := a.typeString
        parent := parent ++ "<#" ++ toString a.position.toNat ++ ">"
        outcome
        notes })

/-- Deals with template arguments in order. -/
def run (h : Sharing) : List TemplateArgument → Sharing × List ResolvedItem
  | [] => (h, [])
  | a :: rest =>
    let (h, item) := h.step a
    let (h, items) := h.run rest
    (h, item :: items)

end Sharing

namespace ResolutionReport

/-- The report on items in the order in which they were dealt with. -/
def ofItems (sampleLimit created : Nat) (items : List ResolvedItem) : ResolutionReport :=
  items.foldl (fun r i => r.record i.site i.outcome i.typeString i.parent)
    { sampleLimit, referencesCreated := created }

end ResolutionReport

/-- The writes of a resolution pass, staged and with the items they come from. -/
structure ResolutionPlan where
  items : List ResolvedItem
  created : Nat
  store : Store

namespace Store

variable (s : Store)

/-- Works out a resolution pass and stages what it found. -/
def planResolution : ResolutionPlan :=
  let references := s.unresolvedReferences.map fun u => (u.reference.id, s.resolveReference u)
  let bases := s.unresolvedBases.map fun b => (b.id, s.resolveBase b)
  let (shared, arguments) := Sharing.run { store := s } s.unresolvedArguments
  let resolutions := references.filterMap fun (id, i) => i.outcome.map (id, ·)
  let targets := bases.filterMap fun (id, i) =>
    match i.outcome with
    | some (.type t) => some (id, t)
    | _ => none
  { items := references.map Prod.snd ++ bases.map Prod.snd ++ arguments
    created := shared.created
    store := ((shared.store.stageResolutions (resolutions ++ shared.resolutions)).stageBases
      targets).stageLinks shared.links }

/-- Runs a resolution pass, and keeps up to `sampleLimit` unresolved type strings for the
report. -/
def runResolution (sampleLimit : Nat := ResolutionReport.defaultSampleLimit) :
    PassRun ResolutionReport :=
  let plan := s.planResolution
  let report := ResolutionReport.ofItems sampleLimit plan.created plan.items
  let opening := "Resolving " ++ toString s.unresolvedReferences.length ++ " references, " ++
    toString s.unresolvedBases.length ++ " bases, " ++ toString s.unresolvedArguments.length ++
    " template arguments"
  let committed := plan.store.flush
  let activity :=
    .progress (.start "Resolving type references" plan.items.length) ::
    .note ⟨.debug, opening⟩ ::
    Activity.reports 0 (plan.items.map fun i => (i.notes, i.typeString, [])) ++
    committed.notes.map .note
  match committed.value with
  | (.error e, store) => ⟨.error e, store, activity⟩
  | (.ok changes, store) =>
    let report := { report with changes }
    let closing := toString report.totals.unresolved ++ " unresolved"
    ⟨.ok report, store,
      activity ++ .progress (.finish closing) :: report.notes.map .note⟩

end Store

end DeclGraph
