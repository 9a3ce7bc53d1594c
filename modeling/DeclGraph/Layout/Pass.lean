import DeclGraph.Layout.Memo
import DeclGraph.PassRun

/-!
# The layout pass

Lays out every aggregate of a store and commits the sizes of types and the offsets of members in
one flush. Ignored types are laid out too, since others may contain them, but nothing of theirs
is written.
-/

namespace DeclGraph

/-- What a layout pass came to. -/
structure LayoutReport where
  typesLaidOut : Nat := 0
  ignoredTypes : Nat := 0
  membersPlaced : Nat := 0
  bitfieldMembers : Nat := 0
  /-- Members that took the fallback because nothing was known of their type. -/
  defaultedMembers : Nat := 0
  paddingBytes : Nat := 0
  /-- The layouts that were written, unless they are not kept. -/
  layouts : List Layout := []
  changes : Changes := {}
  deriving DecidableEq, Repr

namespace LayoutReport

/-- The first layout of a type with a name. -/
def layout? (r : LayoutReport) (name : String) : Option Layout :=
  r.layouts.find? (·.name = name)

/-- The report on one line. -/
def display (r : LayoutReport) : String :=
  "Layout: " ++ toString r.typesLaidOut ++ " types, " ++ toString r.membersPlaced ++
    " members (" ++ toString r.bitfieldMembers ++ " bitfields, " ++
    toString r.defaultedMembers ++ " defaulted), " ++ toString r.ignoredTypes ++ " ignored, " ++
    toString r.paddingBytes ++ " padding bytes"

end LayoutReport

/-- An aggregate that the pass has laid out. -/
structure LayoutItem where
  layout : Layout
  isIgnored : Bool
  /-- What was noted on the way. -/
  notes : List Note
  deriving DecidableEq, Repr

/-- What is noted about a layout once it is there. -/
def LayoutItem.closing (i : LayoutItem) : Note :=
  if i.isIgnored then ⟨.debug, i.layout.name ++ " is ignored, not writing layout"⟩
  else ⟨.trace, i.layout.display⟩

namespace LayoutInput

variable (d : LayoutInput)

/-- Lays out aggregates in order. -/
def layItems (m : Memo) : List DeclaredType → List LayoutItem × Memo
  | [] => ([], m)
  | n :: rest =>
    let ((found, notes), m) := LayoutM.collecting (d.layout? .words n.id) m
    let (items, m) := layItems m rest
    match found with
    | some layout => (⟨layout, n.isIgnored, notes⟩ :: items, m)
    | none => (items, m)

end LayoutInput

namespace LayoutReport

/-- The report on items, of which the ignored ones count for nothing else. -/
def ofItems (keepLayouts : Bool) (defaulted : Nat) (items : List LayoutItem) : LayoutReport :=
  let written := (items.filter (!·.isIgnored)).map (·.layout)
  let members := written.flatMap (·.members)
  { typesLaidOut := written.length
    ignoredTypes := (items.filter (·.isIgnored)).length
    membersPlaced := members.length
    bitfieldMembers := (members.filter (·.bits.isSome)).length
    defaultedMembers := defaulted
    paddingBytes := (written.map (·.totalPadding)).foldr (· + ·) 0
    layouts := if keepLayouts then written else [] }

end LayoutReport

namespace Store

variable (s : Store)

/-- The aggregates of a store laid out, with how often a member took the fallback. -/
def layoutItems : List LayoutItem × Nat :=
  let d := s.layoutInput
  let (items, memo) := d.layItems {} d.aggregates
  (items, memo.defaulted)

/-- Stages what the layouts say about the types that are not ignored. -/
def stageLayouts (items : List LayoutItem) : Store :=
  let written := (items.filter (!·.isIgnored)).map (·.layout)
  let offsets := written.flatMap fun l => l.members.map fun m => (m.memberId, clampWord m.offset)
  (s.stageOffsets offsets).stageSizes (written.map fun l => (l.typeId, clampWord l.size))

/-- What is noted when the declarations have been read. -/
def layoutOpening : Note :=
  let d := s.layoutInput
  ⟨.debug, "Layout context: " ++ toString d.types.size ++ " types, " ++
    toString d.aggregates.length ++ " aggregates, " ++ toString d.references.size ++
    " references, " ++ toString s.typedefs.size ++ " typedefs"⟩

/-- Runs a layout pass. The report keeps the layouts if asked to. -/
def runLayout (keepLayouts : Bool := true) : PassRun LayoutReport :=
  let (items, defaulted) := s.layoutItems
  let report := LayoutReport.ofItems keepLayouts defaulted items
  let committed := (s.stageLayouts items).flush
  let activity :=
    .note s.layoutOpening ::
    .progress (.start "Calculating layouts" s.aggregates.length) ::
    Activity.reports 0 (items.map fun i => (i.notes, i.layout.name, [i.closing])) ++
    committed.notes.map .note
  match committed.value with
  | (.error e, store) => ⟨.error e, store, activity⟩
  | (.ok changes, store) =>
    let report := { report with changes }
    let closing := toString report.typesLaidOut ++ " types"
    ⟨.ok report, store,
      activity ++ [.progress (.finish closing), .note ⟨.info, report.display⟩]⟩

end Store

end DeclGraph
