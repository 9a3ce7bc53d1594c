import DeclGraph.Graph.Declaration
import DeclGraph.Log
import DeclGraph.Store.Staging

/-!
# The resolution report

What a resolution pass came to: outcomes counted by the site of the type string, and the first
type strings that nothing was found for.
-/

namespace DeclGraph

/-- How many type strings had each outcome. -/
structure Tally where
  resolved : Nat := 0
  primitive : Nat := 0
  unresolved : Nat := 0
  deriving DecidableEq, Repr

namespace Tally

/-- All outcomes. -/
def total (c : Tally) : Nat := c.resolved + c.primitive + c.unresolved

/-- Counts of two lots together. -/
def add (a b : Tally) : Tally :=
  ⟨a.resolved + b.resolved, a.primitive + b.primitive, a.unresolved + b.unresolved⟩

/-- Counts one more outcome. -/
def count (c : Tally) : Option Resolution → Tally
  | some (.type _) => { c with resolved := c.resolved + 1 }
  | some .primitive => { c with primitive := c.primitive + 1 }
  | none => { c with unresolved := c.unresolved + 1 }

end Tally

/-- A type string that nothing was found for. -/
structure Sample where
  typeString : String
  site : Site
  parent : String
  deriving DecidableEq, Repr

/-- The sample on one line. -/
def Sample.display (u : Sample) : String :=
  "'" ++ u.typeString ++ "' (" ++ u.site.display ++ " of " ++ u.parent ++ ")"

/-- What a resolution pass came to. -/
structure ResolutionReport where
  member : Tally := {}
  typedef : Tally := {}
  inheritance : Tally := {}
  templateArgument : Tally := {}
  referencesCreated : Nat := 0
  /-- The first unresolved type strings, in the order in which they came up. -/
  samples : List Sample := []
  /-- How many samples are kept. -/
  sampleLimit : Nat
  changes : Changes := {}
  deriving DecidableEq, Repr

namespace ResolutionReport

/-- How many samples are kept unless asked otherwise. -/
def defaultSampleLimit : Nat := 25

variable (r : ResolutionReport)

/-- The outcomes at one kind of site. -/
def counts : Site → Tally
  | .member => r.member
  | .typedef => r.typedef
  | .inheritance => r.inheritance
  | .templateArgument => r.templateArgument

/-- The report with other outcomes at one kind of site. -/
def setCounts (c : Tally) : Site → ResolutionReport
  | .member => { r with member := c }
  | .typedef => { r with typedef := c }
  | .inheritance => { r with inheritance := c }
  | .templateArgument => { r with templateArgument := c }

/-- Counts an outcome, and keeps a sample of it if nothing was found and there is room. -/
def record (site : Site) (outcome : Option Resolution) (typeString parent : String) :
    ResolutionReport :=
  let r := r.setCounts ((r.counts site).count outcome) site
  if outcome.isNone && r.samples.length < r.sampleLimit then
    { r with samples := r.samples ++ [⟨typeString, site, parent⟩] }
  else r

/-- The outcomes at all sites together. -/
def totals : Tally := (Site.all.map r.counts).foldl .add {}

/-- Whether something was found for every type string. -/
def isComplete : Bool := r.totals.unresolved == 0

/-- The report on one line. -/
def display : String :=
  let t := r.totals
  "Resolution: " ++ toString t.resolved ++ " resolved, " ++ toString t.primitive ++
    " primitive, " ++ toString t.unresolved ++ " unresolved, " ++ toString r.referencesCreated ++
    " references created"

/-- The report as notes: the summary, a line for each kind of site that came up, and the samples. -/
def notes : List Note :=
  [⟨.info, r.display⟩] ++
  (Site.all.filter fun site => 0 < (r.counts site).total).map (fun site =>
    let c := r.counts site
    ⟨.info, "  " ++ site.display ++ ": " ++ toString c.resolved ++ " resolved, " ++
      toString c.primitive ++ " primitive, " ++ toString c.unresolved ++ " unresolved"⟩) ++
  r.samples.map fun u => ⟨.debug, "  unresolved " ++ u.display⟩

@[simp] theorem counts_setCounts (c : Tally) (k l : Site) :
    (r.setCounts c k).counts l = if l = k then c else r.counts l := by
  cases k <;> cases l <;> rfl

end ResolutionReport

end DeclGraph
