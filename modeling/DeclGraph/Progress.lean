import DeclGraph.Log

/-!
# Progress

A pass announces a task, reports each item and announces the end. These calls are values, listed
in the order in which they are made together with the notes of the pass, so what a sink makes of
them cannot change what a pass computes.

* `Recording`: keeps every call.
* `Meter`: notes the start, each tenth of the way, and the end.
* `Bar`: keeps the position of a progress bar.
-/

namespace DeclGraph

/-- A call on a progress sink. -/
inductive ProgressCall
  | start (task : String) (total : Nat)
  | report (completed : Nat) (message : String)
  | finish (message : String)
  deriving DecidableEq, Repr

/-- Counts the items of a task, and makes the calls for a sink. -/
structure ProgressCounter where
  completed : Nat := 0
  deriving DecidableEq, Repr

namespace ProgressCounter

/-- Starts a task. -/
def start (task : String) (total : Nat) : ProgressCounter × ProgressCall :=
  ({}, .start task total)

/-- Counts an item. -/
def step (c : ProgressCounter) (message : String) : ProgressCounter × ProgressCall :=
  (⟨c.completed + 1⟩, .report (c.completed + 1) message)

end ProgressCounter

/-- What a pass does that can be watched. -/
inductive Activity
  | note (n : Note)
  | progress (c : ProgressCall)
  deriving DecidableEq, Repr

namespace Activity

/-- The progress calls among activities. -/
def calls (as : List Activity) : List ProgressCall :=
  as.filterMap fun
    | .progress c => some c
    | .note _ => none

/-- The notes among activities. -/
def notes (as : List Activity) : List Note :=
  as.filterMap fun
    | .note n => some n
    | .progress _ => none

/-- Reports of items in order, each with the notes made before and after it. `done` items came
first. -/
def reports (done : Nat) : List (List Note × String × List Note) → List Activity
  | [] => []
  | (before, message, after) :: rest =>
    before.map .note ++ .progress (.report (done + 1) message) :: after.map .note ++
      reports (done + 1) rest

end Activity

/-- Every call that was made, by kind. -/
structure Recording where
  tasks : List (String × Nat) := []
  reports : List Nat := []
  finished : List String := []
  deriving DecidableEq, Repr

/-- Records one call. -/
def Recording.receive (r : Recording) : ProgressCall → Recording
  | .start task total => { r with tasks := r.tasks ++ [(task, total)] }
  | .report completed _ => { r with reports := r.reports ++ [completed] }
  | .finish message => { r with finished := r.finished ++ [message] }

/-- The recording of a list of calls. -/
def Recording.ofCalls (cs : List ProgressCall) : Recording := cs.foldl receive {}

/-- Progress as it is logged. Items are counted in 64-bit words. -/
structure Meter where
  task : String := ""
  total : Nat := 0
  current : Nat := 0
  /-- The last percentage that was noted. -/
  lastPercent : Nat := 0
  deriving DecidableEq, Repr

namespace Meter

/-- The whole percentage of the way. -/
def percent (m : Meter) : Nat := m.current * 100 % 1 <<< 64 / m.total

/-- Notes the percentage if it is a new multiple of ten. -/
def advance (m : Meter) : Meter × List Note :=
  let p := m.percent
  if m.total ≠ 0 ∧ m.lastPercent < p ∧ p % 10 = 0 then
    ({ m with lastPercent := p },
      [⟨.info, "[" ++ m.task ++ "] Progress: " ++ toString p ++ "% (" ++ toString m.current ++
        "/" ++ toString m.total ++ ")"⟩])
  else (m, [])

/-- Takes one call, and says what to note. -/
def receive (m : Meter) : ProgressCall → Meter × List Note
  | .start task total =>
    ({ task, total }, [⟨.info, "[" ++ task ++ "] Starting (0/" ++ toString total ++ ")"⟩])
  | .report completed _ => { m with current := completed }.advance
  | .finish message =>
    (m, [⟨.info, "[" ++ m.task ++ "] Completed (" ++ toString m.current ++ "/" ++
      toString m.total ++ "): " ++ message⟩])

/-- The notes among activities, with those that the meter adds for the progress calls. -/
def notes (m : Meter) : List Activity → Meter × List Note
  | [] => (m, [])
  | .note n :: rest => let (m, ns) := m.notes rest; (m, n :: ns)
  | .progress c :: rest =>
    let (m, first) := m.receive c
    let (m, ns) := m.notes rest
    (m, first ++ ns)

end Meter

/-- The state of a progress bar, if a task has started. -/
structure Bar where
  task : Option (Nat × Nat × Bool) := none
  deriving DecidableEq, Repr

namespace Bar

/-- Moves the bar. The end of a task moves it to its length. -/
def receive (b : Bar) : ProgressCall → Bar
  | .start _ total => ⟨some (total, 0, false)⟩
  | .report completed _ => ⟨b.task.map fun (total, _, finished) => (total, completed, finished)⟩
  | .finish _ => ⟨b.task.map fun (total, _, _) => (total, total, true)⟩

/-- Where the bar stands. -/
def position (b : Bar) : Nat := (b.task.map (·.2.1)).getD 0

/-- Whether its task has ended. -/
def isFinished (b : Bar) : Bool := (b.task.map (·.2.2)).getD false

/-- The bar after a list of calls. -/
def ofCalls (cs : List ProgressCall) : Bar := cs.foldl receive {}

end Bar

end DeclGraph
