import DeclGraph.Files.Tree

/-!
# Hosts

What a run needs from the system around it: files, two streams and a clock. The program is written
against any host. A `Machine` is one that is a value, so a whole run can be computed.
-/

namespace DeclGraph

/-- A system on which the program runs. -/
class Host (m : Type → Type) where
  /-- Reads a file. -/
  read : String → m (Except FileError String)
  /-- Writes a text to a file in place of what was there. -/
  write : String → String → m (Except FileError Unit)
  /-- Adds a text to the end of a file. -/
  extend : String → String → m (Except FileError Unit)
  /-- Prints a text. -/
  print : String → m Unit
  /-- Prints a text on the stream for errors. -/
  printError : String → m Unit
  /-- The time since the start of the run, in words. -/
  elapsed : m String

/-- A run that may fail uses the system of one that may not. -/
instance {ε : Type} {m : Type → Type} [Monad m] [Host m] : Host (ExceptT ε m) where
  read path := ExceptT.lift (Host.read path)
  write path text := ExceptT.lift (Host.write path text)
  extend path text := ExceptT.lift (Host.extend path text)
  print text := ExceptT.lift (Host.print text)
  printError text := ExceptT.lift (Host.printError text)
  elapsed := ExceptT.lift Host.elapsed

/-- A system as a value: its files and what has been printed. -/
structure Machine where
  tree : FileTree := {}
  printed : String := ""
  printedErrors : String := ""
  /-- What its clock says. -/
  elapsed : String := ""
  deriving DecidableEq, Repr

namespace Machine

/-- Changes the files, unless that fails. -/
def editing (edit : FileTree → Except FileError FileTree) :
    StateM Machine (Except FileError Unit) :=
  fun m =>
    match edit m.tree with
    | .ok tree => (.ok (), { m with tree })
    | .error e => (.error e, m)

instance : Host (StateM Machine) where
  read path := do return (← get).tree.read path
  write path text := editing (·.write path text)
  extend path text := editing (·.extend path text)
  print text := modify fun m => { m with printed := m.printed ++ text }
  printError text := modify fun m => { m with printedErrors := m.printedErrors ++ text }
  elapsed := do return (← get).elapsed

end Machine

end DeclGraph
