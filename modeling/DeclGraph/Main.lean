import DeclGraph.CommandLine.Run
import DeclGraph.Duration

/-!
# The program

The command line on a real system. Everything it decides is in `CommandLine.run`.
-/

namespace DeclGraph

/-- The number of an error, which some operations of the system report with its sign reversed. -/
def FileError.codeOf (code : UInt32) : Nat :=
  if code.toNat < 1 <<< 31 then code.toNat else 1 <<< 32 - code.toNat

/-- The system's error as a value. -/
def FileError.ofSystem : IO.Error → FileError
  | .noFileOrDirectory .. => .notFound
  | .inappropriateType _ code details => ⟨details.capitalize, codeOf code⟩
  | .permissionDenied _ code details => ⟨details.capitalize, codeOf code⟩
  | .resourceExhausted _ code details => ⟨details.capitalize, codeOf code⟩
  | .invalidArgument _ code details => ⟨details.capitalize, codeOf code⟩
  | .alreadyExists _ code details => ⟨details.capitalize, codeOf code⟩
  | .resourceBusy code details => ⟨details.capitalize, codeOf code⟩
  | .otherError code details => ⟨details.capitalize, codeOf code⟩
  | e => ⟨toString e, 0⟩

/-- Runs an action on a file. -/
def tryFile {α : Type} (action : IO α) : IO (Except FileError α) := do
  match ← action.toBaseIO with
  | .ok a => return .ok a
  | .error e => return .error (.ofSystem e)

/-- A run on a real system, which knows when it started. -/
abbrev SystemM := ReaderT Nat IO

instance : Host SystemM where
  read path := tryFile (IO.FS.readFile path)
  write path text := tryFile (IO.FS.writeFile path text)
  extend path text :=
    tryFile (IO.FS.withFile path .append fun handle => handle.putStr text)
  print text := do (← IO.getStdout).putStr text
  printError text := do (← IO.getStderr).putStr text
  elapsed := do
    let start ← read
    return (Duration.make 0 ((← IO.monoNanosNow) - start)).display

end DeclGraph

/-- Runs the program. -/
def main (args : List String) : IO UInt32 := do
  DeclGraph.CommandLine.run (m := DeclGraph.SystemM) false args (← IO.monoNanosNow)
