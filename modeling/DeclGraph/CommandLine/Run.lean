import DeclGraph.CommandLine.Arguments
import DeclGraph.CommandLine.Host
import DeclGraph.CommandLine.Summary
import DeclGraph.Document.Export
import DeclGraph.Document.Format
import DeclGraph.Document.Import

/-!
# Runs

A run reads a document, resolves its references, lays its types out and writes it back, and says
on the way what it does. It ends at the first failure, which is reported with its causes.
-/

namespace DeclGraph.CommandLine

open Text

/-- Why a document cannot be read. -/
inductive LoadError
  | file (e : FileError)
  /-- The file can be opened, but not be read. -/
  | unreadable (e : FileError)
  | json (e : Json.ReadError)

/-- Why a run fails. -/
inductive Failure
  | configuration (path : String) (e : SettingsError)
  | settings (e : SettingsError)
  | logging (e : FileError)
  | reading (path : String) (e : LoadError)
  | ingesting (e : StoreError)
  | resolving (e : StoreError)
  | layingOut (e : StoreError)
  | writing (path : String) (e : FileError)

/-- What is wrong with settings, and what made it so. -/
def settingsCauses (e : SettingsError) : List String :=
  e.message :: match e with
    | .fault _ => []
    | .file cause => [cause.message]
    | .unreadable cause => [cause.message]
    | .json cause => [cause.message]

/-- Why a document cannot be read, and what made it so. -/
def LoadError.causes : LoadError → List String
  | file e => ["IO error: " ++ e.message, e.message]
  | unreadable e => ["Snapshot error: " ++ e.message, e.message]
  | json e => ["Snapshot error: " ++ e.message, e.message]

namespace Failure

/-- What failed, and each cause in turn. -/
def causes : Failure → List String
  | configuration path e => ("Failed to load config " ++ path) :: settingsCauses e
  | settings e => settingsCauses e
  | logging e => ["Failed to initialise logging", e.message]
  | reading path e => ("Failed to read " ++ path) :: e.causes
  | ingesting e => ["Failed to ingest type database", e.message]
  | resolving e => ["Resolution pass failed", e.message]
  | layingOut e => ["Layout pass failed", e.message]
  | writing path e => ("Failed to write " ++ path) :: (LoadError.file e).causes

/-- The failure as it is reported. -/
def message (f : Failure) : String := joinStrings ": " f.causes

end Failure

variable {m : Type → Type} [Monad m] [Host m]

/-- A part of a run. -/
abbrev RunM (m : Type → Type) := ExceptT Failure m

/-- Fails with a failure made from an error. -/
def orFail {α ε : Type} (failure : ε → Failure) : Except ε α → RunM m α
  | .ok a => pure a
  | .error e => throw (failure e)

/-- Prints lines. -/
def sayAll (lines : List String) : RunM m Unit := lines.forM fun l => Host.print (l ++ "\n")

/-- Where the notes of a run go, and how many of them. -/
structure Logger where
  target : LogTarget
  limit : Level
  deriving DecidableEq, Repr

/-- Makes sure that the log can be written. -/
def Logger.prepare (l : Logger) : RunM m Unit :=
  match l.target with
  | .file path => do orFail .logging (← Host.extend path "")
  | .stderr | .nowhere => pure ()

/-- Writes one note. -/
def Logger.write (l : Logger) (n : Note) : RunM m Unit :=
  if n.isWithin l.limit then
    let line := n.level.padded ++ " " ++ n.text ++ "\n"
    match l.target with
    | .file path => do let _ ← Host.extend path line
    | .stderr => Host.printError line
    | .nowhere => pure ()
  else pure ()

/-- The notes of a pass. Unless a bar shows it, progress is noted too. -/
def notesOf (showsBar : Bool) (activity : List Activity) : List Note :=
  if showsBar then Activity.notes activity else (Meter.notes {} activity).2

/-- The settings that arguments make. -/
def settingsOf (a : Arguments) : RunM m Settings := do
  let start ← match a.config with
    | none => pure {}
    | some path => orFail (.configuration path) (Settings.ofFile (← Host.read path))
  let s := a.changes.foldl Settings.apply start
  orFail .settings s.check
  return s

/-- The document in a file. -/
def loadDocument (path : String) : RunM m Document := do
  let failure (e : FileError) : Failure :=
    .reading path (if e.isOnReading then .unreadable e else .file e)
  let text ← orFail failure (← Host.read path)
  orFail (fun e => .reading path (.json e)) (Document.ofJson text)

/-- Runs a pass and prints its summary. -/
def runPass {ρ : Type} (log : Logger) (showsBar : Bool) (failure : StoreError → Failure)
    (run : PassRun ρ) (summary : ρ → List String) : RunM m Store := do
  (notesOf showsBar run.activity).forM log.write
  let report ← orFail failure run.outcome
  sayAll (summary report)
  return run.store

/-- Does what settings say with the document at `input`. -/
def perform (s : Settings) (input : String) (silenced : Bool) : RunM m Unit := do
  let log : Logger := ⟨.select silenced s.logFile, .ofVerbosity s.verbosity.toNat⟩
  log.prepare
  sayAll ["[*] Loading type database: " ++ input]
  let imported := (← loadDocument input).toStore
  imported.notes.forM log.write
  let store ← orFail .ingesting imported.value
  sayAll ["[+] Loaded " ++ counted store.types.size "type" "types"]
  let store ← if s.runsResolution then
      runPass log s.showsBar .resolving (store.runResolution s.sampleLimit)
        ResolutionReport.summary
    else pure store
  let store ← if s.runsLayout then
      runPass log s.showsBar .layingOut (store.runLayout s.printsLayouts)
        (·.summary s.printsLayouts)
    else pure store
  if let some output := s.output then
    orFail (.writing output) (← Host.write output (Document.ofStore store).toJson)
    sayAll ["[+] Database saved to: " ++ output]
  sayAll ["", rule '=' 50, "[+] Done in " ++ (← Host.elapsed)]

/-- Runs the program with arguments and gives its exit code. A run may be silenced, so that it
logs nothing. -/
def run (silenced : Bool) (args : List String) : m UInt32 :=
  match Request.ofArguments args with
  | .help => do
    Host.print helpText
    return 0
  | .version => do
    Host.print versionText
    return 0
  | .refused => do
    Host.printError "error: these arguments cannot be used; see --help\n"
    return 2
  | .run a => do
    let outcome ← ExceptT.run (m := m) do
      let s ← settingsOf a
      perform s (s.input.getD "") silenced
    match outcome with
    | .ok () => return 0
    | .error f => do
      Host.printError ("[!] " ++ f.message ++ "\n")
      return 1

end DeclGraph.CommandLine
