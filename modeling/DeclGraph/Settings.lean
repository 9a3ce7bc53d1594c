import DeclGraph.Files.Error
import DeclGraph.Files.Path
import DeclGraph.Json.Schema
import DeclGraph.Resolve.Report

/-!
# Settings

What a run of the program reads, does and writes. Settings come from a JSON file or are the
default ones, and single changes are applied on top. A run needs a file to read and something to
do, and must not write over what it reads; `Settings.check` finds the first of these faults.
-/

namespace DeclGraph

open Json

/-- What a run does. -/
structure Settings where
  /-- The path of the document to read. -/
  input : Option String := none
  /-- The path to write the document to. -/
  output : Option String := none
  runsResolution : Bool := true
  runsLayout : Bool := true
  showsBar : Bool := true
  verbosity : UInt8 := 0
  /-- How many unresolved type strings are shown. -/
  sampleLimit : Nat := ResolutionReport.defaultSampleLimit
  logFile : Option String := none
  printsLayouts : Bool := false
  deriving DecidableEq, Repr

/-- A change to settings. -/
inductive SettingsChange
  | input (path : String)
  | output (path : String)
  | logFile (path : String)
  | sampleLimit (limit : Nat)
  | verbosity (level : UInt8)
  | withoutResolution
  | withoutLayout
  | withoutBar
  | printLayouts
  deriving DecidableEq, Repr

/-- Why settings make no run. -/
inductive SettingsFault
  | noInput | nothingToDo | outputOverInput
  deriving DecidableEq, Repr

/-- The fault in words. -/
def SettingsFault.reason : SettingsFault → String
  | noInput => "an input database must be set"
  | nothingToDo => "at least one of resolution or layout must run"
  | outputOverInput => "output must differ from input"

/-- Why settings cannot be used. -/
inductive SettingsError
  | fault (f : SettingsFault)
  | file (e : FileError)
  /-- The file can be opened, but not be read. -/
  | unreadable (e : FileError)
  | json (e : ReadError)

/-- The error as it is reported. -/
def SettingsError.message : SettingsError → String
  | fault f => "Invalid configuration: " ++ f.reason
  | file e => "I/O error: " ++ e.message
  | unreadable e => "Malformed configuration: " ++ e.message
  | json e => "Malformed configuration: " ++ e.message

namespace Settings

/-- Paths. -/
def pathCodec : Codec String := { Codec.text with read := readText "path string" }

/-- Settings as JSON, where whatever is missing has its default. -/
def schema : Schema Settings :=
  { title := "struct Config"
    blank := {}
    columns := [
      .make "input" (.option pathCodec) (·.input) (fun v s => { s with input := v }),
      .make "output" (.option pathCodec) (·.output) (fun v s => { s with output := v }),
      .make "run_resolution" .bool (·.runsResolution)
        (fun v s => { s with runsResolution := v }),
      .make "run_layout" .bool (·.runsLayout) (fun v s => { s with runsLayout := v }),
      .make "enable_progress_bars" .bool (·.showsBar) (fun v s => { s with showsBar := v }),
      .make "verbosity" .byte (·.verbosity) (fun v s => { s with verbosity := v }),
      .make "diagnostic_sample_limit" .count (·.sampleLimit)
        (fun v s => { s with sampleLimit := v }),
      .make "log_file" (.option pathCodec) (·.logFile) (fun v s => { s with logFile := v }),
      .make "print_layouts" .bool (·.printsLayouts) (fun v s => { s with printsLayouts := v })] }

/-- The settings in what was read from a file. -/
def ofFile (contents : Except FileError String) : Except SettingsError Settings :=
  match contents with
  | .error e => .error (if e.isOnReading then .unreadable e else .file e)
  | .ok text => (schema.ofText text).mapError .json

/-- Applies a change. -/
def apply (s : Settings) : SettingsChange → Settings
  | .input path => { s with input := some path }
  | .output path => { s with output := some path }
  | .logFile path => { s with logFile := some path }
  | .sampleLimit limit => { s with sampleLimit := limit }
  | .verbosity level => { s with verbosity := level }
  | .withoutResolution => { s with runsResolution := false }
  | .withoutLayout => { s with runsLayout := false }
  | .withoutBar => { s with showsBar := false }
  | .printLayouts => { s with printsLayouts := true }

variable (s : Settings)

/-- Whether the output would replace the input, as far as their paths tell. -/
def overwritesInput : Bool :=
  match s.input, s.output with
  | some input, some output => Path.same input output
  | _, _ => false

/-- The first fault of the settings, if they have one. -/
def fault? : Option SettingsFault :=
  if s.input.isNone then some .noInput
  else if !s.runsResolution && !s.runsLayout then some .nothingToDo
  else if s.overwritesInput then some .outputOverInput
  else none

/-- Accepts settings without fault. -/
def check : Except SettingsError Unit :=
  match s.fault? with
  | some f => .error (.fault f)
  | none => .ok ()

/-- Whether the settings are the default ones. -/
def isDefault : Bool := s = {}

end Settings

end DeclGraph
