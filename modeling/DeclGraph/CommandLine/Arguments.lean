import DeclGraph.Settings

/-!
# Arguments

The options of the command line. Arguments are first cut into items, each an option with its value
if it takes one; the items are then collected from the left, and the first thing that is wrong or
that ends the run decides.

A value may be attached, as in `--output=x` and `-ox`, or be the next argument, unless that looks
like an option. Options without values may share one dash. Only `-v` may be repeated.
-/

namespace DeclGraph.CommandLine

open Text

/-- The options. -/
inductive Flag
  | input | output | config | skipResolution | skipLayout | sampleLimit | verbose | logFile
  | noProgress | printLayouts | help | version
  deriving DecidableEq, Repr

namespace Flag

/-- The options in the order in which help lists them. -/
def all : List Flag :=
  [input, output, config, skipResolution, skipLayout, sampleLimit, verbose, logFile, noProgress,
    printLayouts, help, version]

/-- The name after two dashes. -/
def long : Flag → String
  | input => "input"
  | output => "output"
  | config => "config"
  | skipResolution => "skip-resolution"
  | skipLayout => "skip-layout"
  | sampleLimit => "sample-limit"
  | verbose => "verbose"
  | logFile => "log-file"
  | noProgress => "no-progress"
  | printLayouts => "print-layouts"
  | help => "help"
  | version => "version"

/-- The letter after one dash. -/
def short? : Flag → Option Char
  | input => some 'i'
  | output => some 'o'
  | config => some 'c'
  | verbose => some 'v'
  | help => some 'h'
  | version => some 'V'
  | _ => none

/-- Whether the option takes a value. -/
def takesValue : Flag → Bool
  | input | output | config | sampleLimit | logFile => true
  | _ => false

/-- What the option is for. -/
def purpose : Flag → String
  | input => "Type database exported by the parser (JSON)"
  | output => "Where to write the updated database"
  | config => "JSON configuration; command line flags override it"
  | skipResolution => "Leave references as they are"
  | skipLayout => "Leave sizes and offsets as they are"
  | sampleLimit => "Unresolved references to keep for the report"
  | verbose => "Log more; may be repeated"
  | logFile => "Append the log to a file"
  | noProgress => "Log progress instead of drawing a bar"
  | printLayouts => "Print every layout"
  | help => "Print help"
  | version => "Print version"

/-- The option on one line of the help text. -/
def helpLine (f : Flag) : String :=
  let letter := match f.short? with
    | some c => "-" ++ c.toString ++ ", "
    | none => "    "
  let name := "  " ++ letter ++ "--" ++ f.long ++ (if f.takesValue then " <VALUE>" else "")
  name ++ String.ofList (List.replicate (32 - name.length) ' ') ++ f.purpose

end Flag

/-- An option as it was given, or something that is none. -/
inductive Item
  | switch (f : Flag)
  | value (f : Flag) (v : String)
  | fault
  deriving DecidableEq, Repr

/-- Whether an argument is not taken for the value of the option before it. -/
def looksLikeOption (arg : List Char) : Bool :=
  match arg with
  | '-' :: _ :: _ => true
  | _ => false

/-- The items of the letters after one dash, and the option that waits for its value. -/
def readLetters : List Char → List Item × Option Flag
  | [] => ([], none)
  | c :: r =>
    match Flag.all.find? (·.short? = some c) with
    | none => ([.fault], none)
    | some f =>
      if f.takesValue then
        if r.isEmpty then ([], some f)
        else ([.value f (String.ofList ((after? ['='] r).getD r))], none)
      else
        let (items, waiting) := readLetters r
        (.switch f :: items, waiting)

/-- The items of a name after two dashes, and the option that waits for its value. -/
def readName (arg : List Char) : List Item × Option Flag :=
  let name := String.ofList (arg.takeWhile (· ≠ '='))
  match Flag.all.find? (·.long = name), arg.dropWhile (· ≠ '=') with
  | none, _ => ([.fault], none)
  | some f, [] => if f.takesValue then ([], some f) else ([.switch f], none)
  | some f, _ :: v => ([if f.takesValue then .value f (String.ofList v) else .fault], none)

/-- The items of an argument that looks like an option. -/
def readOption (arg : List Char) : List Item × Option Flag :=
  match arg with
  | '-' :: '-' :: name => readName name
  | _ => readLetters (arg.drop 1)

/-- The items of arguments, the first of which may be the value that an option waits for. Two
dashes end the options, and nothing may follow them. -/
def readItems : Option Flag → List (List Char) → List Item
  | none, [] => []
  | some _, [] => [.fault]
  | some f, arg :: rest =>
    if looksLikeOption arg then [.fault] else .value f (String.ofList arg) :: readItems none rest
  | none, arg :: rest =>
    if arg = ['-', '-'] then if rest.isEmpty then [] else [.fault]
    else if looksLikeOption arg then
      let (items, waiting) := readOption arg
      items ++ readItems waiting rest
    else [.fault]

/-- What has been given. -/
structure Arguments where
  input : Option String := none
  output : Option String := none
  config : Option String := none
  sampleLimit : Option Nat := none
  logFile : Option String := none
  skipResolution : Bool := false
  skipLayout : Bool := false
  noProgress : Bool := false
  printLayouts : Bool := false
  verbosity : Nat := 0
  deriving DecidableEq, Repr

namespace Arguments

variable (a : Arguments)

/-- Takes an option without a value, unless it has been given before. -/
def switch : Flag → Option Arguments
  | .skipResolution => if a.skipResolution then none else some { a with skipResolution := true }
  | .skipLayout => if a.skipLayout then none else some { a with skipLayout := true }
  | .noProgress => if a.noProgress then none else some { a with noProgress := true }
  | .printLayouts => if a.printLayouts then none else some { a with printLayouts := true }
  | .verbose => some { a with verbosity := a.verbosity + 1 }
  | _ => none

/-- Takes the value of an option, unless it is no path or number or has been given before. -/
def give (f : Flag) (v : String) : Option Arguments :=
  let path (given : Option String) : Option String :=
    if given.isNone && v ≠ "" then some v else none
  match f with
  | .input => (path a.input).map fun v => { a with input := some v }
  | .output => (path a.output).map fun v => { a with output := some v }
  | .config => (path a.config).map fun v => { a with config := some v }
  | .logFile => (path a.logFile).map fun v => { a with logFile := some v }
  | .sampleLimit =>
    if a.sampleLimit.isNone then
      (readUnsigned 10 Json.maxNatural v.toList).map fun n => { a with sampleLimit := some n }
    else none
  | _ => none

/-- What the arguments change about the settings. -/
def changes : List SettingsChange :=
  (a.input.map .input).toList ++ (a.output.map .output).toList ++
  (if a.skipResolution then [.withoutResolution] else []) ++
  (if a.skipLayout then [.withoutLayout] else []) ++
  (a.sampleLimit.map .sampleLimit).toList ++
  (if 0 < a.verbosity then [.verbosity (clampByte a.verbosity)] else []) ++
  (a.logFile.map .logFile).toList ++
  (if a.noProgress then [.withoutBar] else []) ++
  (if a.printLayouts then [.printLayouts] else [])

end Arguments

/-- What the command line asks for. -/
inductive Request
  | run (a : Arguments)
  | help
  | version
  | refused
  deriving DecidableEq, Repr

/-- Collects items. A run needs an input. -/
def collect (a : Arguments) : List Item → Request
  | [] => if a.input.isSome then .run a else .refused
  | .fault :: _ => .refused
  | .switch .help :: _ => .help
  | .switch .version :: _ => .version
  | .switch f :: rest =>
    match a.switch f with
    | some a => collect a rest
    | none => .refused
  | .value f v :: rest =>
    match a.give f v with
    | some a => collect a rest
    | none => .refused

/-- What a list of arguments asks for. -/
def Request.ofArguments (args : List String) : Request :=
  collect {} (readItems none (args.map String.toList))

/-- The name of the program with its version. -/
def versionText : String := "type-layout-resolver 1.0.0\n"

/-- The text that explains the options. -/
def helpText : String :=
  joinStrings "\n"
    (["Resolves decompiled type references and computes 32-bit x86 layouts", "",
      "Usage: type-layout-resolver [OPTIONS] --input <VALUE>", "", "Options:"] ++
      Flag.all.map Flag.helpLine) ++ "\n"

end DeclGraph.CommandLine
