/-!
# Notes

What the passes have to say while they run. A computation that notes something is a value of
`Noted`: the result with its notes in order. Nothing is computed from a note, and the level that
is shown is chosen outside.

* `Noted.value_bind`: sequencing computes on results alone.
-/

namespace DeclGraph

/-- How much a note matters. -/
inductive Level
  | warn | info | debug | trace
  deriving DecidableEq, Repr

namespace Level

/-- The rank of a level: the more is shown, the higher. -/
def rank : Level → Nat
  | warn => 1
  | info => 2
  | debug => 3
  | trace => 4

/-- The name of a level. -/
def name : Level → String
  | warn => "WARN"
  | info => "INFO"
  | debug => "DEBUG"
  | trace => "TRACE"

/-- The name, padded to the width of the longest one. -/
def padded (l : Level) : String :=
  String.ofList (l.name.toList ++ List.replicate (5 - l.name.length) ' ')

/-- The most that is shown at a verbosity: warnings, summaries, details, everything. -/
def ofVerbosity : Nat → Level
  | 0 => warn
  | 1 => info
  | 2 => debug
  | _ => trace

end Level

/-- A line of the log. -/
structure Note where
  level : Level
  text : String
  deriving DecidableEq, Repr

/-- Whether a note is shown when `limit` is the most that is shown. -/
def Note.isWithin (limit : Level) (n : Note) : Bool := n.level.rank ≤ limit.rank

/-- Where notes go. -/
inductive LogTarget
  | stderr
  | file (path : String)
  | nowhere
  deriving DecidableEq, Repr

/-- Notes go to a log file if there is one, unless the run is silenced. -/
def LogTarget.select (silenced : Bool) (logFile : Option String) : LogTarget :=
  if silenced then nowhere
  else match logFile with
    | some path => file path
    | none => stderr

/-- A result with what was noted on the way to it. -/
structure Noted (α : Type) where
  value : α
  notes : List Note

namespace Noted

instance : Monad Noted where
  pure a := ⟨a, []⟩
  bind x f := ⟨(f x.value).value, x.notes ++ (f x.value).notes⟩

/-- Notes one line. -/
def note (level : Level) (text : String) : Noted Unit := ⟨(), [⟨level, text⟩]⟩

variable {α β : Type}

@[simp] theorem value_pure (a : α) : (pure a : Noted α).value = a := rfl

@[simp] theorem value_bind (x : Noted α) (f : α → Noted β) :
    (x >>= f).value = (f x.value).value := rfl

end Noted

end DeclGraph
