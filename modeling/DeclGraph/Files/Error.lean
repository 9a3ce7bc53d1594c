/-!
# Why a file cannot be used
-/

namespace DeclGraph

/-- Why the system refuses to open a file, with the number under which the system knows it. -/
structure FileError where
  reason : String
  code : Nat
  deriving DecidableEq, Repr

namespace FileError

/-- There is no such file, or no such directory on the way to it. -/
def notFound : FileError := ⟨"No such file or directory", 2⟩

/-- A file stands where a directory is needed. -/
def notDirectory : FileError := ⟨"Not a directory", 20⟩

/-- A directory stands where a file is needed. -/
def isDirectory : FileError := ⟨"Is a directory", 21⟩

/-- Whether a reader meets the error only after it has opened the file, as happens with a
directory. -/
def isOnReading (e : FileError) : Bool := e.code == isDirectory.code

/-- The error as it is reported. -/
def message (e : FileError) : String := e.reason ++ " (os error " ++ toString e.code ++ ")"

end FileError

end DeclGraph
