import DeclGraph.Files.Error
import DeclGraph.Files.Path
import DeclGraph.Table

/-!
# A tree of files

Text files below one directory, as a value. A directory is there as long as a file is below it.
One path outside the tree is known: that of the device that takes everything and holds nothing.

* `FileTree.locate`: what a path leads to.
* `FileTree.read`, `FileTree.write`, `FileTree.extend`: the operations on files.
-/

namespace DeclGraph

/-- Texts of files by the names that lead to them. -/
structure FileTree where
  files : Table (List String) String := {}
  deriving DecidableEq, Repr

/-- What a path leads to. -/
inductive Place
  | file (names : List String) (text : String)
  | directory
  /-- No file yet, in a directory that is there. -/
  | free (names : List String)
  /-- No directory, in a directory that is there. -/
  | freeDirectory
  | device
  deriving DecidableEq, Repr

namespace FileTree

/-- The tree of files with the given paths and texts. -/
def ofList (files : List (String × String)) : FileTree :=
  ⟨Table.ofPairs (files.map fun (path, text) => ((Path.pieces path).filter Path.isName, text))⟩

/-- The paths of the files with their texts. -/
def toList (t : FileTree) : List (String × String) :=
  t.files.entries.map fun (names, text) => (Text.joinStrings "/" names, text)

variable (t : FileTree)

/-- Whether `names` lead to a directory. -/
def isDirectory (names : List String) : Bool :=
  names.isEmpty || t.files.keys.any fun k => names.isPrefixOf k && names.length < k.length

/-- Follows the pieces of a path from the directory `here`. -/
def follow (here : List String) : List String → Except FileError Place
  | [] => .ok .directory
  | piece :: rest =>
    if !Path.isName piece then follow here rest
    else if piece = ".." then
      if here.isEmpty then .error .notFound else follow here.dropLast rest
    else
      let names := here ++ [piece]
      if t.isDirectory names then follow names rest
      else match t.files.find? names with
        | some text => if rest.isEmpty then .ok (.file names text) else .error .notDirectory
        | none =>
          if rest.isEmpty then .ok (.free names)
          else if rest.all (· = "") then .ok .freeDirectory
          else .error .notFound

/-- What a path leads to. -/
def locate (path : String) : Except FileError Place :=
  if Path.same path "/dev/null" then .ok .device
  else if Path.isAbsolute path then .error .notFound
  else t.follow [] (Path.pieces path)

/-- The text of a file. -/
def read (path : String) : Except FileError String := do
  match ← t.locate path with
  | .file _ text => return text
  | .device => return ""
  | .directory => throw .isDirectory
  | .free _ | .freeDirectory => throw .notFound

/-- The tree after the text of a file has been changed, where a new file starts out empty. -/
def edit (path : String) (change : String → String) : Except FileError FileTree := do
  match ← t.locate path with
  | .file names text => return ⟨t.files.insert names (change text)⟩
  | .free names => return ⟨t.files.insert names (change "")⟩
  | .device => return t
  | .directory | .freeDirectory => throw .isDirectory

/-- The tree after `text` has been written to a file in place of what was there. -/
def write (path text : String) : Except FileError FileTree := t.edit path fun _ => text

/-- The tree after `text` has been added to the end of a file. -/
def extend (path text : String) : Except FileError FileTree := t.edit path (· ++ text)

end FileTree

end DeclGraph
