import AsmScope.Host.Error
import AsmScope.Path.Basic
import AsmScope.Table
import AsmScope.Text.Utf8
/-! # Files and directories

A tree of files, held as a table from locations to what stands there. A location is the list of
names from the root down. A path is resolved name by name: every name must be there, and every name
that another one or a slash follows must be a directory. -/

namespace AsmScope

/-- The names from the root down to a file or directory. -/
abbrev Location : Type := List Path.Name

/-- A file. -/
structure File where
  /-- What the file holds. -/
  content : Bytes
  /-- Whether the file can be executed. -/
  executable : Bool := false
  /-- Whether opening the file is refused. -/
  locked : Bool := false
  deriving DecidableEq, Repr

/-- What stands at a location. -/
inductive Node
  | file (file : File)
  | directory
  deriving DecidableEq, Repr

/-- All files and directories; the root is always a directory. -/
structure FileTree where
  /-- The files and the directories besides the root, by location. -/
  nodes : Table Location Node := []
  /-- The directories whose listing is refused. -/
  locked : List Location := []
  deriving Repr

namespace FileTree

/-- The location of an absolute path in normal form. -/
def locationOf (path : String) : Location := Path.Chars.plainNames path.toList

/-- What stands at a location. -/
def node? (tree : FileTree) (location : Location) : Option Node :=
  if location = [] then some .directory else tree.nodes.get? location

/-- Follows names from a directory on. -/
def walk (tree : FileTree) : Location → List Path.Name → Except Errno Location
  | here, [] => .ok here
  | here, name :: rest =>
    if name = [] ∨ name = ['.'] then walk tree here rest
    else if name = ['.', '.'] then walk tree here.dropLast rest
    else
      match tree.node? (here ++ [name]) with
      | none => .error .noEntry
      | some .directory => walk tree (here ++ [name]) rest
      | some (.file _) => if rest.isEmpty then .ok (here ++ [name]) else .error .notDirectory

/-- The location that a path leads to from a working directory. -/
def resolve (tree : FileTree) (directory path : String) : Except Errno Location :=
  if path.isEmpty then .error .noEntry
  else tree.walk [] (Text.cutAt '/' (Path.Chars.join directory.toList path.toList))

/-- Follows names from a directory on to where a file stands or can be created: the last name may be
missing. -/
def walkToFile (tree : FileTree) : Location → List Path.Name → Except Errno Location
  | here, [] => .ok here
  | here, name :: rest =>
    if name = [] ∨ name = ['.'] then walkToFile tree here rest
    else if name = ['.', '.'] then walkToFile tree here.dropLast rest
    else
      match tree.node? (here ++ [name]) with
      | none => if rest.isEmpty then .ok (here ++ [name]) else .error .noEntry
      | some .directory => walkToFile tree (here ++ [name]) rest
      | some (.file _) => if rest.isEmpty then .ok (here ++ [name]) else .error .notDirectory

/-- The location of the file that a path leads to, which may be missing. -/
def resolveFile (tree : FileTree) (directory path : String) : Except Errno Location :=
  if path.isEmpty then .error .noEntry
  else tree.walkToFile [] (Text.cutAt '/' (Path.Chars.join directory.toList path.toList))

/-- What a path leads to. -/
def at? (tree : FileTree) (directory path : String) : Option Node :=
  match tree.resolve directory path with
  | .ok location => tree.node? location
  | .error _ => none

/-- Whether a path leads to a directory. -/
def isDirectory (tree : FileTree) (directory path : String) : Bool :=
  tree.at? directory path == some .directory

/-- What the file that a path leads to holds. -/
def read (tree : FileTree) (directory path : String) : Except SystemError Bytes :=
  match tree.resolve directory path with
  | .error reason => .error ⟨reason, some path⟩
  | .ok location =>
    match tree.node? location with
    | none => .error ⟨.noEntry, some path⟩
    | some .directory => .error ⟨.isDirectory, some path⟩
    | some (.file file) =>
      if file.locked then .error ⟨.accessDenied, some path⟩ else .ok file.content

/-- The names in a directory. -/
def list (tree : FileTree) (directory path : String) : Except SystemError (List String) :=
  match tree.resolve directory path with
  | .error reason => .error ⟨reason, some path⟩
  | .ok location =>
    if tree.node? location ≠ some .directory then .error ⟨.notDirectory, some path⟩
    else if location ∈ tree.locked then .error ⟨.accessDenied, some path⟩
    else
      .ok (tree.nodes.keys.filterMap fun entry =>
        if entry.dropLast = location ∧ entry ≠ [] then entry.getLast?.map String.ofList else none)

/-- The directories above a location, from the root down. -/
def ancestors (location : Location) : List Location :=
  (List.range location.length).map location.take

/-- Makes a location a directory if nothing stands there. -/
def addDirectory (tree : FileTree) (location : Location) : FileTree :=
  if (tree.node? location).isSome then tree
  else { tree with nodes := tree.nodes.put location .directory }

/-- Adds directories that are missing. -/
def addDirectories (tree : FileTree) (locations : List Location) : FileTree :=
  locations.foldl addDirectory tree

/-- The tree with a file in the place of whatever stands at a location. -/
def putFile (tree : FileTree) (location : Location) (file : File) : FileTree :=
  { tree with nodes := tree.nodes.put location (.file file) }

/-- Puts a file at a location, with the directories above it. -/
def place (tree : FileTree) (location : Location) (file : File) : FileTree :=
  (tree.addDirectories (ancestors location)).putFile location file

/-- Takes away what stands at a location; the directory above it stays. -/
def remove (tree : FileTree) (location : Location) : FileTree :=
  { tree with nodes := tree.nodes.erase location }

/-- Follows names from a directory on, and creates each directory that is missing on the way. -/
def makeAlong : FileTree → Location → List Path.Name → Except Errno FileTree
  | tree, _, [] => .ok tree
  | tree, here, name :: rest =>
    if name = [] ∨ name = ['.'] then makeAlong tree here rest
    else if name = ['.', '.'] then makeAlong tree here.dropLast rest
    else
      match tree.node? (here ++ [name]) with
      | none => makeAlong (tree.addDirectory (here ++ [name])) (here ++ [name]) rest
      | some .directory => makeAlong tree (here ++ [name]) rest
      | some (.file _) => .error (if rest.isEmpty then .exists else .notDirectory)

/-- Creates the directory at a path with those above it; one that is there already is fine. -/
def makeDirectory (tree : FileTree) (directory path : String) : Except Errno FileTree :=
  tree.makeAlong [] (Text.cutAt '/' (Path.Chars.join directory.toList path.toList))

/-- Writes a text into the file at a path, which is created if it is missing. -/
def write (tree : FileTree) (directory path text : String) : Except SystemError FileTree :=
  match tree.resolveFile directory path with
  | .error reason => .error ⟨reason, some path⟩
  | .ok location =>
    match tree.node? location with
    | none => .ok (tree.putFile location { content := Utf8.encode text })
    | some .directory => .error ⟨.isDirectory, some path⟩
    | some (.file file) =>
      if file.locked then .error ⟨.accessDenied, some path⟩
      else .ok (tree.putFile location { file with content := Utf8.encode text })

end FileTree

end AsmScope
