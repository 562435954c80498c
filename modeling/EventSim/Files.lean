set_option autoImplicit false

/-!
# Files

The few things that programs here do with files, over an abstract file system: reading a file, creating
folders, and creating and writing files. `FileTree` is a file system held in memory; it follows the rules
of a POSIX system for paths that pass through files, or that name a folder where a file is meant.

## Main definitions

* `EventSim.FileError` — why an operation is refused.
* `EventSim.FileSystem` — the operations.
* `EventSim.FileTree` — files in memory.
-/

namespace EventSim

/-- Why an operation on files is refused. -/
inductive FileError where
  /-- There is nothing under this path. -/
  | notFound
  /-- There is something under this path already. -/
  | alreadyExists
  /-- The path leads through something that is not a folder. -/
  | notFolder
  /-- There is a folder where a file is meant. -/
  | isFolder
  /-- The path or a name on it is too long. -/
  | nameTooLong
  /-- The path holds the character of code zero. -/
  | badPath
  /-- Something else, in the words of the system. -/
  | other (text : String)
  deriving DecidableEq, Repr

/-- What the user is told. -/
def FileError.message : FileError → String
  | .notFound => "No such file or directory (os error 2)"
  | .alreadyExists => "File exists (os error 17)"
  | .notFolder => "Not a directory (os error 20)"
  | .isFolder => "Is a directory (os error 21)"
  | .nameTooLong => "File name too long (os error 36)"
  | .badPath => "file name contained an unexpected NUL byte"
  | .other text => text

/-- A file system whose operations are actions in `m`. -/
class FileSystem (m : Type → Type) where
  /-- Checks that there is something to read under a path; this may be a folder. -/
  probe : String → m (Except FileError Unit)
  /-- The contents of a file. -/
  read : String → m (Except FileError (List UInt8))
  /-- Creates a folder and the folders above it, as far as they are missing. -/
  createFolders : String → m (Except FileError Unit)
  /-- Creates a file, or empties it. -/
  create : String → m (Except FileError Unit)
  /-- Replaces the contents of a file. -/
  write : String → String → m (Except FileError Unit)

/-- What a path of a file tree leads to. -/
inductive FileNode where
  /-- A file with its contents. -/
  | file (contents : List UInt8)
  /-- A folder. -/
  | folder
  deriving DecidableEq, Repr

/-- Files in memory: what is found under each path, given by its names from the root on. The root is
always a folder. -/
structure FileTree where
  /-- Paths and what they lead to, latest first. -/
  nodes : List (List String × FileNode) := []
  /-- The folder in which the paths begin that do not begin at the root. -/
  home : List String := []
  deriving Repr

namespace FileTree

/-! ### Paths -/

/-- The names on a path. Empty names stand for nothing. -/
def names (path : String) : List String := (path.splitOn "/").filter (· ≠ "")

/-- The names of a path's folder and of the folders above it, the longest first. The path itself is taken as
it is written; above it, names that stay in place are left out. -/
def ancestors (path : String) : List (List String) :=
  let ns := (names path).filter (· ≠ ".")
  names path :: (List.range (ns.length - 1)).reverse.map fun k => ns.take (k + 1)

/-- The greatest number of bytes in a name. -/
def maxName : Nat := 255

/-- The greatest number of bytes in a path. -/
def maxPath : Nat := 4095

/-- Checks that a path can be handed to the system. -/
def checkPath (path : String) : Except FileError Unit :=
  if path.contains '\x00' then .error .badPath
  else if maxPath < path.utf8ByteSize then .error .nameTooLong
  else .ok ()

/-- Where a path begins. -/
def origin (t : FileTree) (path : String) : List String := if path.startsWith "/" then [] else t.home

/-! ### Places -/

/-- What is under some names. -/
def node? (t : FileTree) : List String → Option FileNode
  | [] => some .folder
  | ns => t.nodes.lookup ns

/-- Puts something under some names. -/
def put (t : FileTree) (ns : List String) (n : FileNode) : FileTree :=
  { t with nodes := (ns, n) :: t.nodes.filter (·.1 ≠ ns) }

/-- Puts folders under some names and above them, where there is nothing yet. -/
def addFolder (t : FileTree) (ns : List String) : FileTree :=
  (List.range (ns.length + 1)).foldl
    (fun t k => if (t.node? (ns.take k)).isSome then t else t.put (ns.take k) .folder) t

/-- Puts a file under a path, and folders above it where there is nothing yet. -/
def addFile (t : FileTree) (path : String) (contents : List UInt8) : FileTree :=
  let ns := t.origin path ++ names path
  (t.addFolder ns.dropLast).put ns (.file contents)

/-- A tree with one folder, in which paths begin. -/
def startingIn (path : String) : FileTree := ({ home := names path } : FileTree).addFolder (names path)

/-- Follows names from a place. Only folders can be passed through; the last name may lead to nothing.
The name `.` stays, and `..` goes up. -/
def follow (t : FileTree) (place : List String) : List String → Except FileError (List String)
  | [] => .ok place
  | n :: ns =>
    match t.node? place with
    | none => .error .notFound
    | some (.file _) => .error .notFolder
    | some .folder =>
      if maxName < n.utf8ByteSize then .error .nameTooLong
      else follow t (if n = "." then place else if n = ".." then place.dropLast else place ++ [n]) ns

/-- The place that a path leads to. A path that ends with a slash is meant to lead to a folder. -/
def locate (t : FileTree) (path : String) : Except FileError (List String) := do
  checkPath path
  if path.isEmpty then throw .notFound
  t.follow (t.origin path) (names path ++ if path.endsWith "/" then ["."] else [])

/-- What a path leads to. -/
def find (t : FileTree) (path : String) : Except FileError FileNode := do
  match t.node? (← t.locate path) with
  | some n => return n
  | none => throw .notFound

/-! ### Operations -/

/-- The contents of a file. -/
def read (t : FileTree) (path : String) : Except FileError (List UInt8) := do
  match ← t.find path with
  | .file contents => return contents
  | .folder => throw .isFolder

/-- Creates one folder, given by its names from a place on. -/
def createFolder (t : FileTree) (place ns : List String) : Except FileError FileTree := do
  let place ← t.follow place ns
  match t.node? place with
  | some _ => throw .alreadyExists
  | none => return t.put place .folder

/-- Creates one folder, unless the names lead to a folder already. -/
def ensureFolder (t : FileTree) (place ns : List String) : Except FileError FileTree :=
  match t.createFolder place ns with
  | .ok t => .ok t
  | .error e =>
    match (t.follow place ns).toOption.bind t.node? with
    | some .folder => .ok t
    | _ => .error e

/-- Creates the first of some folders. The others are created before it, in the same way, if it cannot be
created without them. -/
def ensureFolders (t : FileTree) (place : List String) : List (List String) → Except FileError FileTree
  | [] => .ok t
  | ns :: above =>
    match t.ensureFolder place ns with
    | .error .notFound => do (← ensureFolders t place above).ensureFolder place ns
    | reply => reply

/-- Creates a folder and the folders above it, as far as they are missing. -/
def createFolders (t : FileTree) (path : String) : Except FileError FileTree := do
  checkPath path
  if path.isEmpty then return t
  t.ensureFolders (t.origin path) (ancestors path)

/-- Puts contents into a file, which is created if it is missing. -/
def write (t : FileTree) (path : String) (contents : List UInt8) : Except FileError FileTree := do
  let place ← t.locate path
  match t.node? place with
  | some .folder => throw .isFolder
  | _ => return t.put place (.file contents)

/-- Carries out a change, which is dropped if it is refused. -/
def attempt (f : FileTree → Except FileError FileTree) : StateM FileTree (Except FileError Unit) := do
  match f (← get) with
  | .ok t =>
    MonadStateOf.set t
    return .ok ()
  | .error e => return .error e

instance : FileSystem (StateM FileTree) where
  probe path := do return discard ((← get).find path)
  read path := do return (← get).read path
  createFolders path := attempt (·.createFolders path)
  create path := attempt (·.write path [])
  write path text := attempt (·.write path text.toUTF8.toList)

end FileTree

end EventSim
