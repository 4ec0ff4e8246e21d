import Lisplet.Text.Lines

/-!
# FileTree — files and directories under the working directory

A `FileTree` says which files and directories there are.  Paths are resolved part by part, as
usual: empty parts and `.` stay where they are, `..` goes up, and a path that starts with a slash
starts at a root of its own.  A part with a zero character names nothing.
-/

namespace Lisplet

/-- What is at a path. -/
inductive Node where
  | file (bytes : List UInt8)
  | directory
deriving DecidableEq, Repr

/-- Files and directories by their parts, the newest entry for a path first. -/
structure FileTree where
  nodes : List (List String × Node) := []
deriving DecidableEq, Repr

/-- Why an operation on files fails. -/
inductive FileFault where
  | exists
  | notDirectory
  | isDirectory
  | missing
  | invalid
  /-- The path has a zero character in it, so it is none. -/
  | noPath
deriving DecidableEq, Repr

/-- The wording of a failure. -/
def FileFault.text : FileFault → String
  | .exists => "File exists"
  | .notDirectory => "Not a directory"
  | .isDirectory => "Is a directory"
  | .missing => "No such file or directory"
  | .invalid => "Invalid argument"
  | .noPath => "embedded null byte"

namespace FileTree

/-- Where paths start: at the root, or in the working directory. -/
def start (path : String) : List String := if path.toList.head? = some '/' then ["/"] else []

/-- The parts of a path that lead somewhere. -/
def parts (path : String) : List String := (piecesAt '/' path.toList).map String.ofList

/-- Whether a part stays where it is. -/
def stays (part : String) : Bool := part.isEmpty || part == "."

/-- Whether a text has a zero character in it. -/
def hasZero (text : String) : Bool := text.toList.contains '\x00'

/-- What is at a place; the root, the working directory and those above it are directories. -/
def node? (t : FileTree) (place : List String) : Option Node :=
  if place = ["/"] ∨ place.all (· == "..") then some .directory else t.nodes.lookup place

/-- The place above a place; the root has none above it, and the working directory has those of
the files outside. -/
def above (place : List String) : List String :=
  if place = ["/"] then place
  else if place.all (· == "..") then ".." :: place
  else place.dropLast

/-- The tree with something put at a place. -/
def put (t : FileTree) (place : List String) (node : Node) : FileTree :=
  ⟨(place, node) :: t.nodes.filter (·.1 ≠ place)⟩

/-! ## Finding -/

/-- Where a path leads. -/
inductive Place where
  /-- To a file or a directory. -/
  | found (place : List String) (node : Node)
  /-- To nothing, in a directory that exists. -/
  | vacant (place : List String)
  /-- Through something that does not exist. -/
  | nowhere
  /-- Through a file. -/
  | blocked

/-- Follows the parts of a path from a directory. -/
def follow (t : FileTree) (here : List String) : List String → Place
  | [] => .found here .directory
  | part :: rest =>
    if stays part then t.follow here rest
    else if part == ".." then t.follow (above here) rest
    else
      let there := here ++ [part]
      match t.node? there with
      | some .directory => t.follow there rest
      | some (.file bytes) => if rest.isEmpty then .found there (.file bytes) else .blocked
      | none => if rest.isEmpty then .vacant there else .nowhere

/-- **Where a path leads.**  The empty path leads nowhere. -/
def find (t : FileTree) (path : String) : Place :=
  if path.isEmpty then .nowhere else t.follow (start path) (parts path)

/-- The bytes of the file at a path. -/
def read? (t : FileTree) (path : String) : Option (List UInt8) :=
  match t.find path with
  | .found _ (.file bytes) => some bytes
  | _ => none

/-! ## Changing -/

/-- What a file in the way of directories comes to, with these parts of the path to come.  Where
directories had to be made before it, a file counts as made as well, and what fails is to make the
next directory inside it; a dot makes none. -/
def inTheWay (made : Bool) (rest : List String) : Option FileFault :=
  let rest := rest.filter (!·.isEmpty)
  if rest.isEmpty then some .exists
  else match if made then rest.dropWhile (· == ".") else rest with
    | [] => none
    | next :: _ => some (if hasZero next then .noPath else .notDirectory)

/-- Makes the directories that a path leads through, from a directory on, and says what stopped it
if anything did; `made` tells whether some had to be made before. -/
def makeFrom (t : FileTree) (made : Bool) (here : List String) :
    List String → FileTree × Option FileFault
  | [] => (t, none)
  | part :: rest =>
    if stays part then t.makeFrom made here rest
    else if part == ".." then t.makeFrom made (above here) rest
    else if hasZero part then (t, some .noPath)
    else
      let there := here ++ [part]
      match t.node? there with
      | some .directory => t.makeFrom made there rest
      | some (.file _) => (t, inTheWay made rest)
      | none => (t.put there .directory).makeFrom true there rest

/-- **Makes a directory and all directories above it** that do not exist yet.  Those made before
something stops it remain. -/
def makeDirectories (t : FileTree) (path : String) : FileTree × Option FileFault :=
  t.makeFrom false (start path) (parts path)

/-- **Writes a file**, in place of one that is there. -/
def write (t : FileTree) (path : String) (bytes : List UInt8) : FileTree × Option FileFault :=
  if hasZero path then (t, some .noPath)
  else match t.find path with
    | .found place (.file _) | .vacant place => (t.put place (.file bytes), none)
    | .found _ .directory => (t, some .isDirectory)
    | .nowhere => (t, some .missing)
    | .blocked => (t, some .notDirectory)

/-- Whether a place is under the working directory. -/
def isInside (place : List String) : Bool :=
  match place with
  | [] => false
  | first :: _ => first != "/" && first != ".."

/-- **The paths of all files under the working directory**, in order. -/
def paths (t : FileTree) : List String :=
  (t.nodes.filterMap fun (place, node) =>
    match node with
    | .file _ => if isInside place then some ("/".intercalate place) else none
    | .directory => none).mergeSort fun a b => decide (a ≤ b)

/-! ## Paths as texts -/

/-- The path of an entry in a directory; no slash is doubled, and a path that starts with a slash
stands alone. -/
def join (directory entry : String) : String :=
  if entry.toList.head? = some '/' then entry
  else if directory.isEmpty || directory.toList.getLast? = some '/' then directory ++ entry
  else directory ++ "/" ++ entry

/-- The path of the directory that a path is in, empty for a path of one part. -/
def directoryOf (path : String) : String :=
  let rest := path.toList.reverse.dropWhile (· ≠ '/')
  let trimmed := rest.dropWhile (· = '/')
  String.ofList (if trimmed.isEmpty then rest else trimmed).reverse

/-- The tree with a file or a directory at a path and the directories above it. -/
def lay (t : FileTree) (path : String) : Node → FileTree
  | .file bytes => ((t.makeDirectories (directoryOf path)).1.write path bytes).1
  | .directory => (t.makeDirectories path).1

end FileTree

end Lisplet
