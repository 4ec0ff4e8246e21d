import Lisplet.FileTree

/-!
# History — the lines typed before

The line history lasts from one interactive run to the next in a file of its own, one line for each
entry.  Entries are kept as the bytes of the file, so that text which is not well formed survives.
-/

namespace Lisplet

/-- The entries of a line history, the oldest first. -/
structure History where
  entries : List (List UInt8) := []
deriving DecidableEq, Repr

namespace History

/-- The history with a line entered at its end; a line with a zero character in it is refused. -/
def enter? (h : History) (line : String) : Option History :=
  if FileTree.hasZero line then none else some ⟨h.entries ++ [line.toUTF8.toList]⟩

/-- The line feed. -/
def lineFeed : UInt8 := 10

/-- The carriage return. -/
def carriageReturn : UInt8 := 13

/-- A line of the file as an entry: a carriage return at its end goes, and a zero byte ends it. -/
def entryOf (line : List UInt8) : List UInt8 :=
  (if line.getLast? = some carriageReturn then line.dropLast else line).takeWhile (· ≠ 0)

/-- Whether a line of the file starts like a time stamp: a hash sign and a digit. -/
def startsTimeStamp : List UInt8 → Bool
  | 35 :: digit :: _ => 48 ≤ digit && digit ≤ 57
  | _ => false

/-- **The entries in the bytes of a file.**  Empty lines are no entries, and neither is what stands
after the last line feed.  In a file that starts with a time stamp no time stamp is an entry. -/
def entriesOf (bytes : List UInt8) : List (List UInt8) :=
  let lines := ((piecesAt lineFeed bytes).dropLast.map entryOf).filter (!·.isEmpty)
  if startsTimeStamp bytes then lines.filter (!startsTimeStamp ·) else lines

/-- How many lines the file keeps. -/
def fileSize : Nat := 9000

/-- The last lines of those that a file could keep.  A single line too many stays if it is empty. -/
def lastLines (lines : List (List UInt8)) : List (List UInt8) :=
  let extra := lines.length - fileSize
  if extra = 1 ∧ lines.head? = some [] then lines else lines.drop extra

/-- **The bytes that keep a history**: its last lines, each with its line feed. -/
def bytes (h : History) : List UInt8 :=
  let lines := (piecesAt lineFeed (h.entries.flatMap (· ++ [lineFeed]))).dropLast
  (lastLines lines).flatMap (· ++ [lineFeed])

/-! ## Loading and saving -/

/-- What loading comes to. -/
inductive Loading where
  /-- There is no file. -/
  | absent
  /-- The entries of the file are added. -/
  | loaded (h : History)
  /-- The file cannot be read. -/
  | failed (fault : FileFault)

/-- **Adds the entries of the file at a path**, if there is one. -/
def load (h : History) (files : FileTree) (path : String) : Loading :=
  if FileTree.hasZero path then .absent
  else match files.find path with
    | .found _ (.file bytes) => .loaded ⟨h.entries ++ entriesOf bytes⟩
    | .found _ .directory => .failed .invalid
    | _ => .absent

/-- **Writes the history to the file at a path**, making the directories above it, and says what
stopped it if anything did. -/
def save (h : History) (files : FileTree) (path : String) : FileTree × Option FileFault :=
  match files.makeDirectories (FileTree.directoryOf path) with
  | (files, some fault) => (files, some fault)
  | (files, none) => files.write path h.bytes

/-! ## Where the file is -/

/-- What the surroundings say about the place of the file. -/
structure Surroundings where
  /-- The path of the file itself. -/
  file : Option String := none
  /-- The directory for files that can be made again. -/
  cache : Option String := none
  /-- The home directory. -/
  home : String

/-- A home directory without the slashes at its end; the root keeps one. -/
def homeDirectory (home : String) : String :=
  let trimmed := (home.toList.reverse.dropWhile (· = '/')).reverse
  if trimmed.isEmpty then "/" else String.ofList trimmed

/-- A text that is there and not empty. -/
def nonEmpty (text : Option String) : Option String := text.filter (!·.isEmpty)

/-- **The path of the history file**: the one that the surroundings name, else a file in the
program's directory below the cache directory, which is by default one in the home directory. -/
def path (s : Surroundings) : String :=
  match nonEmpty s.file with
  | some file => file
  | none =>
    let cache := (nonEmpty s.cache).getD (FileTree.join (homeDirectory s.home) ".cache")
    FileTree.join (FileTree.join cache "rlisp") "rlisp_history"

end History

end Lisplet
