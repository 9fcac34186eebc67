/-
A file system without links, as a value: the directories and files by their location, and
the current directory. A location is the list of names from the root; `locate` follows a
path to one, and asks on the way that each directory is there and each name is short enough.
The operations answer with the error that the first obstacle gives. Making directories is
the one operation that may have changed something before it fails, so its answer is an
`Outcome`, which says what the files are like in either case.
-/
import MermaidPress.Path.Relative

namespace MermaidPress

/-- A place in a file system: the names from the root on. -/
abbrev Location := List Text

namespace FileSystem

/-- Why an operation on files fails. -/
inductive Error
  | notFound
  | permissionDenied
  | alreadyExists
  | notADirectory
  | isADirectory
  | nameTooLong
  | nulInPath
  | notUtf8
  /-- An absolute path was asked for where there is no path. -/
  | emptyPath
  /-- Any other failure, in its own words. -/
  | other (text : Text)
  deriving DecidableEq, Repr

/-- The wording of an error. -/
def Error.message : Error → String
  | notFound => "No such file or directory (os error 2)"
  | permissionDenied => "Permission denied (os error 13)"
  | alreadyExists => "File exists (os error 17)"
  | notADirectory => "Not a directory (os error 20)"
  | isADirectory => "Is a directory (os error 21)"
  | nameTooLong => "File name too long (os error 36)"
  | nulInPath => "file name contained an unexpected NUL byte"
  | notUtf8 => "stream did not contain valid UTF-8"
  | emptyPath => "cannot make an empty path absolute"
  | other text => String.ofList text

/-- What is at a location. -/
inductive Node
  | file (bytes : ByteArray)
  | directory

/-- Files are the same where their bytes are. -/
instance : DecidableEq Node
  | .directory, .directory => isTrue rfl
  | .directory, .file _ => isFalse nofun
  | .file _, .directory => isFalse nofun
  | .file a, .file b =>
    if h : a.data = b.data then isTrue (congrArg Node.file (ByteArray.ext h))
    else isFalse fun heq => h (congrArg ByteArray.data (Node.file.inj heq))

end FileSystem

/-- Files and directories, seen from a current directory. The root is always there. -/
structure FileSystem where
  /-- The path of the current directory. -/
  current : Path
  nodes : List (Location × FileSystem.Node)

namespace FileSystem

/-- The longest name of a file or directory, in bytes. -/
def longestName : Nat := 255

/-- Paths are shorter than this, in bytes. -/
def pathLimit : Nat := 4096

/-- What is at a location, if anything. -/
def find? (fs : FileSystem) (location : Location) : Option Node :=
  if location = [] then some .directory
  else (fs.nodes.find? fun entry => entry.1 = location).map (·.2)

/-- Puts a node at a location, in the place of what is there. -/
def put (fs : FileSystem) (location : Location) (node : Node) : FileSystem :=
  if fs.nodes.any fun entry => entry.1 = location then
    { fs with nodes := fs.nodes.map fun entry =>
        if entry.1 = location then (location, node) else entry }
  else { fs with nodes := fs.nodes ++ [(location, node)] }

/-- Where a path leads. -/
inductive Target
  /-- Something is there. -/
  | existing (location : Location) (node : Node)
  /-- Nothing is there, but the directory that it would be in is. -/
  | vacant (location : Location)
  deriving DecidableEq

/-- Follows the pieces of a path from a directory. -/
def walk (fs : FileSystem) (directory : Location) : List Text → Except Error Target
  | [] => .ok (.existing directory .directory)
  | piece :: rest =>
    if piece = [] || piece = ['.'] then walk fs directory rest
    else if piece = ['.', '.'] then walk fs directory.dropLast rest
    else if longestName < Text.byteLength piece then .error .nameTooLong
    else
      let location := directory ++ [piece]
      let isLast := rest.all (· = [])
      match fs.find? location with
      | some .directory => walk fs location rest
      | some node => if isLast then .ok (.existing location node) else .error .notADirectory
      | none => if isLast then .ok (.vacant location) else .error .notFound

/-- The pieces of a path between strokes. -/
def pieces (path : Path) : List Text := (Path.pieces [] 0 path).map (·.1)

/-- The location that a path names without `..` and without looking. -/
def nominal (path : Path) : Location :=
  (pieces path).filter fun piece => piece ≠ [] && piece ≠ ['.']

/-- Follows a path, from the root or from the current directory. -/
def locate (fs : FileSystem) (path : Path) : Except Error Target :=
  if path.contains '\x00' then .error .nulInPath
  else if path = [] then .error .notFound
  else if pathLimit ≤ Text.byteLength path then .error .nameTooLong
  else fs.walk (if Path.isAbsolute path then [] else nominal fs.current) (pieces path)

/-- Whether a path ends in a stroke, so that only a directory can be meant. -/
def asksForDirectory (path : Path) : Bool := path.getLast? = some '/'

/-- What is at a path. -/
def stat (fs : FileSystem) (path : Path) : Except Error Node := do
  match ← fs.locate path with
  | .existing _ .directory => .ok .directory
  | .existing _ node => if asksForDirectory path then .error .notADirectory else .ok node
  | .vacant _ => .error .notFound

/-- Whether anything is at a path. -/
def has (fs : FileSystem) (path : Path) : Bool := (fs.stat path).isOk

/-- Whether a directory is at a path. -/
def hasDirectory (fs : FileSystem) (path : Path) : Bool :=
  match fs.stat path with
  | .ok .directory => true
  | _ => false

/-- The bytes of the file at a path. -/
def readBytes (fs : FileSystem) (path : Path) : Except Error ByteArray := do
  match ← fs.stat path with
  | .file bytes => .ok bytes
  | .directory => .error .isADirectory

/-- The text of the file at a path. -/
def readText (fs : FileSystem) (path : Path) : Except Error Text := do
  match String.fromUTF8? (← fs.readBytes path) with
  | some text => .ok text.toList
  | none => .error .notUtf8

/-- Writes a file, in the place of a file that is there. -/
def writeBytes (fs : FileSystem) (path : Path) (bytes : ByteArray) : Except Error FileSystem := do
  match ← fs.locate path with
  | .existing _ .directory => .error .isADirectory
  | .existing location (.file _) | .vacant location =>
    if asksForDirectory path then .error .isADirectory
    else .ok (fs.put location (.file bytes))

/-- Writes a text file. -/
def writeText (fs : FileSystem) (path : Path) (text : Text) : Except Error FileSystem :=
  fs.writeBytes path (String.ofList text).toUTF8

/-- Makes one directory. -/
def makeDirectory (fs : FileSystem) (path : Path) : Except Error FileSystem := do
  match ← fs.locate path with
  | .existing _ _ => .error .alreadyExists
  | .vacant location => .ok (fs.put location .directory)

/-- What an operation comes to: whether it fails, and the files as they are afterwards. -/
abbrev Outcome := Except Error Unit × FileSystem

/-- The outcome of an operation that changes nothing where it fails. -/
def whole (fs : FileSystem) : Except Error FileSystem → Outcome
  | .ok changed => (.ok (), changed)
  | .error e => (.error e, fs)

/-- Makes one directory. One that is there already is as good as a new one. -/
def ensureDirectory (fs : FileSystem) (path : Path) : Outcome :=
  match fs.makeDirectory path with
  | .ok made => (.ok (), made)
  | .error e => (if fs.hasDirectory path then .ok () else .error e, fs)

/-- Makes a directory after the ones that it is to be in, given its path and the paths above
it. Where it fails, the directories made before remain. -/
def makeChain (fs : FileSystem) : List Path → Outcome
  | [] => (.ok (), fs)
  | path :: above =>
    if path = [] then (.ok (), fs)
    else
      match fs.makeDirectory path with
      | .error .notFound =>
        match fs.makeChain above with
        | (.ok (), made) => made.ensureDirectory path
        | failed => failed
      | _ => fs.ensureDirectory path

/-- Makes a directory and all that are missing above it. -/
def makeDirectories (fs : FileSystem) (path : Path) : Outcome :=
  fs.makeChain (Path.ancestors path)

/-- What is below a location, by the path from there; the path of a directory ends in a
stroke. The order is that of the paths. -/
def listing (fs : FileSystem) (top : Location) : List (Path × Node) :=
  let below := fs.nodes.filterMap fun (location, node) =>
    match top.isPrefixOf? location with
    | none | some [] => none
    | some rest =>
      let path := Path.joinWith '/' rest
      some (match node with
        | .directory => (path ++ ['/'], node)
        | .file _ => (path, node))
  below.mergeSort fun a b => !decide (b.1 < a.1)

end FileSystem
end MermaidPress
