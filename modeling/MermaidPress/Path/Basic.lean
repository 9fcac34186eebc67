/-
Paths as texts. A path is a sequence of components between strokes: the root, `.` at the
very front, `..`, and names. Empty components and any other `.` stand for nothing. Cutting
a path short keeps its spelling: the parent of `a//b/./c` is `a//b`.
-/
import MermaidPress.Text.Basic

namespace MermaidPress

/-- A path, as it is spelled. -/
abbrev Path := Text

namespace Path

/-- A component of a path. -/
inductive Component
  | root
  | current
  | parent
  | name (name : Text)
  deriving DecidableEq, Repr

/-- The spelling of a component. -/
def Component.text : Component → Text
  | root => ['/']
  | current => ['.']
  | parent => ['.', '.']
  | .name piece => piece

/-- A component of a path and the number of characters of the path up to its end. -/
structure Step where
  component : Component
  stop : Nat
  deriving DecidableEq, Repr

/-- The component that a piece between two strokes stands for; behind the front of a path
an empty piece and `.` stand for none. -/
def componentOf? : Text → Option Component
  | [] => none
  | ['.'] => none
  | ['.', '.'] => some .parent
  | piece => some (.name piece)

/-- The pieces between strokes, each with the number of characters up to its end; `before`
holds the characters of the current piece, `position` counts all so far. -/
def pieces (before : Text) (position : Nat) : Text → List (Text × Nat)
  | [] => [(before, position)]
  | c :: t =>
    if c = '/' then (before, position) :: pieces [] (position + 1) t
    else pieces (before ++ [c]) (position + 1) t

/-- Whether the path begins at the root. -/
def isAbsolute (path : Path) : Bool := path.head? == some '/'

/-- Whether the path begins with the component `.`. -/
def beginsAtCurrent : Path → Bool
  | ['.'] => true
  | '.' :: '/' :: _ => true
  | _ => false

/-- The first component, where it is one that only a front can have. -/
def front (path : Path) : List Step :=
  if isAbsolute path then [⟨.root, 1⟩]
  else if beginsAtCurrent path then [⟨.current, 1⟩]
  else []

/-- The components of a path with their places. -/
def steps (path : Path) : List Step :=
  front path ++ (pieces [] 0 path).filterMap fun (piece, stop) =>
    (componentOf? piece).map fun component => ⟨component, stop⟩

/-- The components of a path. -/
def components (path : Path) : List Component := (steps path).map Step.component

/-- The path, its parent, the parent of that, and so on, as far as there are parents: an
absolute path ends at the root and a relative one at the empty path. -/
def ancestors (path : Path) : List Path :=
  match (steps path).reverse with
  | [] => [path]
  | _ :: earlier =>
    path :: earlier.map (fun step => path.take step.stop) ++
      (if isAbsolute path then [] else [[]])

/-- The path without its last component; none for the root and the empty path. -/
def parent? (path : Path) : Option Path := (ancestors path)[1]?

/-- The last component, where it is a name. -/
def fileName? (path : Path) : Option Text :=
  match (components path).getLast? with
  | some (.name name) => some name
  | _ => none

/-- A file name cut at its last point. A point at the very front does not count. -/
def splitExtension (name : Text) : Text × Option Text :=
  match Text.upTo? '.' name.reverse with
  | some (extension, stem@(_ :: _)) => (stem.reverse, some extension.reverse)
  | _ => (name, none)

/-- The file name without its extension. -/
def fileStem? (path : Path) : Option Text :=
  (fileName? path).map fun name => (splitExtension name).1

/-- What follows the last point of the file name. -/
def extension? (path : Path) : Option Text :=
  (fileName? path).bind fun name => (splitExtension name).2

/-- The path `next` as seen from the directory `base`: an absolute path stays, any other is
put behind a stroke. -/
def join (base next : Path) : Path :=
  if isAbsolute next then next
  else if base.isEmpty || base.getLast? == some '/' then base ++ next
  else base ++ '/' :: next

/-- The path without its last component, and the path itself where it has no parent. -/
def pop (path : Path) : Path := (parent? path).getD path

/-- The path that begins at the root, seen from the directory `current`. Components that
stand for nothing go, `..` stays, and so does a stroke at the end; two strokes at the front
are kept, any other number becomes one. There is none for the empty path. -/
def absolute? (current path : Path) : Option Path :=
  if path.isEmpty then none
  else
    let kept := (components path).filter (· ≠ .current)
    let start : Path × List Component :=
      if !isAbsolute path then (current, kept)
      else if path.take 2 = ['/', '/'] && path.take 3 ≠ ['/', '/', '/'] then
        (['/', '/'], kept.drop 1)
      else ([], kept)
    let whole := start.2.foldl (fun sofar component => join sofar component.text) start.1
    some (if path.getLast? = some '/' then join whole [] else whole)

/-- The path without `.` and `..`, each `..` taking back the component before it. -/
def normalize (path : Path) : Path :=
  (components path).foldl (fun sofar component =>
    match component with
    | .current => sofar
    | .parent => pop sofar
    | _ => join sofar component.text) []

end Path
end MermaidPress
