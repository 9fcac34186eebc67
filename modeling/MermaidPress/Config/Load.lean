/-
Loading a configuration: from the file that is named, or else from the nearest one above
the current directory, or else from the defaults. The fields of the command line come
before those of the file, and only what comes out of both is validated.
-/
import MermaidPress.Config.File

namespace MermaidPress.Config

/-- The name of configuration files. -/
def fileName : Text := "mermshot.toml".toList

/-- The nearest configuration file in a directory or above it. -/
def discover? (fs : FileSystem) (start : Path) : Option Path :=
  ((Path.ancestors start).map fun directory => Path.join directory fileName).find? fs.has

/-- The configuration in a file, before any checks. -/
def ofFile (fs : FileSystem) (env : Environment) (path : Path) : Except ConfigError Config :=
  match fs.readText path with
  | .error cause => .error (.unreadable cause)
  | .ok document => do
    let file ← ConfigFile.ofText document
    let expanded ← file.expand env
    let base := (Path.parent? path).getD ['.']
    .ok { expanded.resolve base with path := some path }

/-- The configuration to begin with. A file that is named has to be there. -/
def source (fs : FileSystem) (env : Environment) : Option Path → Except ConfigError Config
  | some path => if fs.has path then ofFile fs env path else .error (.notFound path)
  | none =>
    match discover? fs fs.current with
    | some path => ofFile fs env path
    | none => .ok (standard fs.current)

/-- Loads a configuration. -/
def load (fs : FileSystem) (env : Environment) (path : Option Path) (overrides : Overrides) :
    Except ConfigError Config := do
  let config ← source fs env path
  (config.override overrides).validate

end MermaidPress.Config
