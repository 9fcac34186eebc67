/-
Configuration files. A file has three sections, each of which may be given as a table or as
an array of its fields in their order; a date or a time is a section without fields. Fields
that are missing are left to defaults. What else a table holds is passed over, as long as it
has a meaning; what follows the fields in an array is not even looked at.
-/
import MermaidPress.Config.Basic
import MermaidPress.Config.Expansion
import MermaidPress.Toml.Document

namespace MermaidPress

/-- What a configuration file says, as it is spelled there. -/
structure ConfigFile where
  directory : Option Text := none
  format : Option Text := none
  quality : Option UInt8 := none
  scale : Option Float := none
  script : Option Text := none
  limits : TimeLimits := {}

namespace ConfigFile

open Toml (Value Entries)

/-- The least whole number of 64 bits with a sign. -/
def leastSigned : Int := -(Nat.pow 2 63)

/-- The largest whole number of 64 bits. -/
def largestUnsigned : Int := Nat.pow 2 64 - 1

/-- A text. -/
def text? : Value → Option Text
  | .string t => some t
  | _ => none

/-- A number of one byte. -/
def byte? : Value → Option UInt8
  | .integer n => if 0 ≤ n ∧ n < 256 then some (UInt8.ofNat n.toNat) else none
  | _ => none

/-- A number, whole or not. Whole ones are limited to 64 bits. -/
def number? : Value → Option Float
  | .float x => some x
  | .integer n =>
    if leastSigned ≤ n ∧ n ≤ largestUnsigned then some (Float.ofInt n) else none
  | _ => none

/-- A number of seconds. -/
def seconds? : Value → Option Nat
  | .integer n => if 0 ≤ n ∧ n ≤ largestUnsigned then some n.toNat else none
  | _ => none

/-- The names of the sections. -/
def sectionNames : List Text := ["output".toList, "mermaid".toList, "timeouts".toList]

/-- A section: its name, and the values of its fields by their names. -/
structure Section where
  name : Text
  value? : Text → Option Value

/-- Whether all entries that have none of the names have a meaning. -/
def othersReadable (names : List Text) (entries : Entries) : Bool :=
  Toml.hasReadable (entries.filter fun entry => !names.contains entry.1)

/-- The section with a name and with the fields of the names `fields`. -/
def section? (root : Entries) (name : String) (fields : List String) :
    Except ConfigError Section :=
  let name := name.toList
  let names := fields.map String.toList
  match Entries.get? root name with
  | none | some (.moment _) => .ok { name, value? := fun _ => none }
  | some (.table _ entries) =>
    if othersReadable names entries then .ok { name, value? := Entries.get? entries }
    else .error .unreadableValue
  | some (.array items) => .ok { name, value? := fun key => items[names.idxOf key]? }
  | some (.tables elements) =>
    .ok { name, value? := fun key => elements[names.idxOf key]?.map (.table .header) }
  | some _ => .error (.mistyped name)

/-- The field of a section, read as its type. -/
def Section.field? {α : Type} (part : Section) (key : String) (read : Value → Option α) :
    Except ConfigError (Option α) :=
  match part.value? key.toList with
  | none => .ok none
  | some value =>
    match read value with
    | some a => .ok (some a)
    | none => .error (.mistyped (part.name ++ '.' :: key.toList))

/-- What the table of a file says. -/
def ofEntries (root : Entries) : Except ConfigError ConfigFile := do
  let output ← section? root "output" ["dir", "format", "quality", "scale"]
  let mermaid ← section? root "mermaid" ["script_url"]
  let timeouts ← section? root "timeouts" ["page_load_secs", "render_secs", "settle_secs"]
  let usual : TimeLimits := {}
  let file : ConfigFile := {
    directory := ← output.field? "dir" text?
    format := ← output.field? "format" text?
    quality := ← output.field? "quality" byte?
    scale := ← output.field? "scale" number?
    script := ← mermaid.field? "script_url" text?
    limits := {
      pageLoad := (← timeouts.field? "page_load_secs" seconds?).getD usual.pageLoad
      render := (← timeouts.field? "render_secs" seconds?).getD usual.render
      settle := (← timeouts.field? "settle_secs" seconds?).getD usual.settle } }
  if othersReadable sectionNames root then .ok file else .error .unreadableValue

/-- What a file says. -/
def ofText (document : Text) : Except ConfigError ConfigFile :=
  match Toml.read document with
  | .error problem => .error (.malformed problem)
  | .ok root => ofEntries root

/-- A field with its variables replaced. -/
def expandField (env : Environment) (field : String) : Option Text →
    Except ConfigError (Option Text)
  | none => .ok none
  | some t =>
    match Expansion.expand env t with
    | .ok expanded => .ok (some expanded)
    | .error name => .error (.unset field.toList name)

/-- The file with the variables replaced in the two fields that may have any. -/
def expand (env : Environment) (file : ConfigFile) : Except ConfigError ConfigFile := do
  let directory ← expandField env "output.dir" file.directory
  let script ← expandField env "mermaid.script_url" file.script
  .ok { file with directory, script }

/-- The configuration that a file in the directory `base` gives. -/
def resolve (base : Path) (file : ConfigFile) : Config :=
  let usual : OutputSettings := {}
  {
    output := {
      directory := Path.join base (file.directory.getD defaultDirectory)
      format := (file.format.map Text.toLowerAscii).getD usual.format
      quality := file.quality.getD usual.quality
      scale := file.scale.getD usual.scale }
    script := file.script
    limits := file.limits }

end ConfigFile
end MermaidPress
