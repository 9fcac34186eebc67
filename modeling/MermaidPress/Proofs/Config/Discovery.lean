/-
Which configuration file `discover?` finds. The search looks into one directory after the other,
from the one that it begins in upwards, and ends at the first file or where there is no parent;
that it ends at all is because the path of a parent is shorter. The list of `ancestors` that is
searched has the same directories in the same order, so the file that is found is the nearest one,
and none is found only where no directory on the way up has one.

A file that is named is not searched for. What is loaded then depends on what is at its path and on
nothing else in the file system, so no other file can make a difference.
-/
import Mathlib.Data.List.Basic
import MermaidPress.Config.Load
import MermaidPress.Proofs.Path.Ancestors

namespace MermaidPress.Config

open MermaidPress.Path (ancestors parent? up? height)

variable {fs : FileSystem} {directory above start : Path} {result : Option Path} {n : ℕ}

/-- The configuration file of a directory. -/
def candidate (directory : Path) : Path := Path.join directory fileName

/-! ## The search, directory by directory -/

/-- The search from a directory upwards, and what it comes to. -/
inductive Search (fs : FileSystem) : Path → Option Path → Prop
  | found {directory : Path} (has : fs.has (candidate directory) = true) :
      Search fs directory (some (candidate directory))
  | up {directory above : Path} {result : Option Path}
      (lacks : fs.has (candidate directory) = false) (isParent : parent? directory = some above)
      (search : Search fs above result) : Search fs directory result
  | top {directory : Path} (lacks : fs.has (candidate directory) = false)
      (noParent : parent? directory = none) : Search fs directory none

theorem discover?_of_has (h : fs.has (candidate directory) = true) :
    discover? fs directory = some (candidate directory) := by
  obtain ⟨others, hothers⟩ := Path.exists_ancestors_eq directory
  rw [discover?, hothers, List.map_cons]
  exact List.find?_cons_of_pos h

theorem discover?_of_parent (hlacks : fs.has (candidate directory) = false)
    (hparent : parent? directory = some above) : discover? fs directory = discover? fs above := by
  rw [discover?, Path.ancestors_of_parent hparent, List.map_cons]
  exact List.find?_cons_of_neg (Bool.eq_false_iff.1 hlacks)

theorem discover?_of_no_parent (hlacks : fs.has (candidate directory) = false)
    (hparent : parent? directory = none) : discover? fs directory = none := by
  rw [discover?, Path.ancestors_of_no_parent hparent, List.map_singleton]
  exact List.find?_cons_of_neg (Bool.eq_false_iff.1 hlacks)

/-- The search of `discover?` ends, whatever it begins with: each directory has a shorter path than
the one before. -/
theorem search_discover? (fs : FileSystem) (start : Path) : Search fs start (discover? fs start) := by
  induction hlength : start.length using Nat.strongRecOn generalizing start with
  | ind length ih =>
    cases hhas : fs.has (candidate start) with
    | true => exact discover?_of_has hhas ▸ .found hhas
    | false =>
      cases hparent : parent? start with
      | none => exact discover?_of_no_parent hhas hparent ▸ .top hhas hparent
      | some above =>
        have hshorter := Path.length_lt_of_parent? hparent
        rw [discover?_of_parent hhas hparent]
        exact .up hhas hparent (ih _ (hlength ▸ hshorter) above rfl)

theorem Search.discover?_eq (h : Search fs start result) : discover? fs start = result := by
  induction h with
  | found hhas => exact discover?_of_has hhas
  | up hlacks hparent _ ih => rw [discover?_of_parent hlacks hparent, ih]
  | top hlacks hparent => exact discover?_of_no_parent hlacks hparent

/-! ## The nearest file -/

/-- The directory has a configuration file, `n` steps above the start, and none on the way to it has
one. -/
structure IsNearest (fs : FileSystem) (start : Path) (n : ℕ) (directory : Path) : Prop where
  above : up? n start = some directory
  has : fs.has (candidate directory) = true
  first : ∀ m < n, ∀ below, up? m start = some below → fs.has (candidate below) = false

theorem discover?_eq_map (fs : FileSystem) (start : Path) : discover? fs start =
    ((ancestors start).find? fun directory => fs.has (candidate directory)).map candidate := by
  rw [discover?, List.find?_map]
  rfl

theorem find?_ancestors_eq_some_iff :
    (ancestors start).find? (fun directory => fs.has (candidate directory)) = some directory ↔
      ∃ n, IsNearest fs start n directory := by
  rw [List.find?_eq_some_iff_getElem]
  constructor
  · rintro ⟨hhas, n, hn, hdirectory, hbefore⟩
    refine ⟨n, ?_, hhas, fun m hm below hbelow => ?_⟩
    · rw [← Path.getElem?_ancestors, List.getElem?_eq_getElem hn, hdirectory]
    · rw [← Path.getElem?_ancestors, List.getElem?_eq_getElem (Nat.lt_trans hm hn)] at hbelow
      obtain rfl := Option.some.inj hbelow
      simpa using hbefore m hm
  · rintro ⟨n, habove, hhas, hfirst⟩
    rw [← Path.getElem?_ancestors] at habove
    obtain ⟨hn, hdirectory⟩ := List.getElem?_eq_some_iff.1 habove
    refine ⟨hhas, n, hn, hdirectory, fun m hm => ?_⟩
    have hlacks := hfirst m hm (ancestors start)[m]
      (by rw [← Path.getElem?_ancestors, List.getElem?_eq_getElem])
    simpa using hlacks

theorem discover?_eq_some_iff {found : Path} : discover? fs start = some found ↔
    ∃ n directory, IsNearest fs start n directory ∧ found = candidate directory := by
  rw [discover?_eq_map, Option.map_eq_some_iff]
  constructor
  · rintro ⟨directory, hfind, rfl⟩
    obtain ⟨n, hnearest⟩ := find?_ancestors_eq_some_iff.1 hfind
    exact ⟨n, directory, hnearest, rfl⟩
  · rintro ⟨n, directory, hnearest, rfl⟩
    exact ⟨directory, find?_ancestors_eq_some_iff.2 ⟨n, hnearest⟩, rfl⟩

theorem discover?_eq_none_iff : discover? fs start = none ↔
    ∀ n directory, up? n start = some directory → fs.has (candidate directory) = false := by
  rw [discover?_eq_map, Option.map_eq_none_iff, List.find?_eq_none]
  constructor
  · intro h n directory hup
    rw [← Path.getElem?_ancestors] at hup
    simpa using h directory (List.mem_of_getElem? hup)
  · intro h directory hmem
    obtain ⟨n, hn⟩ := List.mem_iff_getElem?.1 hmem
    rw [Path.getElem?_ancestors] at hn
    simpa using h n directory hn

/-! ## A file that is named -/

variable {env : Environment} {overrides : Overrides} {named missing : Path} {path : Option Path}

/-- Whatever the outcome is, it is not that there is no file. -/
def IsPresent {α : Type} (outcome : Except ConfigError α) : Prop :=
  ∀ path, outcome ≠ .error (.notFound path)

section IsPresent

variable {α β : Type} {outcome : Except ConfigError α} {next : α → Except ConfigError β}

theorem isPresent_ok (a : α) : IsPresent (.ok a : Except ConfigError α) := nofun

theorem IsPresent.bind (h : IsPresent outcome) (hnext : ∀ a, IsPresent (next a)) :
    IsPresent (outcome >>= next) := by
  cases outcome with
  | error cause => exact fun path heq => h path (congrArg Except.error (Except.error.inj heq))
  | ok a => exact hnext a

end IsPresent

namespace IsPresent

theorem section? (root : Toml.Entries) (name : String) (fields : List String) :
    IsPresent (ConfigFile.section? root name fields) := by
  unfold ConfigFile.section?
  dsimp only
  split
  · nofun
  · nofun
  · split <;> nofun
  · nofun
  · nofun
  · nofun

theorem field? {α : Type} (part : ConfigFile.Section) (key : String)
    (read : Toml.Value → Option α) : IsPresent (part.field? key read) := by
  unfold ConfigFile.Section.field?
  split
  · nofun
  · split <;> nofun

theorem ofText (document : Text) : IsPresent (ConfigFile.ofText document) := by
  unfold ConfigFile.ofText
  split
  · nofun
  · refine (section? _ _ _).bind fun output => (section? _ _ _).bind fun mermaid =>
      (section? _ _ _).bind fun timeouts => ?_
    refine (field? _ _ _).bind fun _ => (field? _ _ _).bind fun _ => (field? _ _ _).bind fun _ =>
      (field? _ _ _).bind fun _ => (field? _ _ _).bind fun _ => (field? _ _ _).bind fun _ =>
      (field? _ _ _).bind fun _ => (field? _ _ _).bind fun _ => ?_
    dsimp only
    split <;> nofun

theorem expandField (env : Environment) (field : String) (t? : Option Text) :
    IsPresent (ConfigFile.expandField env field t?) := by
  unfold ConfigFile.expandField
  split
  · nofun
  · split <;> nofun

theorem ofFile (fs : FileSystem) (env : Environment) (path : Path) :
    IsPresent (Config.ofFile fs env path) := by
  unfold Config.ofFile
  split
  · nofun
  · refine (ofText _).bind fun file => bind ?_ fun expanded => isPresent_ok _
    exact (expandField _ _ _).bind fun _ => (expandField _ _ _).bind fun _ => isPresent_ok _

theorem validate (config : Config) : IsPresent config.validate := by
  unfold Config.validate
  split <;> nofun

end IsPresent

/-- Only a file that is named can be missing, and then it is the one that is reported. -/
theorem load_eq_notFound_iff : load fs env path overrides = .error (.notFound missing) ↔
    path = some missing ∧ fs.has missing = false := by
  constructor
  · intro h
    have hsource : ¬ IsPresent (source fs env path) := fun hpresent =>
      (hpresent.bind fun config => .validate (config.override overrides)) missing h
    cases path with
    | none =>
      refine absurd ?_ hsource
      unfold source
      cases discover? fs fs.current with
      | none => exact isPresent_ok _
      | some found => exact .ofFile fs env found
    | some named =>
      cases hhas : fs.has named with
      | true =>
        refine absurd ?_ hsource
        simp only [source, hhas, if_true]
        exact .ofFile fs env named
      | false =>
        simp only [load, source, hhas] at h
        obtain rfl : named = missing := ConfigError.notFound.inj (Except.error.inj h)
        exact ⟨rfl, hhas⟩
  · rintro ⟨rfl, hhas⟩
    simp only [load, source, hhas]
    rfl

theorem load_of_stat_eq {fs' : FileSystem} (h : fs'.stat named = fs.stat named) :
    load fs' env (some named) overrides = load fs env (some named) overrides := by
  have hhas : fs'.has named = fs.has named := by rw [FileSystem.has, FileSystem.has, h]
  have hread : fs'.readText named = fs.readText named := by
    rw [FileSystem.readText, FileSystem.readText, FileSystem.readBytes, FileSystem.readBytes, h]
  have hfile : ofFile fs' env named = ofFile fs env named := by rw [ofFile, ofFile, hread]
  rw [load, load, source, source, hhas, hfile]

/-- **`discover?` finds the nearest configuration.** From any start, absolute or not, the search
ends with what is found: with the file of the first directory on the way up that has one, and with
nothing exactly if none has. The way up has one step for each component that can be taken off, it
never comes to a path twice, and its end is the root or the empty path. A file that is named is
loaded whatever else there is, and it is the only one that can be reported as missing. -/
theorem discover?_finds_nearest (fs : FileSystem) (start : Path) :
    (∀ result, Search fs start result ↔ discover? fs start = result) ∧
    (∀ found, discover? fs start = some found ↔
      ∃ n directory, IsNearest fs start n directory ∧ found = candidate directory) ∧
    (discover? fs start = none ↔
      ∀ n directory, up? n start = some directory → fs.has (candidate directory) = false) ∧
    (∀ n, (up? n start).isSome ↔ n ≤ height start) ∧
    (∀ n directory, up? n start = some directory →
      directory <+: start ∧ Path.isAbsolute directory = Path.isAbsolute start ∧
        Path.components directory =
          (Path.components start).take ((Path.components start).length - n)) ∧
    (∀ m n directory, up? m start = some directory → up? n start = some directory → m = n) ∧
    (∃ top, up? (height start) start = some top ∧
      if Path.isAbsolute start then Path.components top = [.root] else top = []) ∧
    ∀ env overrides,
      (∀ path missing, load fs env path overrides = .error (.notFound missing) ↔
        path = some missing ∧ fs.has missing = false) ∧
      ∀ named (fs' : FileSystem), fs'.stat named = fs.stat named →
        load fs' env (some named) overrides = load fs env (some named) overrides := by
  refine ⟨fun result => ⟨Search.discover?_eq, fun h => h ▸ search_discover? fs start⟩,
    fun found => discover?_eq_some_iff, discover?_eq_none_iff, fun n => Path.isSome_up?_iff,
    fun n directory hup => ?_, fun m n directory => Path.up?_inj, ?_, fun env overrides =>
      ⟨fun path missing => load_eq_notFound_iff, fun named fs' => load_of_stat_eq⟩⟩
  · obtain ⟨hbegins, habsolute, -⟩ := Path.steps_of_up? hup
    exact ⟨hbegins, habsolute, Path.components_of_up? hup⟩
  · obtain ⟨top, htop, hcomponents⟩ := Path.exists_up?_height start
    refine ⟨top, htop, ?_⟩
    cases habsolute : Path.isAbsolute start with
    | true => simpa [habsolute] using hcomponents
    | false => simpa [habsolute, Path.components_eq_nil_iff] using hcomponents

end MermaidPress.Config
