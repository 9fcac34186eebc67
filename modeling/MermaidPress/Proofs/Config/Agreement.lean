/-
One file, loaded in two ways: by its name in the current directory, and by being found there. The
file is the same one, so it is read alike, it lacks the same variables, and the settings that are put
together from it differ in one thing only, the directory that its own directory is seen from: the
empty path in the one case, the path of the current directory in the other.

Made absolute, the two come to the same path, with one exception. Behind the empty path the empty
directory stays empty and is refused; behind the current directory it has become that directory, and
passes the check for the empty one, which is made on what has been put together. The exception is
exact: `loads_agree_iff`.
-/
import MermaidPress.Proofs.Config.Discovery
import MermaidPress.Proofs.Config.Precedence
import MermaidPress.Proofs.FileSystem.Walking
import MermaidPress.Proofs.Path.Normal

namespace MermaidPress

open MermaidPress.Path (IsName IsNormal ofNames joinWith)

namespace FileSystem

variable {fs : FileSystem} {names : List Text} {name : Text} {start : Location} {target : Target}

theorem map_fst_pieces_joinWith (hne : names ≠ []) (h : ∀ name ∈ names, '/' ∉ name) :
    (Path.pieces [] 0 (joinWith '/' names)).map Prod.fst = names := by
  induction names with
  | nil => exact absurd rfl hne
  | cons name names ih =>
    obtain ⟨hname, hnames⟩ := List.forall_mem_cons.1 h
    by_cases hnil : names = []
    · rw [hnil, joinWith, Path.pieces_of_notMem hname]
      rfl
    · rw [Path.joinWith_cons hnil, Path.pieces_append_stroke, Path.pieces_of_notMem hname,
        List.map_append, Path.map_fst_pieces [] _ 0, ih hnil hnames]
      rfl

theorem pieces_ofNames (hne : names ≠ []) (h : ∀ name ∈ names, IsName name) :
    pieces (ofNames names) = [] :: names := by
  have hpieces : pieces (ofNames names) =
      [] :: (Path.pieces [] 1 (joinWith '/' names)).map Prod.fst := rfl
  rw [hpieces, Path.map_fst_pieces [] 1 0, map_fst_pieces_joinWith hne fun name hmem =>
    (h name hmem).stroke]

theorem nominal_ofNames (h : ∀ name ∈ names, IsName name) : nominal (ofNames names) = names := by
  by_cases hne : names = []
  · rw [hne]
    rfl
  · rw [nominal, pieces_ofNames hne h, List.filter_cons_of_neg (by simp)]
    refine List.filter_eq_self.2 fun name hmem => ?_
    have hcomponent := (h name hmem).component
    have hpoint : name ≠ ['.'] := by
      rintro rfl
      cases hcomponent
    simp [(h name hmem).ne_nil, hpoint]

/-- A walk that goes on behind names has gone down through directories. -/
theorem walk_behind_names (hnames : ∀ name ∈ names, IsName name) (hname : IsName name)
    (h : fs.walk start (names ++ [name]) = .ok target) :
    fs.walk (start ++ names) [name] = .ok target := by
  induction names generalizing start with
  | nil => simpa using h
  | cons first names ih =>
    obtain ⟨hfirst, hnames⟩ := List.forall_mem_cons.1 hnames
    obtain ⟨hidle, hup⟩ := ne_of_componentOf? hfirst.component
    have hrest : (names ++ [name]).all (· = []) = false := by simp [hname.ne_nil]
    rw [List.cons_append, walk, if_neg hidle, if_neg hup] at h
    split at h
    · cases h
    · dsimp only at h
      cases hfind : fs.find? (start ++ [first]) with
      | none => simp [hfind, hrest] at h
      | some node =>
        cases node with
        | file bytes => simp [hfind, hrest] at h
        | directory =>
          simp only [hfind] at h
          rw [← List.singleton_append, ← List.append_assoc]
          exact ih hnames h

/-- A name in the current directory is at the same place whether or not the path to that directory
is put before it. -/
theorem stat_join_current (hcurrent : IsNormal fs.current) (hname : IsName name)
    (hplain : '\x00' ∉ name) (hshort : Text.byteLength name < pathLimit)
    (h : fs.has (Path.join fs.current name) = true) :
    fs.stat (Path.join fs.current name) = fs.stat name := by
  obtain ⟨names, hcurrent, hnames⟩ := hcurrent
  rw [hcurrent] at h ⊢
  have hall : ∀ n ∈ names ++ [name], IsName n := Path.isName_of_mem_concat hnames hname
  cases hlocate : fs.locate (Path.join (ofNames names) name) with
  | error e => simp [has, stat, hlocate, bind, Except.bind, Except.isOk, Except.toBool] at h
  | ok target =>
    have hwalk := walk_of_locate hlocate
    rw [Path.join_ofNames hnames hname, pieces_ofNames (by simp) hall] at hwalk
    have hidle : fs.walk [] ([] :: (names ++ [name])) = fs.walk [] (names ++ [name]) := rfl
    have hwalk : fs.walk [] (names ++ [name]) = .ok target := hidle ▸ hwalk
    have hpieces : pieces name = [name] := by
      rw [pieces, Path.pieces_of_notMem hname.stroke]
      rfl
    have hhere : fs.locate name = .ok target := by
      rw [locate, if_neg (by simpa using hplain), if_neg hname.ne_nil, if_neg (by omega),
        Path.isAbsolute_of_isName hname, hcurrent, nominal_ofNames hnames, hpieces]
      exact walk_behind_names hnames hname hwalk
    have hends : asksForDirectory (Path.join (ofNames names) name) = asksForDirectory name := by
      rw [asksForDirectory, Path.getLast?_join hname.ne_nil, asksForDirectory]
    simp only [stat, hlocate, hhere, hends, bind, Except.bind]

end FileSystem

namespace Config

variable {fs : FileSystem} {env : Environment} {overrides : Overrides} {file : ConfigFile}
  {directory script : Option Text} {config config' : Config}

/-! ## The file in the current directory -/

theorem isName_fileName : IsName fileName := ⟨rfl, by decide⟩

/-- The path by which `discover?` finds the file in the current directory. -/
def foundPath (fs : FileSystem) : Path := Path.join fs.current fileName

theorem discover?_here (h : fs.has (foundPath fs) = true) :
    discover? fs fs.current = some (foundPath fs) :=
  discover?_of_has h

theorem stat_foundPath (hcurrent : IsNormal fs.current) (h : fs.has (foundPath fs) = true) :
    fs.stat (foundPath fs) = fs.stat fileName :=
  FileSystem.stat_join_current hcurrent isName_fileName (by decide) (by decide) h

theorem directoryOf_foundPath (hcurrent : IsNormal fs.current) :
    directoryOf (foundPath fs) = fs.current := by
  obtain ⟨names, hcurrent, hnames⟩ := hcurrent
  have hpop := Path.pop_ofNames (Path.isName_of_mem_concat hnames isName_fileName)
  rw [List.dropLast_concat, ← Path.join_ofNames hnames isName_fileName, ← hcurrent] at hpop
  have hlater : Path.later (foundPath fs) ≠ [] := by
    rw [foundPath, Path.later_join isName_fileName]
    simp
  obtain ⟨parent, hparent, -⟩ := Path.exists_parent? hlater
  have hpop : (Path.parent? (foundPath fs)).getD (foundPath fs) = fs.current := hpop
  rw [hparent] at hpop
  rw [directoryOf, hparent]
  exact hpop

theorem directoryOf_fileName : directoryOf fileName = [] := by decide +kernel

/-- The file is read alike: where one way to `load` it fails, the other one does so for the same
reason, and otherwise both have the same file to go on with. -/
theorem loads_fail_or_read (hcurrent : IsNormal fs.current) (h : fs.has (foundPath fs) = true)
    (env : Environment) (overrides : Overrides) :
    ((∀ file, ¬ Reads fs (some fileName) fileName file) ∧
        ∃ error, load fs env (some fileName) overrides = .error error ∧
          load fs env none overrides = .error error) ∨
      ∃ file, Reads fs (some fileName) fileName file ∧ Reads fs none (foundPath fs) file := by
  have hstat := stat_foundPath hcurrent h
  have hfound := discover?_here h
  have hhas : fs.has fileName = true := by
    rw [FileSystem.has, hstat] at h
    exact h
  have htext : fs.readText (foundPath fs) = fs.readText fileName := by
    simp only [FileSystem.readText, FileSystem.readBytes, hstat]
  cases hread : fs.readText fileName with
  | error cause =>
    refine .inl ⟨?_, .unreadable cause, ?_, ?_⟩
    · rintro file ⟨-, document, hdocument, -⟩
      rw [hread] at hdocument
      cases hdocument
    · simp only [load, source, hhas, if_true, ofFile, hread, bind, Except.bind]
    · simp only [load, source, hfound, ofFile, htext, hread, bind, Except.bind]
  | ok document =>
    cases hfile : ConfigFile.ofText document with
    | error cause =>
      refine .inl ⟨?_, cause, ?_, ?_⟩
      · rintro file ⟨-, other, hdocument, hsaid⟩
        obtain rfl := Except.ok.inj (hread.symm.trans hdocument)
        rw [hfile] at hsaid
        cases hsaid
      · simp only [load, source, hhas, if_true, ofFile, hread, hfile, bind, Except.bind]
      · simp only [load, source, hfound, ofFile, htext, hread, hfile, bind, Except.bind]
    | ok file =>
      exact .inr ⟨file, ⟨.inl ⟨rfl, hhas⟩, document, hread, hfile⟩,
        ⟨.inr ⟨rfl, hfound⟩, document, htext.trans hread, hfile⟩⟩

/-! ## Outcomes that agree -/

/-- Two ways of loading come to the same: both are refused for the same reason, or the configurations
differ at most in how the directory of the images is spelled and in the file that they come from. -/
inductive Agree (current : Path) : Except ConfigError Config → Except ConfigError Config → Prop
  | refused (error : ConfigError) : Agree current (.error error) (.error error)
  | loaded (config config' : Config)
      (directory : Path.absolute? current config.output.directory =
        Path.absolute? current config'.output.directory)
      (others : config' = { config with
        output := { config.output with directory := config'.output.directory }
        path := config'.path }) : Agree current (.ok config) (.ok config')

theorem agree_validate {current : Path}
    (hdirectory : Path.absolute? current config.output.directory =
      Path.absolute? current config'.output.directory)
    (hothers : config' = { config with
      output := { config.output with directory := config'.output.directory }
      path := config'.path }) :
    Agree current config.validate config'.validate := by
  have hempty : config.output.directory.isEmpty = config'.output.directory.isEmpty := by
    rw [Bool.eq_iff_iff, List.isEmpty_iff, List.isEmpty_iff, ← Path.absolute?_eq_none_iff,
      hdirectory, Path.absolute?_eq_none_iff]
  have hchecks : config'.checks = config.checks := by
    rw [hothers]
    simp only [checks, hempty]
  have hviolation : config'.violation? = config.violation? := by
    rw [violation?, hchecks, violation?]
  unfold validate
  rw [hviolation]
  cases config.violation? with
  | some violation => exact .refused _
  | none => exact .loaded _ _ hdirectory hothers

/-- Where the file says of a directory that is not empty, or the command line does, it comes to the
same from both sides. -/
theorem absolute?_merged (hcurrent : IsNormal fs.current) (file : ConfigFile) (script : Option Text)
    (h : ¬ (overrides.directory = none ∧ directory = some [])) :
    Path.absolute? fs.current (merged fileName file directory script overrides).output.directory =
      Path.absolute? fs.current
        (merged (foundPath fs) file directory script overrides).output.directory := by
  have hseen {t : Path} (hne : t ≠ []) :
      Path.absolute? fs.current (Path.join [] t) =
        Path.absolute? fs.current (Path.join fs.current t) := by
    rw [Path.join_nil, Path.absolute?_join hcurrent hne]
  simp only [merged, directoryOf_fileName, directoryOf_foundPath hcurrent]
  cases hasked : overrides.directory with
  | some asked => rfl
  | none =>
    cases hsaid : directory with
    | none => exact hseen (by decide)
    | some t =>
      refine hseen fun hnil => h ⟨hasked, ?_⟩
      rw [hsaid, hnil]

/-- The file leaves an empty directory, once its variables are replaced, and the command line puts
none in its place. -/
structure LeavesEmpty (fs : FileSystem) (env : Environment) (overrides : Overrides) : Prop where
  asked : overrides.directory = none
  said : ∃ file script, Reads fs (some fileName) fileName file ∧
    Expands env file.directory (some []) ∧ Expands env file.script script

theorem violation?_of_empty (h : config.output.directory = []) :
    config.violation? = some .emptyDirectory := by
  have hfirst : ∃ rest, config.checks = (false, .emptyDirectory) :: rest := by
    simp only [checks, h]
    exact ⟨_, rfl⟩
  obtain ⟨rest, hfirst⟩ := hfirst
  rw [violation?, hfirst]
  rfl

/-- An empty directory is seen from one side only. -/
theorem not_agree_merged (hcurrent : IsNormal fs.current) (file : ConfigFile) (script : Option Text)
    (hasked : overrides.directory = none) :
    ¬ Agree fs.current (merged fileName file (some []) script overrides).validate
      (merged (foundPath fs) file (some []) script overrides).validate := by
  have hnamed : (merged fileName file (some []) script overrides).output.directory = [] := by
    simp only [merged, hasked, chosen, directoryOf_fileName, Option.map_some]
    rfl
  have hfound : (merged (foundPath fs) file (some []) script overrides).output.directory ≠ [] := by
    simp only [merged, hasked, chosen, directoryOf_foundPath hcurrent, Option.map_some]
    intro hnil
    have habsolute : Path.isAbsolute (Path.join fs.current []) = true := by
      rw [Path.isAbsolute_join, hcurrent.isAbsolute, Bool.true_or]
    rw [hnil] at habsolute
    cases habsolute
  have hrefused : (merged fileName file (some []) script overrides).validate =
      .error (.invalid .emptyDirectory) := by
    simp only [validate, violation?_of_empty hnamed]
  rw [hrefused]
  intro hagree
  generalize hconfig : merged (foundPath fs) file (some []) script overrides = config at *
  rcases validate_cases config with ⟨-, hok⟩ | ⟨violation, hfirst, herror⟩
  · rw [hok] at hagree
    cases hagree
  · rw [herror] at hagree
    cases hagree
    exact hfound hfirst.applies

/-- **`load` with the file's name and without it come to the same**, unless the file leaves an empty
directory that nothing takes the place of. -/
theorem loads_agree_iff (hcurrent : IsNormal fs.current) (h : fs.has (foundPath fs) = true)
    (env : Environment) (overrides : Overrides) :
    Agree fs.current (load fs env (some fileName) overrides) (load fs env none overrides) ↔
      ¬ LeavesEmpty fs env overrides := by
  rcases loads_fail_or_read hcurrent h env overrides with
    ⟨hunread, error, hnamed, hfound⟩ | ⟨file, hnamed, hfound⟩
  · rw [hnamed, hfound]
    refine iff_of_true (.refused error) ?_
    rintro ⟨-, file, script, hreads, -⟩
    exact hunread file hreads
  · cases hexpand : file.expand env with
    | error error =>
      simp only [load, hnamed.source_eq, hfound.source_eq, hexpand, bind, Except.bind, Except.map]
      refine iff_of_true (.refused error) ?_
      rintro ⟨-, other, script, hreads, hdirectory, hscript⟩
      obtain rfl := hreads.unique hnamed
      have hok := expand_eq_ok_iff.2 ⟨some [], script, hdirectory, hscript, rfl⟩
      rw [hexpand] at hok
      cases hok
    | ok expanded =>
      obtain ⟨directory, script, hdirectory, hscript, -⟩ := expand_eq_ok_iff.1 hexpand
      rw [hnamed.load_eq hdirectory hscript, hfound.load_eq hdirectory hscript]
      by_cases hempty : overrides.directory = none ∧ directory = some []
      · obtain ⟨hasked, rfl⟩ := hempty
        exact iff_of_false (not_agree_merged hcurrent file script hasked)
          (not_not_intro ⟨hasked, file, script, hnamed, hdirectory, hscript⟩)
      · refine iff_of_true (agree_validate (absolute?_merged hcurrent file script hempty) rfl) ?_
        rintro ⟨hasked, other, script', hreads, hdirectory', -⟩
        obtain rfl := hreads.unique hnamed
        exact hempty ⟨hasked, hdirectory.unique hdirectory'⟩

/-- A configuration file that leaves an empty directory. -/
def emptied : FileSystem where
  current := "/w".toList
  nodes := [(["w".toList], .directory),
    (["w".toList, fileName], .file "[output]\ndir = \"\"\n".toUTF8)]

/-- The file that is named is refused, and the same file is loaded when it is found; the images go
to the current directory then. -/
theorem not_agree_of_empty_directory :
    emptied.has (foundPath emptied) = true ∧
      load emptied (.ofEntries []) (some fileName) {} = .error (.invalid .emptyDirectory) ∧
      (∃ config, load emptied (.ofEntries []) none {} = .ok config ∧
        config.output.directory = "/w/".toList) ∧
      ¬ Agree emptied.current (load emptied (.ofEntries []) (some fileName) {})
        (load emptied (.ofEntries []) none {}) := by
  have hnamed : (match load emptied (.ofEntries []) (some fileName) {} with
      | .error error => some error
      | .ok _ => none) = some (.invalid .emptyDirectory) := by
    decide +kernel
  have hfound : (load emptied (.ofEntries []) none {}).toOption.bind
      (fun config => some config.output.directory) = some "/w/".toList := by
    decide +kernel
  obtain ⟨config, hfound, hdirectory⟩ := exists_of_toOption_bind hfound
  cases hload : load emptied (.ofEntries []) (some fileName) {} with
  | ok config => rw [hload] at hnamed; cases hnamed
  | error error =>
    rw [hload] at hnamed
    obtain rfl := Option.some.inj hnamed
    refine ⟨by decide +kernel, rfl, ⟨config, hfound, Option.some.inj hdirectory⟩, ?_⟩
    rw [hfound]
    intro hagree
    cases hagree

/-- With a directory on the command line, it makes no difference what the file leaves. -/
theorem loads_agree_with_directory :
    IsNormal emptied.current ∧ emptied.has (foundPath emptied) = true ∧
      Agree emptied.current
        (load emptied (.ofEntries []) (some fileName) { directory := some "d".toList })
        (load emptied (.ofEntries []) none { directory := some "d".toList }) := by
  have hcurrent : IsNormal emptied.current := by
    refine ⟨["w".toList], rfl, fun name hmem => ?_⟩
    obtain rfl := List.mem_singleton.1 hmem
    exact ⟨rfl, by decide⟩
  have hhas : emptied.has (foundPath emptied) = true := by decide +kernel
  refine ⟨hcurrent, hhas, (loads_agree_iff hcurrent hhas _ _).2 ?_⟩
  rintro ⟨hasked, -⟩
  cases hasked

end Config
end MermaidPress
