/-
Which value a setting has that `load` gives. The command line comes first, then the file, then the
default, for each setting by itself; what is found wrong is looked for in the settings that come
out of this, in one order, and nowhere else. Before any of that the variables of the file are
replaced, so one that is missing is reported whatever the command line says.

The `checks` are a list, and each of them fails where one violation applies.
`isFirst_of_violation?` says which of the violations is reported, in terms of the settings and the
order alone.
-/
import MermaidPress.Config.Load
import MermaidPress.Proofs.Config.Variables
import MermaidPress.Proofs.Render.Interaction

namespace MermaidPress

/-! ## The first violation -/

namespace Violation

/-- What each `Violation` says of a configuration. -/
def Applies (config : Config) : Violation → Prop
  | emptyDirectory => config.output.directory = []
  | unknownFormat name =>
    config.output.format = name ∧ name ≠ ImageFormat.png.name ∧ name ≠ ImageFormat.jpeg.name
  | quality =>
    config.output.format = ImageFormat.jpeg.name ∧
      ¬ (1 ≤ config.output.quality ∧ config.output.quality ≤ 100)
  | scale => ¬ (1.0 ≤ config.output.scale ∧ config.output.scale ≤ 5.0)
  | emptyScript => config.script = some []
  | noPageLoad => config.limits.pageLoad = 0
  | noRender => config.limits.render = 0
  | noSettle => config.limits.settle = 0

/-- The place of a violation in the order of the `checks`. -/
def place : Violation → Nat
  | emptyDirectory => 0
  | unknownFormat _ => 1
  | quality => 2
  | scale => 3
  | emptyScript => 4
  | noPageLoad => 5
  | noRender => 6
  | noSettle => 7

/-- The violation `Applies`, and none before it does. -/
structure IsFirst (violation : Violation) (config : Config) : Prop where
  applies : violation.Applies config
  least : ∀ other : Violation, other.Applies config → violation.place ≤ other.place

end Violation

namespace Config

variable {config : Config} {violation : Violation}

/-- A check fails where its violation `Applies`. -/
theorem failed_mem_checks_iff : (false, violation) ∈ config.checks ↔ violation.Applies config := by
  cases violation with
  | emptyDirectory => simp [checks, Violation.Applies]
  | unknownFormat name =>
    simp only [checks, Violation.Applies]
    constructor
    · intro h
      simp at h
      obtain ⟨⟨hpng, hjpeg⟩, rfl⟩ := h
      exact ⟨rfl, hpng, hjpeg⟩
    · rintro ⟨rfl, hpng, hjpeg⟩
      simp [hpng, hjpeg]
  | quality => simp [checks, Violation.Applies]
  | scale =>
    have hrange : Violation.scale.Applies config ↔
        ¬ (scaleRange.1 ≤ config.output.scale ∧ config.output.scale ≤ scaleRange.2) := Iff.rfl
    rw [hrange]
    simp [checks]
  | emptyScript => simp [checks, Violation.Applies]
  | noPageLoad => simp [checks, Violation.Applies]
  | noRender => simp [checks, Violation.Applies]
  | noSettle => simp [checks, Violation.Applies]

theorem pairwise_checks (config : Config) :
    config.checks.Pairwise fun check other => check.2.place < other.2.place := by
  simp [checks, Violation.place]

theorem isFirst_of_violation? (h : config.violation? = some violation) :
    violation.IsFirst config := by
  obtain ⟨⟨passed, found⟩, hfind, rfl⟩ := Option.map_eq_some_iff.1 h
  obtain ⟨hfailed, earlier, later, hchecks, hearlier⟩ := List.find?_eq_some_iff_append.1 hfind
  obtain rfl : passed = false := by simpa using hfailed
  refine ⟨failed_mem_checks_iff.1 (by simp [hchecks]), fun other hother => ?_⟩
  have hmem : (false, other) ∈ earlier ++ (false, found) :: later :=
    hchecks ▸ failed_mem_checks_iff.2 hother
  rcases List.mem_append.1 hmem with hmem | hmem
  · have hpassed := hearlier _ hmem
    simp at hpassed
  · rcases List.mem_cons.1 hmem with heq | hmem
    · obtain rfl : other = found := (Prod.mk.inj heq).2
      exact Nat.le_refl _
    · have hpairwise := pairwise_checks config
      rw [hchecks] at hpairwise
      exact Nat.le_of_lt (List.rel_of_pairwise_cons (List.pairwise_append.1 hpairwise).2.1 hmem)

/-- `validate` passes a configuration or refuses it for its first violation. -/
theorem validate_cases (config : Config) :
    ((∀ violation : Violation, ¬ violation.Applies config) ∧ config.validate = .ok config) ∨
      ∃ violation : Violation, violation.IsFirst config ∧
        config.validate = .error (.invalid violation) := by
  cases h : config.violation? with
  | none =>
    refine .inl ⟨fun violation happlies => ?_, by simp only [validate, h]⟩
    have hnone := List.find?_eq_none.1 (Option.map_eq_none_iff.1 h) _
      (failed_mem_checks_iff.2 happlies)
    simp at hnone
  | some violation =>
    exact .inr ⟨violation, isFirst_of_violation? h, by simp only [validate, h]⟩

/-! ## Where the values come from -/

/-- The value of one setting: what the command line asks for, or else what the file says, or else the
usual one. -/
def chosen {α : Type} (asked said : Option α) (usual : α) : α :=
  match asked, said with
  | some value, _ => value
  | none, some value => value
  | none, none => usual

/-- The directory that a file is in. -/
def directoryOf (path : Path) : Path := (Path.parent? path).getD ['.']

/-- The settings, one by one. The directory of the command line is taken as it is, that of the file
is seen from where the file is, with its variables replaced. -/
def merged (used : Path) (file : ConfigFile) (directory script : Option Text)
    (overrides : Overrides) : Config where
  output := {
    directory := chosen overrides.directory (directory.map (Path.join (directoryOf used)))
      (Path.join (directoryOf used) "images".toList)
    format := chosen (overrides.format.map Text.toLowerAscii) (file.format.map Text.toLowerAscii)
      "png".toList
    quality := chosen overrides.quality file.quality 85
    scale := chosen overrides.scale file.scale 2.0 }
  script := script
  limits := file.limits
  path := some used

/-- The file at `used` is the one that is named, or else the one that is found, and `file` is what
its text says. -/
structure Reads (fs : FileSystem) (path : Option Path) (used : Path) (file : ConfigFile) : Prop where
  isUsed : path = some used ∧ fs.has used = true ∨
    path = none ∧ discover? fs fs.current = some used
  isRead : ∃ document, fs.readText used = .ok document ∧ ConfigFile.ofText document = .ok file

variable {fs : FileSystem} {env : Environment} {path : Option Path} {overrides : Overrides}
  {used : Path} {file : ConfigFile} {directory script : Option Text}

theorem Reads.source_eq (h : Reads fs path used file) : source fs env path =
    (file.expand env).map fun expanded =>
      { expanded.resolve (directoryOf used) with path := some used } := by
  obtain ⟨document, hread, hfile⟩ := h.isRead
  have hofFile : ofFile fs env used = (file.expand env).map fun expanded =>
      { expanded.resolve (directoryOf used) with path := some used } := by
    simp only [ofFile, hread, hfile, bind, Except.bind]
    cases file.expand env <;> rfl
  rcases h.isUsed with ⟨rfl, hhas⟩ | ⟨rfl, hfound⟩
  · simp only [source, hhas, if_true, hofFile]
  · simp only [source, hfound, hofFile]

theorem Reads.unique {path' : Option Path} {file' : ConfigFile} (h : Reads fs path used file)
    (h' : Reads fs path' used file') : file = file' := by
  obtain ⟨document, hread, hfile⟩ := h.isRead
  obtain ⟨document', hread', hfile'⟩ := h'.isRead
  obtain rfl := Except.ok.inj (hread.symm.trans hread')
  exact Except.ok.inj (hfile.symm.trans hfile')

theorem getD_eq_chosen {α : Type} (asked said : Option α) (usual : α) :
    asked.getD (said.getD usual) = chosen asked said usual := by
  cases asked <;> cases said <;> rfl

theorem override_resolve (file : ConfigFile) (directory script : Option Text) (used : Path)
    (overrides : Overrides) :
    override { ({ file with directory, script } : ConfigFile).resolve (directoryOf used) with
        path := some used } overrides =
      merged used file directory script overrides := by
  have hdirectory : Path.join (directoryOf used) (directory.getD defaultDirectory) =
      (directory.map (Path.join (directoryOf used))).getD
        (Path.join (directoryOf used) "images".toList) := by
    cases directory <;> rfl
  unfold override ConfigFile.resolve merged
  simp only [hdirectory, getD_eq_chosen]
  rfl

/-- A field of the file that may have variables, and what it is with these replaced. -/
def Expands (env : Environment) : Option Text → Option Text → Prop :=
  Option.Rel fun t expanded => Expansion.expand env t = .ok expanded

theorem Expands.unique {other : Option Text} (h : Expands env directory script)
    (h' : Expands env directory other) : script = other := by
  cases h with
  | none => cases h'; rfl
  | some h =>
    cases h' with
    | some h' => exact congrArg some (Except.ok.inj (h.symm.trans h'))

theorem expandField_eq_ok_iff {field : String} :
    ConfigFile.expandField env field directory = .ok script ↔ Expands env directory script := by
  constructor
  · intro h
    cases directory with
    | none =>
      obtain rfl := Except.ok.inj h
      exact .none
    | some t =>
      cases hexpand : Expansion.expand env t with
      | error name => simp only [ConfigFile.expandField, hexpand] at h; cases h
      | ok expanded =>
        simp only [ConfigFile.expandField, hexpand, Except.ok.injEq] at h
        exact h ▸ .some hexpand
  · intro h
    cases h with
    | some hexpand => simp only [ConfigFile.expandField, hexpand]
    | none => rfl

theorem expand_eq_ok_iff {expanded : ConfigFile} :
    file.expand env = .ok expanded ↔
      ∃ directory script, Expands env file.directory directory ∧ Expands env file.script script ∧
        expanded = { file with directory, script } := by
  constructor
  · intro h
    unfold ConfigFile.expand at h
    cases hdirectory : ConfigFile.expandField env "output.dir" file.directory with
    | error cause => simp [hdirectory, bind, Except.bind] at h
    | ok directory =>
      cases hscript : ConfigFile.expandField env "mermaid.script_url" file.script with
      | error cause => simp [hdirectory, hscript, bind, Except.bind] at h
      | ok script =>
        simp only [hdirectory, hscript, bind, Except.bind, Except.ok.injEq] at h
        exact ⟨directory, script, expandField_eq_ok_iff.1 hdirectory,
          expandField_eq_ok_iff.1 hscript, h.symm⟩
  · rintro ⟨directory, script, hdirectory, hscript, rfl⟩
    simp only [ConfigFile.expand, expandField_eq_ok_iff.2 hdirectory, expandField_eq_ok_iff.2 hscript,
      bind, Except.bind]

theorem expandField_of_lacks {t name : Text} (h : Expansion.Lacks env t name) (field : String) :
    ConfigFile.expandField env field (some t) = .error (.unset field.toList name) := by
  simp only [ConfigFile.expandField, Expansion.expand_eq_error_iff.2 h]

theorem exists_expands (h : ∀ t ∈ directory, Expansion.IsComplete env t) :
    ∃ expanded, Expands env directory expanded := by
  cases directory with
  | none => exact ⟨none, .none⟩
  | some t =>
    obtain ⟨expanded, hexpand⟩ := Expansion.exists_expand_eq_ok_iff.2 (h t rfl)
    exact ⟨some expanded, .some hexpand⟩

/-- `load` checks what `merged` puts together. -/
theorem Reads.load_eq (h : Reads fs path used file) (hdirectory : Expands env file.directory directory)
    (hscript : Expands env file.script script) (overrides : Overrides) :
    load fs env path overrides = (merged used file directory script overrides).validate := by
  have hexpand := expand_eq_ok_iff.2 ⟨directory, script, hdirectory, hscript, rfl⟩
  simp only [load, h.source_eq, hexpand, bind, Except.bind, Except.map, override_resolve]

/-- **What `load` makes of a file.** A variable that the directory lacks is reported first, and then
one that the script lacks, whatever the command line asks for. Where both are complete, the settings
are put together one by one, and the configuration that comes out of this is loaded if no violation
applies to it, and refused for the first one otherwise. -/
theorem load_merges (h : Reads fs path used file) (env : Environment) (overrides : Overrides) :
    (∀ t, file.directory = some t → ¬ Expansion.IsComplete env t →
      ∃ name, Expansion.Lacks env t name ∧
        load fs env path overrides = .error (.unset "output.dir".toList name)) ∧
    ((∀ t ∈ file.directory, Expansion.IsComplete env t) →
      ∀ t, file.script = some t → ¬ Expansion.IsComplete env t →
        ∃ name, Expansion.Lacks env t name ∧
          load fs env path overrides = .error (.unset "mermaid.script_url".toList name)) ∧
    ((∀ t ∈ file.directory, Expansion.IsComplete env t) →
      (∀ t ∈ file.script, Expansion.IsComplete env t) →
        ∃ directory script,
          Expands env file.directory directory ∧ Expands env file.script script ∧
          let config := merged used file directory script overrides
          ((∀ violation : Violation, ¬ violation.Applies config) ∧
              load fs env path overrides = .ok config) ∨
            ∃ violation : Violation, violation.IsFirst config ∧
              load fs env path overrides = .error (.invalid violation)) := by
  refine ⟨fun t hdirectory hlacks => ?_, fun hcomplete t hscript hlacks => ?_,
    fun hcomplete hcomplete' => ?_⟩
  · obtain ⟨name, hname⟩ := Expansion.exists_lacks hlacks
    refine ⟨name, hname, ?_⟩
    simp only [load, h.source_eq, ConfigFile.expand, hdirectory, expandField_of_lacks hname, bind,
      Except.bind, Except.map]
  · obtain ⟨name, hname⟩ := Expansion.exists_lacks hlacks
    obtain ⟨directory, hdirectory⟩ := exists_expands hcomplete
    refine ⟨name, hname, ?_⟩
    simp only [load, h.source_eq, ConfigFile.expand, expandField_eq_ok_iff.2 hdirectory, hscript,
      expandField_of_lacks hname, bind, Except.bind, Except.map]
  · obtain ⟨directory, hdirectory⟩ := exists_expands hcomplete
    obtain ⟨script, hscript⟩ := exists_expands hcomplete'
    refine ⟨directory, script, hdirectory, hscript, ?_⟩
    intro config
    rw [h.load_eq hdirectory hscript]
    exact validate_cases config

/-- A configuration file with a directory from the environment and a quality that JPEG does not have. -/
def overruled : FileSystem where
  current := "/w".toList
  nodes := [(["w".toList], .directory),
    (["w".toList, fileName],
      .file "output = \x7b dir = '$IMAGES', format = 'JPEG', quality = 0 \x7d".toUTF8)]

theorem exists_reads_overruled : ∃ file, Reads overruled none "/w/mermshot.toml".toList file ∧
    file.directory = some "$IMAGES".toList ∧ file.quality = some 0 ∧ file.script = none := by
  have hfields : (overruled.readText "/w/mermshot.toml".toList).toOption.bind (fun document =>
      (ConfigFile.ofText document).toOption.bind fun file =>
        some (file.directory, file.quality, file.script)) =
      some (some "$IMAGES".toList, some 0, none) := by
    decide +kernel
  obtain ⟨document, hread, hfields⟩ := exists_of_toOption_bind hfields
  obtain ⟨file, hfile, hfields⟩ := exists_of_toOption_bind hfields
  have hfound : discover? overruled overruled.current = some "/w/mermshot.toml".toList := by
    decide +kernel
  simp only [Option.some.injEq, Prod.mk.injEq] at hfields
  exact ⟨file, ⟨.inr ⟨rfl, hfound⟩, document, hread, hfile⟩, hfields⟩

/-- Without the variable the file is refused, although the command line has a directory of its own;
with it, the file is loaded once the command line has a quality of its own. -/
theorem load_overruled : ∃ file, Reads overruled none "/w/mermshot.toml".toList file ∧
    (∃ name, load overruled (.ofEntries []) none { directory := some "d".toList } =
      .error (.unset "output.dir".toList name)) ∧
    ∃ config,
      load overruled (.ofEntries ["IMAGES=i".toList]) none { quality := some 80 } = .ok config ∧
        file.quality = some 0 ∧ config.output.quality = 80 ∧
        config.output.directory = "/w/i".toList := by
  obtain ⟨file, hreads, hdirectory, hquality, hscript⟩ := exists_reads_overruled
  have hexpand : (Expansion.expand (.ofEntries ["IMAGES=i".toList]) "$IMAGES".toList).toOption =
      some "i".toList := by
    decide +kernel
  have hmissing : (Expansion.expand (.ofEntries []) "$IMAGES".toList).toOption = none := by
    decide +kernel
  have hlacks : ¬ Expansion.IsComplete (.ofEntries []) "$IMAGES".toList := by
    rw [← Expansion.exists_expand_eq_ok_iff]
    rintro ⟨expanded, h⟩
    rw [h] at hmissing
    cases hmissing
  have hcomplete : ∀ t ∈ file.directory,
      Expansion.IsComplete (.ofEntries ["IMAGES=i".toList]) t := by
    rw [hdirectory]
    rintro t ⟨rfl⟩
    obtain ⟨expanded, h, -⟩ := exists_of_toOption_bind (f := some) (by simpa using hexpand)
    exact Expansion.exists_expand_eq_ok_iff.1 ⟨expanded, h⟩
  have hloads : (load overruled (.ofEntries ["IMAGES=i".toList]) none
      { quality := some 80 }).toOption.isSome = true := by
    decide +kernel
  obtain ⟨hunset, -, -⟩ := load_merges hreads (.ofEntries []) { directory := some "d".toList }
  obtain ⟨name, -, hname⟩ := hunset _ hdirectory hlacks
  obtain ⟨-, -, hmerged⟩ :=
    load_merges hreads (.ofEntries ["IMAGES=i".toList]) { quality := some 80 }
  obtain ⟨directory, script, hdirectory', -, hresult⟩ :=
    hmerged hcomplete (by rw [hscript]; exact fun _ h => nomatch h)
  refine ⟨file, hreads, ⟨name, hname⟩, ?_⟩
  rcases hresult with ⟨-, hload⟩ | ⟨violation, -, hload⟩
  · refine ⟨_, hload, hquality, rfl, ?_⟩
    rw [hdirectory] at hdirectory'
    cases hdirectory' with
    | some h =>
      rw [h] at hexpand
      obtain rfl := Option.some.inj hexpand
      rfl
  · rw [hload] at hloads
    cases hloads

end Config
end MermaidPress
