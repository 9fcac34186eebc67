/-
What a configuration promises that `load` gives. Values come from the defaults, from a file, from
the environment and from the command line, and they are checked once, when all of them have been
put together. So a configuration that is loaded is sound, whatever its values come from, and the
conversion that is set up from it finds nothing to refuse.

The name of the format is looked at twice, by the check of the configuration and by the conversion
that reads it as a format. The two agree on every name: the check sees names in lower case, and a
name is read as a format whatever the case of its letters.
-/
import MermaidPress.CommandLine.Program
import MermaidPress.Proofs.Config.Precedence
import MermaidPress.Proofs.Path.Characters

namespace MermaidPress

/-! ## Numbers between finite bounds -/

section Between

open Float.Model

theorem unpacked_isFinite_of_between {low x high : UnpackedFloat} (hlow : low.isFinite = true)
    (hhigh : high.isFinite = true) (hle : low.le x = true) (hge : x.le high = true) :
    x.isFinite = true := by
  cases x with
  | finite => rfl
  | zero => rfl
  | notANumber => cases low <;> cases hle
  | infinity sign =>
    cases sign with
    | positive =>
      cases high with
      | finite => cases hge
      | zero => cases hge
      | notANumber => cases hge
      | infinity => cases hhigh
    | negative =>
      cases low with
      | finite => cases hle
      | zero => cases hle
      | notANumber => cases hle
      | infinity => cases hlow

end Between

theorem isFinite_of_between {low x high : Float} (hlow : low.isFinite = true)
    (hhigh : high.isFinite = true) (hle : low ≤ x) (hge : x ≤ high) : x.isFinite = true := by
  change decide (low.toModel ≤ x.toModel) = true at hle
  change decide (x.toModel ≤ high.toModel) = true at hge
  rw [decide_eq_true_iff] at hle hge
  exact unpacked_isFinite_of_between hlow hhigh hle hge

theorem isNaN_isInf_of_isFinite {x : Float} (h : x.isFinite = true) :
    x.isNaN = false ∧ x.isInf = false := by
  change x.toModel.unpack.isFinite = true at h
  change x.toModel.unpack.isNaN = false ∧ x.toModel.unpack.isInf = false
  cases hx : x.toModel.unpack with
  | finite => exact ⟨rfl, rfl⟩
  | zero => exact ⟨rfl, rfl⟩
  | notANumber => rw [hx] at h; cases h
  | infinity => rw [hx] at h; cases h

/-! ## Names of formats -/

theorem ImageFormat.ofName?_eq_some_iff {t : Text} {format : ImageFormat} :
    ofName? t = some format ↔ Text.toLowerAscii t = format.name := by
  constructor
  · intro h
    simp only [ofName?] at h
    split at h
    · rename_i hpng
      cases h
      exact hpng
    · split at h
      · rename_i hjpeg
        cases h
        exact hjpeg
      · cases h
  · intro h
    unfold ofName?
    rw [h]
    cases format <;> rfl

theorem ImageFormat.name_injective {format other : ImageFormat} (h : format.name = other.name) :
    format = other :=
  Option.some.inj ((ofName?_name format).symm.trans (h ▸ ofName?_name other))

namespace Config

/-! ## What the checks say -/

/-- All settings beside the name of the format can be used, where the images have this format. -/
structure Suits (config : Config) (format : ImageFormat) : Prop where
  directory : config.output.directory ≠ []
  quality : format = .jpeg → 1 ≤ config.output.quality ∧ config.output.quality ≤ 100
  scale : 1.0 ≤ config.output.scale ∧ config.output.scale ≤ 5.0
  script : config.script ≠ some []
  pageLoad : 0 < config.limits.pageLoad
  render : 0 < config.limits.render
  settle : 0 < config.limits.settle

/-- A configuration for images of this format, of which all settings can be used. -/
structure IsSound (config : Config) (format : ImageFormat) : Prop extends config.Suits format where
  name : config.output.format = format.name

variable {config : Config} {format : ImageFormat}

theorem Suits.isFinite_scale (h : config.Suits format) : config.output.scale.isFinite = true :=
  isFinite_of_between (by decide) (by decide) h.scale.1 h.scale.2

theorem violation?_eq_none_iff :
    config.violation? = none ↔ ∀ check ∈ config.checks, check.1 = true := by
  simp only [violation?, Option.map_eq_none_iff, List.find?_eq_none, Bool.not_eq_true',
    Bool.not_eq_false]

theorem violation?_eq_none_iff_isSound :
    config.violation? = none ↔ ∃ format, config.IsSound format := by
  rw [violation?_eq_none_iff]
  simp only [checks, List.forall_mem_cons, List.not_mem_nil, Bool.or_eq_true, Bool.and_eq_true,
    decide_eq_true_iff, Bool.not_eq_true', List.isEmpty_eq_false_iff, false_implies, implies_true]
  constructor
  · rintro ⟨directory, hname, hquality, scale, script, pageLoad, render, settle, -⟩
    have hsound (format : ImageFormat) (name : config.output.format = format.name) :
        config.IsSound format := by
      refine { directory, quality := ?_, scale, script, pageLoad, render, settle, name }
      rintro rfl
      exact hquality.resolve_left (not_not_intro name)
    rcases hname with hpng | hjpeg
    · exact ⟨.png, hsound .png hpng⟩
    · exact ⟨.jpeg, hsound .jpeg hjpeg⟩
  · rintro ⟨format, h⟩
    refine ⟨h.directory, ?_, ?_, h.scale, h.script, h.pageLoad, h.render, h.settle, trivial⟩
    · cases format with
      | png => exact .inl h.name
      | jpeg => exact .inr h.name
    · by_cases hjpeg : config.output.format = ImageFormat.jpeg.name
      · exact .inr (h.quality (ImageFormat.name_injective (h.name.symm.trans hjpeg)))
      · exact .inl hjpeg

theorem validate_eq_ok_iff {validated : Config} :
    config.validate = .ok validated ↔
      validated = config ∧ ∃ format, config.IsSound format := by
  rw [← violation?_eq_none_iff_isSound]
  unfold validate
  cases config.violation? with
  | none => simp [eq_comm]
  | some violation => simp

/-- A name in lower case passes the check where `ofName?` reads it as a format. -/
theorem exists_isSound_iff {name : Text} (h : config.output.format = Text.toLowerAscii name) :
    (∃ format, config.IsSound format) ↔
      ∃ format, ImageFormat.ofName? name = some format ∧ config.Suits format := by
  refine exists_congr fun format => ⟨fun hsound => ?_, fun ⟨hname, hsuits⟩ => ?_⟩
  · exact ⟨ImageFormat.ofName?_eq_some_iff.2 (h.symm.trans hsound.name), hsound.toSuits⟩
  · exact ⟨hsuits, h.trans (ImageFormat.ofName?_eq_some_iff.1 hname)⟩

/-! ## Where settings come from -/

variable {fs : FileSystem} {env : Environment} {path : Option Path} {overrides : Overrides}
  {settings : Config}

/-- The settings are those of the file at `used`, which is the file that is named, or else the one
that is found. It says what `file` holds, with variables that are still to be replaced. -/
structure ComesFrom (fs : FileSystem) (env : Environment) (path : Option Path) (used : Path)
    (file : ConfigFile) (settings : Config) : Prop where
  isUsed : path = some used ∧ fs.has used = true ∨
    path = none ∧ discover? fs fs.current = some used
  isRead : ∃ document, fs.readText used = .ok document ∧ ConfigFile.ofText document = .ok file
  isResolved : ∃ expanded, file.expand env = .ok expanded ∧
    settings = { expanded.resolve ((Path.parent? used).getD ['.']) with path := some used }

section ComesFrom

variable {used : Path} {file : ConfigFile}

theorem ComesFrom.reads (h : ComesFrom fs env path used file settings) : Reads fs path used file where
  isUsed := h.isUsed
  isRead := h.isRead

theorem ComesFrom.source_eq (h : ComesFrom fs env path used file settings) :
    source fs env path = .ok settings := by
  obtain ⟨expanded, hexpand, rfl⟩ := h.isResolved
  rw [h.reads.source_eq, hexpand]
  rfl

theorem ComesFrom.format_eq {name : Text} (h : ComesFrom fs env path used file settings)
    (hname : file.format = some name) : settings.output.format = Text.toLowerAscii name := by
  obtain ⟨expanded, hexpand, rfl⟩ := h.isResolved
  obtain ⟨directory, script, -, -, rfl⟩ := expand_eq_ok_iff.1 hexpand
  simp only [ConfigFile.resolve, hname, Option.map_some, Option.getD_some]

end ComesFrom

/-- Nothing is loaded but what has passed the checks, together with the command line. -/
theorem load_eq_ok_iff {config : Config} :
    load fs env path overrides = .ok config ↔
      ∃ settings, source fs env path = .ok settings ∧ config = settings.override overrides ∧
        ∃ format, config.IsSound format := by
  unfold load
  cases hsource : source fs env path with
  | error cause => simp [bind, Except.bind]
  | ok settings =>
    simp only [bind, Except.bind, validate_eq_ok_iff, Except.ok.injEq, exists_eq_left']
    refine and_congr_right fun h => ?_
    rw [h]

theorem exists_load_eq_ok_iff (h : source fs env path = .ok settings) :
    (∃ config, load fs env path overrides = .ok config) ↔
      ∃ format, (settings.override overrides).IsSound format := by
  simp [load_eq_ok_iff, h]

/-! ## What a conversion makes of a sound configuration -/

/-- `conversionOptions` sets a conversion up, and its images have a quality that a browser can be
asked for. -/
theorem IsSound.exists_conversionOptions (h : config.IsSound format) (fs : FileSystem)
    (a : CommandLine.Arguments) :
    ∃ options, CommandLine.conversionOptions fs config a = .ok options ∧
      ∀ q ∈ options.renderSpec.effectiveQuality, 1 ≤ q ∧ q ≤ 100 := by
  obtain ⟨start, habsolute, -⟩ := Path.exists_absolute?_eq fs.current h.directory
  simp only [CommandLine.conversionOptions, h.name, ImageFormat.ofName?_name, habsolute]
  refine ⟨_, rfl, fun q hq => ?_⟩
  cases format with
  | png => cases hq
  | jpeg =>
    cases hq
    exact h.quality rfl

/-- **What `load` gives is sound.** Whatever the files, the environment and the command line are, a
configuration that is loaded has a directory, one of the two formats, a quality that the format
allows, a scale from 1 to 5, a script that is not empty, and limits that are not zero. So
`conversionOptions` sets a conversion up from it, and its images have a quality that a browser can
be asked for. The name of a format, from the command line or else from the file, is accepted exactly
where `ofName?` reads it as a format, as long as the other settings suit this format. -/
theorem load_isSound (fs : FileSystem) (env : Environment) (path : Option Path)
    (overrides : Overrides) :
    (∀ config, load fs env path overrides = .ok config →
      ∃ format, config.IsSound format ∧
        (config.output.scale.isNaN = false ∧ config.output.scale.isInf = false) ∧
        ∀ a : CommandLine.Arguments, ∃ options,
          CommandLine.conversionOptions fs config a = .ok options ∧
          ∀ q ∈ options.renderSpec.effectiveQuality, 1 ≤ q ∧ q ≤ 100) ∧
    (∀ settings name, source fs env path = .ok settings → overrides.format = some name →
      ((∃ config, load fs env path overrides = .ok config) ↔
        ∃ format, ImageFormat.ofName? name = some format ∧
          (settings.override overrides).Suits format)) ∧
    ∀ used file settings name, ComesFrom fs env path used file settings →
      file.format = some name → overrides.format = none →
      ((∃ config, load fs env path overrides = .ok config) ↔
        ∃ format, ImageFormat.ofName? name = some format ∧
          (settings.override overrides).Suits format) := by
  refine ⟨fun config hload => ?_, fun settings name hsource hname => ?_,
    fun used file settings name hfile hname hnone => ?_⟩
  · obtain ⟨-, -, -, format, hsound⟩ := load_eq_ok_iff.1 hload
    exact ⟨format, hsound, isNaN_isInf_of_isFinite hsound.isFinite_scale,
      hsound.exists_conversionOptions fs⟩
  · rw [exists_load_eq_ok_iff hsource]
    exact exists_isSound_iff (by rw [override, hname]; rfl)
  · rw [exists_load_eq_ok_iff hfile.source_eq]
    refine exists_isSound_iff ?_
    rw [override, hnone]
    exact hfile.format_eq hname

/-- A configuration file with the name of a format in capitals and a directory from the
environment. -/
def configured : FileSystem where
  current := "/w".toList
  nodes := [(["w".toList], .directory),
    (["w".toList, fileName], .file "output = \x7b dir = '$IMAGES', format = 'JPEG' \x7d".toUTF8)]

/-- The environment that `configured` needs. -/
def configuredEnvironment : Environment := .ofEntries ["IMAGES=i".toList]

theorem exists_comesFrom_configured : ∃ file settings,
    ComesFrom configured configuredEnvironment none "/w/mermshot.toml".toList file settings ∧
      file.format = some "JPEG".toList := by
  have hformat : (configured.readText "/w/mermshot.toml".toList).toOption.bind (fun document =>
      (ConfigFile.ofText document).toOption.bind fun file =>
        (file.expand configuredEnvironment).toOption.bind fun _ => file.format) =
      some "JPEG".toList := by
    decide +kernel
  obtain ⟨document, hread, hformat⟩ := exists_of_toOption_bind hformat
  obtain ⟨file, hfile, hformat⟩ := exists_of_toOption_bind hformat
  obtain ⟨expanded, hexpand, hformat⟩ := exists_of_toOption_bind hformat
  have hfound : discover? configured configured.current = some "/w/mermshot.toml".toList := by
    decide +kernel
  exact ⟨file, _, ⟨.inr ⟨rfl, hfound⟩, ⟨document, hread, hfile⟩, expanded, hexpand, rfl⟩, hformat⟩

/-- The file is loaded, and with it the names `JPEG`, which it holds, and `Png`, which the command
line puts in its place, but not `webp`. -/
theorem load_configured :
    let loads (overrides : Overrides) :=
      ∃ config, load configured configuredEnvironment none overrides = .ok config
    (∃ config, load configured configuredEnvironment none {} = .ok config ∧
      config.output.directory = "/w/i".toList ∧ ∃ format, config.IsSound format) ∧
    loads { format := some "Png".toList } ∧ ¬ loads { format := some "webp".toList } ∧
    ∃ file settings,
      ComesFrom configured configuredEnvironment none "/w/mermshot.toml".toList file settings ∧
      ∃ format, ImageFormat.ofName? "JPEG".toList = some format ∧
        (settings.override {}).Suits format := by
  intro loads
  have hloads : (load configured configuredEnvironment none {}).toOption.bind
      (fun config => some config.output.directory) = some "/w/i".toList := by decide +kernel
  obtain ⟨config, hload, hdirectory⟩ := exists_of_toOption_bind hloads
  obtain ⟨file, settings, hfile, hformat⟩ := exists_comesFrom_configured
  obtain ⟨hsound, -, hnamed⟩ := load_isSound configured configuredEnvironment none {}
  obtain ⟨format, hconfig, -⟩ := hsound config hload
  obtain ⟨other, hother, hsuits⟩ := (hnamed _ _ settings _ hfile hformat rfl).1 ⟨config, hload⟩
  obtain ⟨-, hpng, -⟩ :=
    load_isSound configured configuredEnvironment none { format := some "Png".toList }
  obtain ⟨-, hwebp, -⟩ :=
    load_isSound configured configuredEnvironment none { format := some "webp".toList }
  refine ⟨⟨config, hload, Option.some.inj hdirectory, format, hconfig⟩, ?_, ?_,
    file, settings, hfile, other, hother, hsuits⟩
  · exact (hpng settings _ hfile.source_eq rfl).2 ⟨.png, by decide,
      { hsuits with quality := nofun }⟩
  · intro h
    obtain ⟨webp, hname, -⟩ := (hwebp settings _ hfile.source_eq rfl).1 h
    have hnone : ImageFormat.ofName? "webp".toList = none := by decide
    rw [hnone] at hname
    cases hname

end Config
end MermaidPress
