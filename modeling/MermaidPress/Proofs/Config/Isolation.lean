/-
What the environment can do to a configuration. It is looked at in one place only, where the
variables in the directory and in the script of the file are replaced; what comes of these two texts
is put together with all else as it is. `load_eq_loadFrom` says so: the environment is gone from its
right side but for the two replacements. So two environments that agree on the variables of the two
texts load the same, and no value is looked at for variables, neither one that was put in nor one
from the command line.
-/
import MermaidPress.Proofs.Config.Precedence

namespace MermaidPress

/-! ## Replacing in one pass -/

namespace Expansion

variable {env : Environment} {t : Text} {piece : Piece} {ps : List Piece}

/-- What takes the place of a piece: of a character itself, and of a reference the value of the
variable or else the fallback, each as it is. -/
def Piece.text (env : Environment) : Piece → Text
  | literal c => [c]
  | reference name fallback => (env name).getD (fallback.getD [])

theorem fill_eq_ok (h : ∀ name, piece = .reference name none → env name ≠ none) :
    piece.fill env = .ok (piece.text env) := by
  cases piece with
  | literal c => rfl
  | reference name fallback =>
    cases hvalue : env name with
    | some value => simp only [Piece.fill, Piece.text, hvalue, Option.getD]
    | none =>
      cases fallback with
      | some text => simp only [Piece.fill, Piece.text, hvalue, Option.getD]
      | none => exact absurd hvalue (h name rfl)

theorem fillAll_eq_ok (h : ∀ name, .reference name none ∈ ps → env name ≠ none) :
    fillAll env ps = .ok (ps.flatMap (Piece.text env)) := by
  induction ps with
  | nil => rfl
  | cons piece ps ih =>
    have hfirst := fill_eq_ok fun name hpiece => h name (hpiece ▸ List.mem_cons_self)
    have hrest := ih fun name hmem => h name (List.mem_cons_of_mem _ hmem)
    simp only [fillAll, hfirst, hrest, bind, Except.bind, List.flatMap_cons]

/-- `expand` is one pass: the pieces are those of the text, whatever the values are, and the values
are not taken apart. -/
theorem expand_eq_ok (h : IsComplete env t) :
    expand env t = .ok ((pieces t).flatMap (Piece.text env)) :=
  fillAll_eq_ok h

theorem references_of_notMem (h : '$' ∉ t) : references t = [] := by
  rw [references, pieces_of_not_mem h, List.filterMap_map]
  exact List.filterMap_eq_nil_iff.2 fun c _ => rfl

end Expansion

/-! ## One way in -/

namespace Config

variable {fs : FileSystem} {env env' : Environment} {path : Option Path} {overrides : Overrides}
  {used : Path} {file : ConfigFile}

/-- A field of the file, by what comes of its text: another text, or the name of a variable that is
missing. -/
def replaced (field : String) : Option (Except Text Text) → Except ConfigError (Option Text)
  | none => .ok none
  | some (.ok expanded) => .ok (some expanded)
  | some (.error name) => .error (.unset field.toList name)

/-- What `load` makes of a file, by what comes of its directory and of its script. -/
def loadFrom (used : Path) (file : ConfigFile) (overrides : Overrides)
    (directory script : Option (Except Text Text)) : Except ConfigError Config := do
  let directory ← replaced "output.dir" directory
  let script ← replaced "mermaid.script_url" script
  (merged used file directory script overrides).validate

theorem expandField_eq_replaced (env : Environment) (field : String) (t? : Option Text) :
    ConfigFile.expandField env field t? = replaced field (t?.map (Expansion.expand env)) := by
  cases t? with
  | none => rfl
  | some t =>
    unfold ConfigFile.expandField
    cases hexpand : Expansion.expand env t <;> simp only [Option.map_some, hexpand, replaced]

/-- The environment reaches a configuration through two texts of the file, and each of them is
looked at once. -/
theorem Reads.load_eq_loadFrom (h : Reads fs path used file) (env : Environment)
    (overrides : Overrides) :
    load fs env path overrides = loadFrom used file overrides
      (file.directory.map (Expansion.expand env)) (file.script.map (Expansion.expand env)) := by
  simp only [load, h.source_eq, ConfigFile.expand, expandField_eq_replaced, loadFrom, bind,
    Except.bind]
  cases replaced "output.dir" (file.directory.map (Expansion.expand env)) with
  | error cause => rfl
  | ok directory =>
    cases replaced "mermaid.script_url" (file.script.map (Expansion.expand env)) with
    | error cause => rfl
    | ok script => exact congrArg validate (override_resolve file directory script used overrides)

theorem reads_or_source_eq (fs : FileSystem) (path : Option Path) :
    (∃ used file, Reads fs path used file) ∨ ∃ outcome, ∀ env, source fs env path = outcome := by
  have hofFile (used : Path) (hused : path = some used ∧ fs.has used = true ∨
      path = none ∧ discover? fs fs.current = some used) :
      (∃ used file, Reads fs path used file) ∨ ∃ outcome, ∀ env, ofFile fs env used = outcome := by
    cases hread : fs.readText used with
    | error cause =>
      exact .inr ⟨.error (.unreadable cause), fun env => by simp only [ofFile, hread]⟩
    | ok document =>
      cases hfile : ConfigFile.ofText document with
      | error cause =>
        exact .inr ⟨.error cause, fun env => by simp only [ofFile, hread, hfile, bind, Except.bind]⟩
      | ok file => exact .inl ⟨used, file, hused, document, hread, hfile⟩
  cases path with
  | some used =>
    cases hhas : fs.has used with
    | true => simpa only [source, hhas, if_true] using hofFile used (.inl ⟨rfl, hhas⟩)
    | false => exact .inr ⟨.error (.notFound used), fun env => by simp [source, hhas]⟩
  | none =>
    cases hfound : discover? fs fs.current with
    | some used => simpa only [source, hfound] using hofFile used (.inr ⟨rfl, hfound⟩)
    | none => exact .inr ⟨.ok (standard fs.current), fun env => by simp only [source, hfound]⟩

/-- A text of the file that is read, in which variables are replaced. -/
def HasTemplate (fs : FileSystem) (path : Option Path) (t : Text) : Prop :=
  ∃ used file, Reads fs path used file ∧ (file.directory = some t ∨ file.script = some t)

theorem load_eq_of_agree
    (h : ∀ t, HasTemplate fs path t → ∀ name ∈ Expansion.references t, env name = env' name)
    (overrides : Overrides) : load fs env path overrides = load fs env' path overrides := by
  rcases reads_or_source_eq fs path with ⟨used, file, hreads⟩ | ⟨outcome, houtcome⟩
  · have hsame (t? : Option Text) (hmem : ∀ t, t? = some t → HasTemplate fs path t) :
        t?.map (Expansion.expand env) = t?.map (Expansion.expand env') := by
      cases t? with
      | none => rfl
      | some t => exact congrArg some (Expansion.expand_eq_of_agree (h t (hmem t rfl)))
    rw [hreads.load_eq_loadFrom, hreads.load_eq_loadFrom,
      hsame file.directory fun t ht => ⟨used, file, hreads, .inl ht⟩,
      hsame file.script fun t ht => ⟨used, file, hreads, .inr ht⟩]
  · simp only [load, houtcome]

/-- **`load` sees the environment through the variables that are named.** Of two environments that
agree on the variables to which the directory and the script of the file refer, each loads what the
other does, from any files and whatever the command line asks for. Where the two texts have no `$`,
that holds of any two environments. Each of the two texts is expanded once, and what comes of them
is put together with the other settings of the file and of the command line, as these are; and
`expand` is one pass over the pieces of the text, in which a value takes the place of a reference as
it is. -/
theorem load_sees_named_variables (fs : FileSystem) (path : Option Path) (overrides : Overrides) :
    (∀ env env' : Environment,
      (∀ t, HasTemplate fs path t → ∀ name ∈ Expansion.references t, env name = env' name) →
        load fs env path overrides = load fs env' path overrides) ∧
    ((∀ t, HasTemplate fs path t → '$' ∉ t) → ∀ env env' : Environment,
      load fs env path overrides = load fs env' path overrides) ∧
    (∀ used file, Reads fs path used file → ∀ env : Environment,
      load fs env path overrides = loadFrom used file overrides
        (file.directory.map (Expansion.expand env)) (file.script.map (Expansion.expand env))) ∧
    ∀ (env : Environment) (t : Text),
      (Expansion.IsComplete env t ∧
        Expansion.expand env t = .ok ((Expansion.pieces t).flatMap (Expansion.Piece.text env))) ∨
      ∃ name, Expansion.Lacks env t name ∧ Expansion.expand env t = .error name := by
  refine ⟨fun env env' h => load_eq_of_agree h overrides, fun h env env' => ?_,
    fun used file h env => h.load_eq_loadFrom env overrides, fun env t => ?_⟩
  · refine load_eq_of_agree (fun t ht name hname => ?_) overrides
    rw [Expansion.references_of_notMem (h t ht)] at hname
    cases hname
  · by_cases hcomplete : Expansion.IsComplete env t
    · exact .inl ⟨hcomplete, Expansion.expand_eq_ok hcomplete⟩
    · obtain ⟨name, hname⟩ := Expansion.exists_lacks hcomplete
      exact .inr ⟨name, hname, Expansion.expand_eq_error_iff.2 hname⟩

/-- A configuration file whose format only looks like a variable. -/
def unexpanded : FileSystem where
  current := "/w".toList
  nodes := [(["w".toList], .directory),
    (["w".toList, fileName],
      .file "output = \x7b dir = 'i', format = '$FORMAT' \x7d".toUTF8)]

theorem hasTemplate_iff_of_reads (h : Reads fs none used file) {t : Text} :
    HasTemplate fs none t ↔ file.directory = some t ∨ file.script = some t := by
  constructor
  · rintro ⟨used', file', h', ht⟩
    obtain ⟨hnone, -⟩ | ⟨-, hused⟩ := h.isUsed
    · cases hnone
    obtain ⟨hnone, -⟩ | ⟨-, hused'⟩ := h'.isUsed
    · cases hnone
    obtain rfl := Option.some.inj (hused.symm.trans hused')
    rwa [h.unique h']
  · exact fun ht => ⟨used, file, h, ht⟩

theorem exists_reads_unexpanded : ∃ file, Reads unexpanded none "/w/mermshot.toml".toList file ∧
    file.directory = some "i".toList ∧ file.script = none := by
  have hfields : (unexpanded.readText "/w/mermshot.toml".toList).toOption.bind (fun document =>
      (ConfigFile.ofText document).toOption.bind fun file =>
        some (file.directory, file.script)) = some (some "i".toList, none) := by
    decide +kernel
  obtain ⟨document, hread, hfields⟩ := exists_of_toOption_bind hfields
  obtain ⟨file, hfile, hfields⟩ := exists_of_toOption_bind hfields
  have hfound : discover? unexpanded unexpanded.current = some "/w/mermshot.toml".toList := by
    decide +kernel
  simp only [Option.some.injEq, Prod.mk.injEq] at hfields
  exact ⟨file, ⟨.inr ⟨rfl, hfound⟩, document, hread, hfile⟩, hfields⟩

/-- A value that looks like a variable is taken as it is, so the variable of that name makes no
difference; and so does none at all where a `$` is in the format only. -/
theorem load_sees_no_other_variables :
    let env : Environment := .ofEntries ["IMAGES=$HOME".toList, "HOME=a".toList]
    let env' : Environment := .ofEntries ["IMAGES=$HOME".toList, "HOME=b".toList]
    load overruled env none { quality := some 80 } =
        load overruled env' none { quality := some 80 } ∧
      (∃ config, load overruled env none { quality := some 80 } = .ok config ∧
        config.output.directory = "/w/$HOME".toList) ∧
      ∀ env : Environment, load unexpanded env none {} =
        .error (.invalid (.unknownFormat "$format".toList)) := by
  intro env env'
  obtain ⟨file, hreads, hdirectory, -, hscript⟩ := exists_reads_overruled
  obtain ⟨hnamed, -⟩ := load_sees_named_variables overruled none { quality := some 80 }
  obtain ⟨-, hnone, -⟩ := load_sees_named_variables unexpanded none {}
  refine ⟨hnamed env env' fun t ht name hname => ?_, ?_, fun env => ?_⟩
  · rw [hasTemplate_iff_of_reads hreads, hdirectory, hscript] at ht
    obtain rfl := Option.some.inj (ht.resolve_right nofun)
    have himages : Expansion.references "$IMAGES".toList = ["IMAGES".toList] := by decide +kernel
    rw [himages, List.mem_singleton] at hname
    rw [hname]
    decide +kernel
  · have hload : (load overruled env none { quality := some 80 }).toOption.bind
        (fun config => some config.output.directory) = some "/w/$HOME".toList := by
      decide +kernel
    obtain ⟨config, hload, hdirectory⟩ := exists_of_toOption_bind hload
    exact ⟨config, hload, Option.some.inj hdirectory⟩
  · obtain ⟨file, hreads, hdirectory, hscript⟩ := exists_reads_unexpanded
    rw [hnone (fun t ht => ?_) env (.ofEntries [])]
    · have herror : (match load unexpanded (.ofEntries []) none {} with
          | .error error => some error
          | .ok _ => none) = some (.invalid (.unknownFormat "$format".toList)) := by
        decide +kernel
      cases hload : load unexpanded (.ofEntries []) none {} with
      | ok config => rw [hload] at herror; cases herror
      | error error =>
        rw [hload] at herror
        rw [Option.some.inj herror]
    · rw [hasTemplate_iff_of_reads hreads, hdirectory, hscript] at ht
      obtain rfl := Option.some.inj (ht.resolve_right nofun)
      decide

end Config
end MermaidPress
