/-
What an operation may change. Of each place it is said whether a directory may be made there,
where nothing was, and whether a file may be written, where no directory was. Nothing is ever
removed, so directories stay: paths that led into a directory still do, and a file that no
writing reaches is read as before. Places are named by paths as the files are in the end; since
directories stay, what a whole program may change is found operation by operation.
-/
import MermaidPress.Proofs.FileSystem.Walking

namespace MermaidPress.FileSystem

variable {fs fs' fs'' : FileSystem} {path : Path} {location : Location}

/-- What may happen at one place. -/
inductive Change (made written : Prop) : Option Node → Option Node → Prop
  | kept (node : Option Node) : Change made written node node
  | made (h : made) : Change made written none (some .directory)
  | written (h : written) {node : Option Node} (hnode : node ≠ some .directory) (bytes : ByteArray) :
      Change made written node (some (.file bytes))

/-- `fs'` comes from `fs` by directories at places that are `made` and files at places that are
`written`. -/
structure Changes (made written : Location → Prop) (fs fs' : FileSystem) : Prop where
  current : fs'.current = fs.current
  place : ∀ location,
    Change (made location) (written location) (fs.find? location) (fs'.find? location)

/-! ## One change after the other -/

theorem Change.trans {made written : Prop} {a b c : Option Node} (h : Change made written a b)
    (h' : Change made written b c) : Change made written a c := by
  cases h with
  | kept => exact h'
  | made hmade =>
    cases h' with
    | kept => exact .made hmade
    | written _ hnode => exact absurd rfl hnode
  | written hwritten hnode bytes =>
    cases h' with
    | kept => exact .written hwritten hnode bytes
    | written _ _ bytes' => exact .written hwritten hnode bytes'

theorem Change.mono {made made' written written' : Prop} {a b : Option Node} (hmade : made → made')
    (hwritten : written → written') (h : Change made written a b) : Change made' written' a b := by
  cases h with
  | kept => exact .kept a
  | made h => exact .made (hmade h)
  | written h hnode bytes => exact .written (hwritten h) hnode bytes

namespace Changes

variable {made made' written written' : Location → Prop}

theorem refl (made written : Location → Prop) (fs : FileSystem) : Changes made written fs fs :=
  ⟨rfl, fun _ => .kept _⟩

theorem trans (h : Changes made written fs fs') (h' : Changes made written fs' fs'') :
    Changes made written fs fs'' :=
  ⟨h'.current.trans h.current, fun location => (h.place location).trans (h'.place location)⟩

theorem mono (hmade : ∀ location, made location → made' location)
    (hwritten : ∀ location, written location → written' location)
    (h : Changes made written fs fs') : Changes made' written' fs fs' :=
  ⟨h.current, fun location => (h.place location).mono (hmade location) (hwritten location)⟩

theorem keepsDirectories (h : Changes made written fs fs') : KeepsDirectories fs fs' where
  current := h.current
  directory location hlocation := by
    have hplace := h.place location
    rw [hlocation] at hplace
    generalize fs'.find? location = node at hplace
    cases hplace with
    | kept => rfl
    | written _ hnode => exact absurd rfl hnode

theorem find?_file (h : Changes made written fs fs') (hwritten : ¬ written location)
    {bytes : ByteArray} (hlocation : fs.find? location = some (.file bytes)) :
    fs'.find? location = some (.file bytes) := by
  have hplace := h.place location
  rw [hlocation] at hplace
  generalize fs'.find? location = node at hplace
  cases hplace with
  | kept => rfl
  | written hhere => exact absurd hhere hwritten

/-- A file that no writing reaches is read as before. -/
theorem readBytes (h : Changes made written fs fs') (hpath : fs.LeadsTo path location)
    (hwritten : ¬ written location) {bytes : ByteArray} (hread : fs.readBytes path = .ok bytes) :
    fs'.readBytes path = .ok bytes := by
  unfold FileSystem.readBytes stat at hread ⊢
  rcases hpath with hlocate | ⟨old, hlocate⟩
  · rw [hlocate] at hread
    cases hread
  · have hfound : fs.find? location = some (.file old) :=
      find?_of_walk.2 old (walk_of_locate hlocate)
    have hstays := h.find?_file hwritten hfound
    rw [hlocate] at hread
    rw [LeadsTo.locate_of_keepsDirectories (.inr ⟨old, hlocate⟩) h.keepsDirectories hstays]
    exact hread

end Changes

/-! ## Places -/

/-- A kind of places in a file system. What is of the kind stays so where directories are kept. -/
structure Places where
  Has : FileSystem → Location → Prop
  mono : ∀ {fs fs' : FileSystem}, KeepsDirectories fs fs' → ∀ location, Has fs location →
    Has fs' location

namespace Places

/-- No place. -/
def none : Places := ⟨fun _ _ => False, fun _ _ h => h⟩

/-- The places of either kind. -/
def or (places places' : Places) : Places :=
  ⟨fun fs location => places.Has fs location ∨ places'.Has fs location,
    fun hkeeps location => Or.imp (places.mono hkeeps location) (places'.mono hkeeps location)⟩

/-- The directories that the paths lead into. -/
def directories (paths : List Path) : Places where
  Has fs location := ∃ path ∈ paths, fs.LeadsInto path location
  mono hkeeps _ := fun ⟨path, hmem, h⟩ => ⟨path, hmem, h.mono hkeeps⟩

/-- The places of these names in the directory that the path leads into. -/
def inside (path : Path) (names : List Text) : Places where
  Has fs location := ∃ directory, fs.LeadsInto path directory ∧ ∃ name ∈ names,
    location = directory ++ [name]
  mono hkeeps _ := fun ⟨directory, h, hname⟩ => ⟨directory, h.mono hkeeps, hname⟩

end Places

/-- `fs'` comes from `fs` by directories and files at places of these kinds, as they are in the
end. -/
def Touches (made written : Places) (fs fs' : FileSystem) : Prop :=
  Changes (made.Has fs') (written.Has fs') fs fs'

namespace Touches

variable {made made' written written' : Places}

theorem refl (made written : Places) (fs : FileSystem) : Touches made written fs fs :=
  Changes.refl _ _ fs

/-- What is touched in two parts: places of the first are still of their kind after the second. -/
theorem trans (h : Touches made written fs fs') (h' : Touches made written fs' fs'') :
    Touches made written fs fs'' :=
  (h.mono (made.mono h'.keepsDirectories) (written.mono h'.keepsDirectories)).trans h'

theorem mono (hmade : ∀ fs location, made.Has fs location → made'.Has fs location)
    (hwritten : ∀ fs location, written.Has fs location → written'.Has fs location)
    (h : Touches made written fs fs') : Touches made' written' fs fs' :=
  Changes.mono (hmade fs') (hwritten fs') h

end Touches

/-! ## Files -/

theorem keepsDirectories_writeBytes {bytes : ByteArray} (h : fs.writeBytes path bytes = .ok fs') :
    KeepsDirectories fs fs' := by
  obtain ⟨location, hpath, -, rfl⟩ := writeBytes_eq_ok h
  exact keepsDirectories_put hpath.ne_directory _

/-- `writeBytes` touches the place of the file's name, in the directory that the rest of its path
leads into. -/
theorem touches_writeBytes (made : Places) {base : Path} {name : Text} (hname : Path.IsName name)
    {bytes : ByteArray} (h : fs.writeBytes (Path.join base name) bytes = .ok fs') :
    Touches made (.inside base [name]) fs fs' := by
  have hkeeps := keepsDirectories_writeBytes h
  obtain ⟨location, hpath, -, rfl⟩ := writeBytes_eq_ok h
  refine ⟨current_put fs location _, fun other => ?_⟩
  by_cases heq : other = location
  · subst heq
    obtain ⟨directory, hdirectory, hlocation⟩ := hpath.of_join hname
    rw [find?_put_self fs hpath.ne_nil]
    exact .written ⟨directory, hdirectory.mono hkeeps, name, List.mem_singleton_self name, hlocation⟩
      hpath.ne_directory bytes
  · rw [find?_put_other fs heq]
    exact .kept _

/-! ## Directories -/

/-- A directory that `makeDirectory` made is where its path leads, and nothing was there before. -/
theorem touches_makeDirectory (written : Places) (h : fs.makeDirectory path = .ok fs') :
    Touches (.directories [path]) written fs fs' := by
  unfold makeDirectory at h
  cases hlocate : fs.locate path with
  | error e =>
    rw [hlocate] at h
    cases h
  | ok target =>
    rw [hlocate] at h
    cases target with
    | existing location node => cases h
    | vacant location =>
      obtain rfl := Except.ok.inj h
      have hpath : fs.LeadsTo path location := .inl hlocate
      have hvacant : fs.find? location = none := find?_of_walk.1 (walk_of_locate hlocate)
      refine ⟨current_put fs location _, fun other => ?_⟩
      by_cases heq : other = location
      · subst heq
        rw [find?_put_self fs hpath.ne_nil, hvacant]
        exact .made ⟨path, List.mem_singleton_self path, hpath.leadsInto_put⟩
      · rw [find?_put_other fs heq]
        exact .kept _

theorem touches_ensureDirectory (written : Places) (fs : FileSystem) (path : Path) :
    Touches (.directories [path]) written fs (fs.ensureDirectory path).2 := by
  unfold ensureDirectory
  split
  · exact touches_makeDirectory written ‹_›
  · exact .refl _ _ fs

theorem Places.directories_subset {paths paths' : List Path} (h : paths ⊆ paths') (fs : FileSystem)
    (location : Location) (hhas : (directories paths).Has fs location) :
    (directories paths').Has fs location := by
  obtain ⟨path, hmem, hpath⟩ := hhas
  exact ⟨path, h hmem, hpath⟩

/-- `makeChain` touches where the paths of the chain lead, also where it fails. -/
theorem touches_makeChain (written : Places) (fs : FileSystem) (paths : List Path) :
    Touches (.directories paths) written fs (fs.makeChain paths).2 := by
  fun_induction makeChain fs paths with
  | case1 | case2 => exact .refl _ _ _
  | case3 path above _ _ made hmade ih =>
    rw [hmade] at ih
    have habove := ih.mono (Places.directories_subset (List.subset_cons_self path above))
      fun _ _ h => h
    have hlast := (touches_ensureDirectory written made path).mono
      (Places.directories_subset (List.cons_subset_cons path (List.nil_subset above)))
      fun _ _ h => h
    exact habove.trans hlast
  | case4 path above _ _ _ ih =>
    exact ih.mono (Places.directories_subset (List.subset_cons_self path above)) fun _ _ h => h
  | case5 path above =>
    exact (touches_ensureDirectory written fs path).mono
      (Places.directories_subset (List.cons_subset_cons path (List.nil_subset above)))
      fun _ _ h => h

theorem touches_makeDirectories (written : Places) (fs : FileSystem) (path : Path) :
    Touches (.directories (Path.ancestors path)) written fs (fs.makeDirectories path).2 :=
  touches_makeChain written fs _

end MermaidPress.FileSystem
