/-
Writing and reading back. Putting a node at a location changes what is found there and nowhere
else. A path that leads to a file, or to a place where one may be made, leads there still
when a file has been put: the directories on the way are not that location. So a written file
is read as it was written.
-/
import MermaidPress.FileSystem.Basic

namespace MermaidPress.FileSystem

/-! ## One node -/

@[simp] theorem current_put (fs : FileSystem) (location : Location) (node : Node) :
    (fs.put location node).current = fs.current := by
  unfold put
  split <;> rfl

/-- The entry in the place of one at `location`. -/
def replacedAt (location : Location) (node : Node) (entry : Location × Node) : Location × Node :=
  if entry.1 = location then (location, node) else entry

theorem fst_replacedAt (location : Location) (node : Node) (entry : Location × Node) :
    (replacedAt location node entry).1 = entry.1 := by
  unfold replacedAt
  split
  · exact (‹entry.1 = location›).symm
  · rfl

theorem find?_map_replacedAt (nodes : List (Location × Node)) (location other : Location)
    (node : Node) :
    (nodes.map (replacedAt location node)).find? (fun entry => entry.1 = other) =
      (nodes.find? fun entry => entry.1 = other).map (replacedAt location node) := by
  rw [List.find?_map]
  congr 2
  funext entry
  simp only [Function.comp_apply, fst_replacedAt]

theorem find?_put_self (fs : FileSystem) {location : Location} (h : location ≠ []) (node : Node) :
    (fs.put location node).find? location = some node := by
  unfold put find?
  rw [if_neg h]
  split
  · rename_i hany
    obtain ⟨entry, hentry⟩ := Option.isSome_iff_exists.1 (List.find?_isSome.2 (List.any_eq_true.1 hany))
    have hkey : entry.1 = location := by simpa using List.find?_some hentry
    have := find?_map_replacedAt fs.nodes location location node
    unfold replacedAt at this
    rw [this, hentry, Option.map_some, if_pos hkey]
    rfl
  · rename_i hany
    have hnone : fs.nodes.find? (fun entry => entry.1 = location) = none :=
      List.find?_eq_none.2 fun entry he hkey => hany (List.any_eq_true.2 ⟨entry, he, hkey⟩)
    rw [List.find?_append, hnone]
    simp

theorem find?_put_other (fs : FileSystem) {location other : Location} (h : other ≠ location)
    (node : Node) : (fs.put location node).find? other = fs.find? other := by
  unfold put find?
  split
  · rfl
  · split
    · have := find?_map_replacedAt fs.nodes location other node
      unfold replacedAt at this
      rw [this]
      cases hentry : fs.nodes.find? (fun entry => entry.1 = other) with
      | none => rfl
      | some entry =>
        have hkey : entry.1 = other := by simpa using List.find?_some hentry
        rw [Option.map_some, if_neg (hkey ▸ h)]
    · rw [List.find?_append]
      simp [Ne.symm h]

/-! ## The way to a node -/

theorem find?_of_walk {fs : FileSystem} {directory location : Location} {path : List Text} :
    (fs.walk directory path = .ok (.vacant location) → fs.find? location = none) ∧
    ∀ bytes, fs.walk directory path = .ok (.existing location (.file bytes)) →
      fs.find? location = some (.file bytes) := by
  fun_induction FileSystem.walk fs directory path with
  | case1 => simp
  | case2 _ _ _ _ ih | case3 _ _ _ ih | case5 _ _ _ _ _ _ _ _ ih => exact ih
  | case4 | case7 | case9 => simp
  | case6 directory piece rest _ _ _ here isLast node _ hfound =>
    refine ⟨nofun, fun bytes h => ?_⟩
    obtain ⟨rfl, rfl⟩ := Target.existing.inj (Except.ok.inj h)
    exact hfound
  | case8 directory piece rest _ _ _ here isLast hfound =>
    refine ⟨fun h => ?_, nofun⟩
    obtain rfl := Target.vacant.inj (Except.ok.inj h)
    exact hfound

theorem walk_cons_of_file {fs : FileSystem} {directory : Location} {piece : Text} {rest : List Text}
    {bytes : ByteArray} (hskip : ¬ (piece = [] || piece = ['.']) = true) (hup : piece ≠ ['.', '.'])
    (hshort : ¬ longestName < Text.byteLength piece) (hlast : rest.all (· = []) = true)
    (h : fs.find? (directory ++ [piece]) = some (.file bytes)) :
    fs.walk directory (piece :: rest) = .ok (.existing (directory ++ [piece]) (.file bytes)) := by
  rw [walk, if_neg hskip, if_neg hup, if_neg hshort]
  simp only [h, hlast, if_true]

/-- The directories of `fs` are directories of `fs'`. -/
structure KeepsDirectories (fs fs' : FileSystem) : Prop where
  current : fs'.current = fs.current
  directory : ∀ location, fs.find? location = some .directory → fs'.find? location = some .directory

theorem keepsDirectories_put {fs : FileSystem} {location : Location}
    (h : fs.find? location ≠ some .directory) (node : Node) :
    KeepsDirectories fs (fs.put location node) where
  current := current_put fs location node
  directory other hother := by
    have hne : other ≠ location := fun heq => h (heq ▸ hother)
    rw [find?_put_other fs hne, hother]

/-- A way to a file, or to where one may be, leads to the file that is there in any file system that
has the directories on the way. -/
theorem walk_of_keepsDirectories {fs fs' : FileSystem} (h : KeepsDirectories fs fs')
    {location : Location} {bytes : ByteArray} (hfile : fs'.find? location = some (.file bytes))
    {directory : Location} {path : List Text} {target : Target}
    (hwalk : fs.walk directory path = .ok target)
    (htarget : target = .vacant location ∨ ∃ old, target = .existing location (.file old)) :
    fs'.walk directory path = .ok (.existing location (.file bytes)) := by
  fun_induction FileSystem.walk fs directory path with
  | case1 directory =>
    obtain rfl := Except.ok.inj hwalk
    simp at htarget
  | case2 directory piece rest hskip ih =>
    rw [walk, if_pos hskip]
    exact ih hwalk
  | case3 directory rest hskip ih =>
    rw [walk, if_neg hskip, if_pos rfl]
    exact ih hwalk
  | case4 | case7 | case9 => cases hwalk
  | case5 directory piece rest hskip hup hshort here hdir ih =>
    have hdir' := h.directory here hdir
    rw [walk, if_neg hskip, if_neg hup, if_neg hshort]
    simp only [here] at hdir'
    simp only [hdir']
    exact ih hwalk
  | case6 directory piece rest hskip hup hshort here isLast node hnode hfound hlast =>
    obtain rfl := Except.ok.inj hwalk
    obtain rfl : directory ++ [piece] = location := by
      rcases htarget with htarget | ⟨old, htarget⟩
      · cases htarget
      · exact (Target.existing.inj htarget).1
    exact walk_cons_of_file hskip hup hshort hlast hfile
  | case8 directory piece rest hskip hup hshort here isLast hfound hlast =>
    obtain rfl := Except.ok.inj hwalk
    obtain rfl : directory ++ [piece] = location := by
      rcases htarget with htarget | ⟨old, htarget⟩
      · exact Target.vacant.inj htarget
      · cases htarget
    exact walk_cons_of_file hskip hup hshort hlast hfile

/-! ## Files -/

/-- Where `walk` makes the first step of a path from. -/
def origin (fs : FileSystem) (path : Path) : Location :=
  if Path.isAbsolute path then [] else nominal fs.current

/-- `locate` walks a path from its `origin`. -/
theorem walk_of_locate {fs : FileSystem} {path : Path} {target : Target}
    (h : fs.locate path = .ok target) :
    fs.walk (fs.origin path) (pieces path) = .ok target := by
  unfold locate at h
  split at h
  · cases h
  · split at h
    · cases h
    · split at h
      · cases h
      · exact h

/-- The path leads to a file, or to where one may be made. -/
def LeadsTo (fs : FileSystem) (path : Path) (location : Location) : Prop :=
  fs.locate path = .ok (.vacant location) ∨
    ∃ bytes, fs.locate path = .ok (.existing location (.file bytes))

/-- `writeBytes` puts the file where its path `LeadsTo`. -/
theorem writeBytes_eq_ok {fs files : FileSystem} {path : Path} {bytes : ByteArray}
    (h : fs.writeBytes path bytes = .ok files) :
    ∃ location, fs.LeadsTo path location ∧ asksForDirectory path = false ∧
      files = fs.put location (.file bytes) := by
  unfold writeBytes at h
  cases hlocate : fs.locate path with
  | error e =>
    rw [hlocate] at h
    cases h
  | ok target =>
    rw [hlocate] at h
    simp only [bind, Except.bind] at h
    split at h
    · cases h
    · rename_i location old
      split at h
      · cases h
      · exact ⟨location, .inr ⟨old, hlocate⟩, Bool.eq_false_iff.2 ‹_›, (Except.ok.inj h).symm⟩
    · rename_i location
      split at h
      · cases h
      · exact ⟨location, .inl hlocate, Bool.eq_false_iff.2 ‹_›, (Except.ok.inj h).symm⟩

theorem LeadsTo.locate_of_keepsDirectories {fs fs' : FileSystem} {path : Path} {location : Location}
    (hpath : fs.LeadsTo path location) (h : KeepsDirectories fs fs') {bytes : ByteArray}
    (hfile : fs'.find? location = some (.file bytes)) :
    fs'.locate path = .ok (.existing location (.file bytes)) := by
  unfold LeadsTo locate at hpath
  unfold locate
  rw [h.current]
  split
  · simp_all
  · split
    · simp_all
    · split
      · simp_all
      · rename_i h₁ h₂ h₃
        simp only [if_neg h₁, if_neg h₂, if_neg h₃] at hpath
        rcases hpath with hpath | ⟨old, hpath⟩
        · exact walk_of_keepsDirectories h hfile hpath (.inl rfl)
        · exact walk_of_keepsDirectories h hfile hpath (.inr ⟨old, rfl⟩)

theorem LeadsTo.ne_directory {fs : FileSystem} {path : Path} {location : Location}
    (h : fs.LeadsTo path location) : fs.find? location ≠ some .directory := by
  rcases h with h | ⟨bytes, h⟩
  · simp [find?_of_walk.1 (walk_of_locate h)]
  · simp [find?_of_walk.2 bytes (walk_of_locate h)]

/-- The root is always a directory, so no path leads to a file there. -/
theorem LeadsTo.ne_nil {fs : FileSystem} {path : Path} {location : Location}
    (h : fs.LeadsTo path location) : location ≠ [] := fun heq =>
  h.ne_directory (heq ▸ rfl)

theorem exists_leadsTo_of_readBytes {fs : FileSystem} {path : Path} {bytes : ByteArray}
    (h : fs.readBytes path = .ok bytes) : ∃ location, fs.LeadsTo path location := by
  unfold readBytes stat at h
  cases hlocate : fs.locate path with
  | error e =>
    rw [hlocate] at h
    cases h
  | ok target =>
    cases target with
    | vacant location => exact ⟨location, .inl hlocate⟩
    | existing location node =>
      cases node with
      | file old => exact ⟨location, .inr ⟨old, hlocate⟩⟩
      | directory =>
        rw [hlocate] at h
        cases h

theorem exists_readBytes_of_readText {fs : FileSystem} {path : Path} {text : Text}
    (h : fs.readText path = .ok text) : ∃ bytes, fs.readBytes path = .ok bytes := by
  unfold readText at h
  cases hbytes : fs.readBytes path with
  | ok bytes => exact ⟨bytes, rfl⟩
  | error e =>
    rw [hbytes] at h
    cases h

/-- **`readBytes` gives what `writeBytes` wrote.** -/
theorem readBytes_of_writeBytes {fs files : FileSystem} {path : Path} {bytes : ByteArray}
    (h : fs.writeBytes path bytes = .ok files) : files.readBytes path = .ok bytes := by
  obtain ⟨location, hleads, hfile, rfl⟩ := writeBytes_eq_ok h
  unfold readBytes stat
  rw [hleads.locate_of_keepsDirectories (keepsDirectories_put hleads.ne_directory _)
    (find?_put_self fs hleads.ne_nil _)]
  simp [bind, Except.bind, hfile]

theorem readText_of_writeText {fs files : FileSystem} {path : Path} {text : Text}
    (h : fs.writeText path text = .ok files) : files.readText path = .ok text := by
  unfold readText
  rw [readBytes_of_writeBytes h]
  have hutf8 : String.fromUTF8? (String.ofList text).toUTF8 = some (String.ofList text) :=
    dif_pos (String.ofList text).isValidUTF8
  simp only [bind, Except.bind, hutf8, String.toList_ofList]

/-! ## The current directory -/

theorem current_of_writeBytes {fs files : FileSystem} {path : Path} {bytes : ByteArray}
    (h : fs.writeBytes path bytes = .ok files) : files.current = fs.current := by
  obtain ⟨location, -, -, rfl⟩ := writeBytes_eq_ok h
  exact current_put fs location _

theorem current_of_makeDirectory {fs files : FileSystem} {path : Path}
    (h : fs.makeDirectory path = .ok files) : files.current = fs.current := by
  unfold makeDirectory at h
  cases hlocate : fs.locate path with
  | error e =>
    rw [hlocate] at h
    cases h
  | ok target =>
    rw [hlocate] at h
    cases target with
    | existing location node => cases h
    | vacant location =>
      obtain rfl := Except.ok.inj h
      exact current_put fs location _

@[simp] theorem current_ensureDirectory (fs : FileSystem) (path : Path) :
    (fs.ensureDirectory path).2.current = fs.current := by
  unfold ensureDirectory
  split
  · exact current_of_makeDirectory ‹_›
  · rfl

@[simp] theorem current_makeChain (fs : FileSystem) (paths : List Path) :
    (fs.makeChain paths).2.current = fs.current := by
  fun_induction makeChain fs paths with
  | case1 | case2 => rfl
  | case3 path above _ _ made hmade ih =>
    rw [hmade] at ih
    rw [current_ensureDirectory, ih]
  | case4 _ _ _ _ _ ih => exact ih
  | case5 => exact current_ensureDirectory fs _

@[simp] theorem current_makeDirectories (fs : FileSystem) (path : Path) :
    (fs.makeDirectories path).2.current = fs.current := current_makeChain fs _

end MermaidPress.FileSystem
