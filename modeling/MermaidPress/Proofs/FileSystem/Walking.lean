/-
Where paths lead. A walk that ends at a directory has passed through directories alone, and it
takes the components of the path one by one: pieces that stand for nothing take it nowhere. So
the last component of a path to a file is the last name of the file's location, and the parent
of the path leads into the directory that the file is in.
-/
import MermaidPress.Proofs.FileSystem.Writing
import MermaidPress.Proofs.Path.Parent

namespace MermaidPress.FileSystem

open MermaidPress.Path (Component later componentOf? IsName)

variable {fs fs' : FileSystem} {path : Path} {start directory location : Location}

/-! ## Walks through directories -/

/-- The pieces take a walk from one directory to another. -/
def Passes (fs : FileSystem) (start : Location) (names : List Text) (directory : Location) : Prop :=
  fs.walk start names = .ok (.existing directory .directory)

theorem passes_nil_iff : Passes fs start [] directory ↔ directory = start := by
  unfold Passes walk
  simp [eq_comm]

theorem passes_idle_iff {piece : Text} (h : componentOf? piece = none) (rest : List Text) :
    Passes fs start (piece :: rest) directory ↔ Passes fs start rest directory := by
  have hskip : (piece = [] || piece = ['.']) = true := by simpa using Path.componentOf?_eq_none h
  unfold Passes
  rw [walk, if_pos hskip]

theorem passes_up_iff (rest : List Text) :
    Passes fs start (['.', '.'] :: rest) directory ↔ Passes fs start.dropLast rest directory := by
  unfold Passes
  rw [walk, if_neg (by decide), if_pos rfl]

theorem ne_of_componentOf? {name : Text} (h : componentOf? name = some (.name name)) :
    ¬ (name = [] || name = ['.']) = true ∧ name ≠ ['.', '.'] := by
  constructor
  · intro hname
    rcases Bool.or_eq_true_iff.1 hname with hname | hname
    · obtain rfl := of_decide_eq_true hname
      cases h
    · obtain rfl := of_decide_eq_true hname
      cases h
  · rintro rfl
    cases h

theorem passes_down_iff {name : Text} (h : componentOf? name = some (.name name))
    (rest : List Text) :
    Passes fs start (name :: rest) directory ↔
      Text.byteLength name ≤ longestName ∧ fs.find? (start ++ [name]) = some .directory ∧
        Passes fs (start ++ [name]) rest directory := by
  obtain ⟨hskip, hup⟩ := ne_of_componentOf? h
  unfold Passes
  rw [walk, if_neg hskip, if_neg hup]
  by_cases hlong : longestName < Text.byteLength name
  · have : ¬ Text.byteLength name ≤ longestName := by omega
    simp [hlong, this]
  · have hshort : Text.byteLength name ≤ longestName := by omega
    rw [if_neg hlong]
    dsimp only
    cases hfind : fs.find? (start ++ [name]) with
    | none =>
      dsimp only
      split <;> simp
    | some node =>
      cases node with
      | directory => simp [hshort]
      | file bytes =>
        dsimp only
        split <;> simp

/-- A piece stands for nothing, for the way up, or for itself. -/
theorem componentOf?_cases (piece : Text) :
    componentOf? piece = none ∨ piece = ['.', '.'] ∨ componentOf? piece = some (.name piece) := by
  cases h : componentOf? piece with
  | none => exact .inl rfl
  | some component =>
    obtain ⟨htext, hroot, hcurrent, -⟩ := Path.componentOf?_eq_some h
    cases component with
    | root => exact absurd rfl hroot
    | current => exact absurd rfl hcurrent
    | parent => exact .inr (.inl htext.symm)
    | name name =>
      obtain rfl : name = piece := htext
      exact .inr (.inr rfl)

/-- A walk through directories follows the components, whatever stands between them. -/
theorem passes_components_iff (names : List Text) :
    Passes fs start names directory ↔
      Passes fs start ((names.filterMap componentOf?).map Component.text) directory := by
  induction names generalizing start with
  | nil => rfl
  | cons piece rest ih =>
    rcases componentOf?_cases piece with h | rfl | h
    · rw [passes_idle_iff h, List.filterMap_cons_none h, ih]
    · have hup : componentOf? ['.', '.'] = some .parent := rfl
      rw [passes_up_iff, List.filterMap_cons_some hup, List.map_cons, ih]
      exact (passes_up_iff _).symm
    · rw [passes_down_iff h, List.filterMap_cons_some h, List.map_cons, ih]
      exact (passes_down_iff h _).symm

theorem Passes.concat {names : List Text} {name : Text} (h : Passes fs start names directory)
    (hname : componentOf? name = some (.name name)) (hshort : Text.byteLength name ≤ longestName)
    (hdirectory : fs.find? (directory ++ [name]) = some .directory) :
    Passes fs start (names ++ [name]) (directory ++ [name]) := by
  induction names generalizing start with
  | nil =>
    obtain rfl := passes_nil_iff.1 h
    exact (passes_down_iff hname []).2 ⟨hshort, hdirectory, passes_nil_iff.2 rfl⟩
  | cons piece rest ih =>
    rw [List.cons_append]
    rcases componentOf?_cases piece with hpiece | rfl | hpiece
    · exact (passes_idle_iff hpiece _).2 (ih ((passes_idle_iff hpiece _).1 h))
    · exact (passes_up_iff _).2 (ih ((passes_up_iff _).1 h))
    · obtain ⟨hlength, hfind, hrest⟩ := (passes_down_iff hpiece _).1 h
      exact (passes_down_iff hpiece _).2 ⟨hlength, hfind, ih hrest⟩

/-- A walk through directories can be taken wherever these are kept. -/
theorem Passes.mono {names : List Text} (hkeeps : KeepsDirectories fs fs')
    (h : Passes fs start names directory) : Passes fs' start names directory := by
  induction names generalizing start with
  | nil => exact passes_nil_iff.2 (passes_nil_iff.1 h)
  | cons piece rest ih =>
    rcases componentOf?_cases piece with hpiece | rfl | hpiece
    · exact (passes_idle_iff hpiece _).2 (ih ((passes_idle_iff hpiece _).1 h))
    · exact (passes_up_iff _).2 (ih ((passes_up_iff _).1 h))
    · obtain ⟨hlength, hfind, hrest⟩ := (passes_down_iff hpiece _).1 h
      exact (passes_down_iff hpiece _).2 ⟨hlength, hkeeps.directory _ hfind, ih hrest⟩

theorem componentOf?_of_ne {piece : Text} (hidle : ¬ (piece = [] || piece = ['.']) = true)
    (hup : piece ≠ ['.', '.']) : componentOf? piece = some (.name piece) := by
  rcases componentOf?_cases piece with h | h | h
  · exact absurd (by simpa using Path.componentOf?_eq_none h) hidle
  · exact absurd h hup
  · exact h

/-- The walk `Passes` to a directory and ends with a step to a name; no piece that says anything
follows. -/
def EndsAt (fs : FileSystem) (start : Location) (names : List Text) (location : Location) : Prop :=
  ∃ before name behind directory, names = before ++ name :: behind ∧
    (∀ piece ∈ behind, piece = []) ∧ componentOf? name = some (.name name) ∧
    Text.byteLength name ≤ longestName ∧ Passes fs start before directory ∧
    location = directory ++ [name]

theorem EndsAt.cons {piece : Text} {rest : List Text} {next : Location}
    (hstep : ∀ before directory, Passes fs next before directory →
      Passes fs start (piece :: before) directory)
    (h : EndsAt fs next rest location) : EndsAt fs start (piece :: rest) location := by
  obtain ⟨before, name, behind, directory, rfl, hbehind, hname, hshort, hpasses, hlocation⟩ := h
  exact ⟨piece :: before, name, behind, directory, rfl, hbehind, hname, hshort,
    hstep before directory hpasses, hlocation⟩

theorem endsAt_last {name : Text} {rest : List Text} (hname : componentOf? name = some (.name name))
    (hshort : Text.byteLength name ≤ longestName) (hrest : rest.all (· = []) = true) :
    EndsAt fs start (name :: rest) (start ++ [name]) :=
  ⟨[], name, rest, start, rfl, by simpa using hrest, hname, hshort, passes_nil_iff.2 rfl, rfl⟩

/-- The last step to a file, or to where one may be, is one from a directory to a name. -/
theorem endsAt_of_walk {names : List Text} {target : Target}
    (hwalk : fs.walk start names = .ok target)
    (htarget : target = .vacant location ∨ ∃ bytes, target = .existing location (.file bytes)) :
    EndsAt fs start names location := by
  fun_induction FileSystem.walk fs start names with
  | case1 start =>
    obtain rfl := Except.ok.inj hwalk
    simp at htarget
  | case2 start piece rest hidle ih =>
    have hnone : componentOf? piece = none := by
      rcases Bool.or_eq_true_iff.1 hidle with h | h <;> rw [of_decide_eq_true h] <;> rfl
    exact (ih hwalk).cons fun _ _ => (passes_idle_iff hnone _).2
  | case3 start rest _ ih => exact (ih hwalk).cons fun _ _ => (passes_up_iff _).2
  | case4 | case7 | case9 => cases hwalk
  | case5 start piece rest hidle hup hlong here hdirectory ih =>
    exact (ih hwalk).cons fun _ _ hpasses => (passes_down_iff (componentOf?_of_ne hidle hup) _).2
      ⟨Nat.le_of_not_lt hlong, hdirectory, hpasses⟩
  | case6 start piece rest hidle hup hlong here isLast node _ _ hlast =>
    obtain rfl := Except.ok.inj hwalk
    obtain rfl : start ++ [piece] = location := by
      rcases htarget with htarget | ⟨bytes, htarget⟩
      · cases htarget
      · exact (Target.existing.inj htarget).1
    exact endsAt_last (componentOf?_of_ne hidle hup) (Nat.le_of_not_lt hlong) hlast
  | case8 start piece rest hidle hup hlong here isLast _ hlast =>
    obtain rfl := Except.ok.inj hwalk
    obtain rfl : start ++ [piece] = location := by
      rcases htarget with htarget | ⟨bytes, htarget⟩
      · exact Target.vacant.inj htarget
      · cases htarget
    exact endsAt_last (componentOf?_of_ne hidle hup) (Nat.le_of_not_lt hlong) hlast

/-! ## Paths -/

/-- Seen as one to a directory, the path leads there; the empty path is the current directory. -/
def LeadsInto (fs : FileSystem) (path : Path) (directory : Location) : Prop :=
  fs.walk (fs.origin path) (pieces path) = .ok (.existing directory .directory)

/-- A path leads into a directory by its components. -/
theorem leadsInto_iff : fs.LeadsInto path directory ↔
    Passes fs (fs.origin path) ((later path).map Component.text) directory := by
  rw [Path.later_eq_filterMap]
  exact passes_components_iff _

theorem LeadsInto.unique {other : Location} (h : fs.LeadsInto path directory)
    (h' : fs.LeadsInto path other) : directory = other := by
  have heq := h.symm.trans h'
  exact (Target.existing.inj (Except.ok.inj heq)).1

theorem LeadsInto.mono (hkeeps : KeepsDirectories fs fs') (h : fs.LeadsInto path directory) :
    fs'.LeadsInto path directory := by
  unfold LeadsInto origin at *
  rw [hkeeps.current]
  exact Passes.mono hkeeps h

/-- The last component of a path to a file is the last name of where it is, and those before it lead
to the directory that it is in. -/
theorem LeadsTo.exists_components (h : fs.LeadsTo path location) :
    ∃ earlier name directory, later path = earlier ++ [.name name] ∧
      Text.byteLength name ≤ longestName ∧
      Passes fs (fs.origin path) (earlier.map Component.text) directory ∧
      location = directory ++ [name] := by
  have hends : EndsAt fs (fs.origin path) (pieces path) location := by
    rcases h with h | ⟨bytes, h⟩
    · exact endsAt_of_walk (walk_of_locate h) (.inl rfl)
    · exact endsAt_of_walk (walk_of_locate h) (.inr ⟨bytes, rfl⟩)
  obtain ⟨before, name, behind, directory, hpieces, hbehind, hname, hshort, hpasses, hlocation⟩ :=
    hends
  refine ⟨before.filterMap componentOf?, name, directory, ?_, hshort,
    (passes_components_iff before).1 hpasses, hlocation⟩
  have hidle : behind.filterMap componentOf? = [] :=
    List.filterMap_eq_nil_iff.2 fun piece hmem => by rw [hbehind piece hmem]; rfl
  have hpieces : (Path.pieces [] 0 path).map Prod.fst = before ++ name :: behind := hpieces
  rw [Path.later_eq_filterMap, hpieces, List.filterMap_append, List.filterMap_cons_some hname, hidle]

theorem LeadsTo.leadsInto_put (h : fs.LeadsTo path location) :
    (fs.put location .directory).LeadsInto path location := by
  have hkeeps := keepsDirectories_put h.ne_directory .directory
  have hfound := find?_put_self fs h.ne_nil .directory
  obtain ⟨earlier, name, directory, hlater, hshort, hpasses, rfl⟩ := h.exists_components
  have hname : IsName name := Path.isName_of_mem_later (by rw [hlater]; simp)
  rw [leadsInto_iff, hlater, List.map_append]
  have horigin : (fs.put (directory ++ [name]) .directory).origin path = fs.origin path := by
    unfold origin
    rw [current_put]
  rw [horigin]
  exact (hpasses.mono hkeeps).concat hname.component hshort hfound

/-- A name that is joined to a path is that of a file in the directory that the path `LeadsInto`. -/
theorem LeadsTo.of_join {base : Path} {name : Text} (hname : IsName name)
    (h : fs.LeadsTo (Path.join base name) location) :
    ∃ directory, fs.LeadsInto base directory ∧ location = directory ++ [name] := by
  obtain ⟨earlier, last, directory, hlater, -, hpasses, rfl⟩ := h.exists_components
  rw [Path.later_join hname] at hlater
  obtain ⟨hearlier, hlast⟩ := List.append_inj' hlater rfl
  obtain rfl : name = last := Component.name.inj (List.singleton_inj.1 hlast)
  have horigin : fs.origin (Path.join base name) = fs.origin base := by
    unfold origin
    rw [Path.isAbsolute_join, Path.isAbsolute_of_isName hname, Bool.or_false]
  rw [horigin, ← hearlier] at hpasses
  exact ⟨directory, leadsInto_iff.2 hpasses, rfl⟩

/-- The `parent?` of a path to a file leads into the directory that the file is in. -/
theorem LeadsTo.parent (h : fs.LeadsTo path location) :
    ∃ directory name, Path.fileName? path = some name ∧
      fs.LeadsInto ((Path.parent? path).getD []) directory ∧ location = directory ++ [name] := by
  obtain ⟨earlier, name, directory, hlater, -, hpasses, rfl⟩ := h.exists_components
  have hne : later path ≠ [] := by simp [hlater]
  obtain ⟨parent, hparent, hearlier, habsolute, -⟩ := Path.exists_parent? hne
  rw [hlater, List.dropLast_concat] at hearlier
  have horigin : fs.origin path = fs.origin parent := by
    unfold origin
    rw [habsolute]
  rw [horigin, ← hearlier] at hpasses
  rw [hparent, Option.getD_some]
  exact ⟨directory, name, Path.fileName?_of_later hlater, leadsInto_iff.2 hpasses, rfl⟩

end MermaidPress.FileSystem
