/-
Going down by a name and up by one component. A name that is joined to a path becomes its last
component, and the parent of a path lacks that one and is otherwise the same. The spelling
is what makes this more than a remark: cutting a path short leaves the pieces that stand for
nothing where they are, so all of this is said of the components behind the front.
-/
import MermaidPress.Proofs.Path.Characters

namespace MermaidPress.Path

/-- The piece is a name: not empty, neither `.` nor `..`, and without a stroke. -/
structure IsName (piece : Text) : Prop where
  component : componentOf? piece = some (.name piece)
  stroke : '/' ∉ piece

theorem isName_of_mem_later {path : Path} {name : Text} (h : .name name ∈ later path) :
    IsName name := by
  obtain ⟨piece, hpiece, hcomponent⟩ := List.mem_filterMap.1 h
  obtain rfl : name = piece.1 := (componentOf?_eq_some hcomponent).1
  exact ⟨hcomponent, stroke_notMem_of_mem_pieces (by simp) piece hpiece⟩

theorem isName_of_fileName? {path : Path} {name : Text} (h : fileName? path = some name) :
    IsName name := by
  unfold fileName? at h
  split at h
  · rename_i last hlast
    obtain rfl := Option.some.inj h
    have hmem := List.mem_of_getLast? hlast
    rw [components_eq, List.mem_append] at hmem
    rcases hmem with hfront | hlater
    · -- only the root and the current directory stand at a front
      unfold front at hfront
      split at hfront
      · simp at hfront
      · split at hfront <;> simp at hfront
    · exact isName_of_mem_later hlater
  · cases h

theorem fileName?_of_later {path : Path} {earlier : List Component} {name : Text}
    (h : later path = earlier ++ [.name name]) : fileName? path = some name := by
  rw [fileName?, components_eq, h, ← List.append_assoc, List.getLast?_concat]

/-! ## Pieces -/

/-- A stroke parts the `pieces` before it from those behind it. -/
theorem pieces_append_stroke (before : Text) (position : Nat) (path rest : Text) :
    pieces before position (path ++ '/' :: rest) =
      pieces before position path ++ pieces [] (position + path.length + 1) rest := by
  fun_induction pieces before position path with
  | case1 => rfl
  | case2 before position t ih =>
    have hplace : position + (t.length + 1) + 1 = position + 1 + t.length + 1 := by omega
    rw [List.cons_append, pieces, if_pos rfl, ih, List.length_cons, hplace, List.cons_append]
  | case3 before position c t hc ih =>
    have hplace : position + (t.length + 1) + 1 = position + 1 + t.length + 1 := by omega
    rw [List.cons_append, pieces, if_neg hc, ih, List.length_cons, hplace]

theorem pieces_of_notMem {t : Text} (h : '/' ∉ t) (before : Text) (position : Nat) :
    pieces before position t = [(before ++ t, position + t.length)] := by
  fun_induction pieces before position t with
  | case1 => simp
  | case2 => simp at h
  | case3 before position c t _ ih =>
    rw [ih fun hmem => h (List.mem_cons_of_mem c hmem), List.length_cons]
    simp
    omega

/-- A path that is cut at the end of a piece has the `pieces` up to there. -/
theorem pieces_take {before : Text} {position : Nat} {t : Text} {earlier later : List (Text × Nat)}
    {piece : Text × Nat} (h : pieces before position t = earlier ++ piece :: later) :
    position ≤ piece.2 ∧
      pieces before position (t.take (piece.2 - position)) = earlier ++ [piece] := by
  fun_induction pieces before position t generalizing earlier with
  | case1 before position =>
    cases earlier with
    | nil =>
      obtain ⟨rfl, -⟩ := List.cons.inj h
      simp [pieces]
    | cons => simp at h
  | case2 before position t ih =>
    cases earlier with
    | nil =>
      obtain ⟨rfl, -⟩ := List.cons.inj h
      simp [pieces]
    | cons first earlier =>
      obtain ⟨rfl, hrest⟩ := List.cons.inj h
      obtain ⟨hle, hpieces⟩ := ih hrest
      have hlength : piece.2 - position = piece.2 - (position + 1) + 1 := by omega
      refine ⟨by omega, ?_⟩
      rw [hlength, List.take_succ_cons, pieces, if_pos rfl, hpieces, List.cons_append]
  | case3 before position c t hc ih =>
    obtain ⟨hle, hpieces⟩ := ih h
    have hlength : piece.2 - position = piece.2 - (position + 1) + 1 := by omega
    refine ⟨by omega, ?_⟩
    rw [hlength, List.take_succ_cons, pieces, if_neg hc, hpieces]

theorem map_fst_pieces (before : Text) (position position' : Nat) (t : Text) :
    (pieces before position t).map Prod.fst = (pieces before position' t).map Prod.fst := by
  fun_induction pieces before position t generalizing position' with
  | case1 => rfl
  | case2 before position t ih => rw [pieces, if_pos rfl, List.map_cons, List.map_cons, ih]
  | case3 before position c t hc ih => rw [pieces, if_neg hc, ih]

/-! ## A name joined to a path -/

theorem later_eq_filterMap (path : Path) :
    later path = ((pieces [] 0 path).map Prod.fst).filterMap componentOf? := by
  rw [List.filterMap_map]
  rfl

theorem later_append_stroke (path rest : Text) :
    later (path ++ '/' :: rest) = later path ++ later rest := by
  rw [later_eq_filterMap, pieces_append_stroke, List.map_append, List.filterMap_append,
    map_fst_pieces [] _ 0 rest, ← later_eq_filterMap, ← later_eq_filterMap]

theorem later_of_notMem {t : Text} (h : '/' ∉ t) : later t = (componentOf? t).toList := by
  rw [later, pieces_of_notMem h, List.nil_append]
  cases hcomponent : componentOf? t <;> simp [hcomponent]

theorem later_of_isName {name : Text} (h : IsName name) : later name = [.name name] := by
  rw [later_of_notMem h.stroke, h.component]
  rfl

theorem isAbsolute_of_isName {name : Text} (h : IsName name) : isAbsolute name = false := by
  cases name with
  | nil => rfl
  | cons c t =>
    have hc : c ≠ '/' := fun heq => h.stroke (heq ▸ List.mem_cons_self)
    simp [isAbsolute, hc]

/-- What is joined to a path comes behind its components. -/
theorem later_join_of_relative {next : Path} (h : isAbsolute next = false) (path : Path) :
    later (join path next) = later path ++ later next := by
  rw [join, h, if_neg Bool.false_ne_true]
  split
  · rename_i hend
    rcases (Bool.or_eq_true _ _).mp hend with hend | hend
    · rw [List.isEmpty_iff.1 hend]
      rfl
    · obtain ⟨front, rfl⟩ := List.getLast?_eq_some_iff.1 (eq_of_beq hend)
      have hstroke : later (front ++ ['/']) = later front := by
        rw [later_append_stroke]
        exact List.append_nil _
      rw [List.append_assoc, hstroke]
      exact later_append_stroke front next
  · exact later_append_stroke path next

theorem later_join {name : Text} (h : IsName name) (path : Path) :
    later (join path name) = later path ++ [.name name] := by
  rw [later_join_of_relative (isAbsolute_of_isName h), later_of_isName h]

/-! ## The parent of a path -/

/-- The component that a piece stands for, with its place. -/
def stepOf? (piece : Text × Nat) : Option Step :=
  (componentOf? piece.1).map fun component => ⟨component, piece.2⟩

/-- The `steps` behind the `front` of a path. -/
def laterSteps (path : Path) : List Step := (pieces [] 0 path).filterMap stepOf?

theorem map_component_laterSteps (path : Path) :
    (laterSteps path).map Step.component = later path := by
  unfold laterSteps later
  rw [List.map_filterMap]
  simp [stepOf?, Option.map_map, Function.comp_def]

theorem parent?_of_steps {path : Path} {earlier : List Step} {last : Step}
    (h : steps path = earlier ++ [last]) :
    parent? path = match earlier.getLast? with
      | some step => some (path.take step.stop)
      | none => if isAbsolute path then none else some [] := by
  unfold parent? ancestors
  rw [h, List.reverse_concat, ← List.head?_reverse]
  cases earlier.reverse with
  | nil => cases isAbsolute path <;> rfl
  | cons step rest => rfl

theorem isAbsolute_take {n : Nat} (h : n ≠ 0) (path : Path) :
    isAbsolute (path.take n) = isAbsolute path := by
  rw [isAbsolute, isAbsolute, List.head?_take, if_neg h]

theorem laterSteps_take {path : Path} {earlier later' : List Step} {step : Step}
    (h : laterSteps path = earlier ++ step :: later') :
    step.stop ≠ 0 ∧ laterSteps (path.take step.stop) = earlier ++ [step] := by
  obtain ⟨first, rest, hpieces, hfirst, hrest⟩ := List.filterMap_eq_append_iff.1 h
  obtain ⟨skipped, piece, others, rfl, hskipped, hpiece, -⟩ := List.filterMap_eq_cons_iff.1 hrest
  obtain ⟨component, hcomponent, rfl⟩ := Option.map_eq_some_iff.1 hpiece
  have hcut : pieces [] 0 (path.take piece.2) = first ++ skipped ++ [piece] := by
    rw [← List.append_assoc] at hpieces
    exact (pieces_take hpieces).2
  constructor
  · -- nothing is left of a path that is cut at its very front, so no component is
    intro hzero
    have hzero : piece.2 = 0 := hzero
    rw [hzero, List.take_zero, ← List.concat_eq_append] at hcut
    have hlast : ([], 0) = piece := by simpa [pieces] using congrArg List.getLast? hcut
    rw [← hlast] at hcomponent
    cases hcomponent
  · have hnone : skipped.filterMap stepOf? = [] := List.filterMap_eq_nil_iff.2 hskipped
    rw [laterSteps, hcut, List.filterMap_append, List.filterMap_append, hfirst, hnone,
      List.append_nil, List.filterMap_cons_some hpiece, List.filterMap_nil]

theorem front_cases (path : Path) :
    (front path = [⟨.root, 1⟩] ∧ ∃ rest, path = '/' :: rest) ∨
      (front path = [⟨.current, 1⟩] ∧ ∃ rest, path = '.' :: rest) ∨
        front path = [] ∧ isAbsolute path = false := by
  unfold front
  split
  · rename_i habsolute
    cases path with
    | nil => cases habsolute
    | cons c rest => exact .inl ⟨rfl, rest, by simpa [isAbsolute] using habsolute⟩
  · rename_i habsolute
    split
    · rename_i hcurrent
      unfold beginsAtCurrent at hcurrent
      split at hcurrent
      · exact .inr (.inl ⟨rfl, [], rfl⟩)
      · exact .inr (.inl ⟨rfl, _, rfl⟩)
      · cases hcurrent
    · exact .inr (.inr ⟨rfl, Bool.eq_false_iff.2 habsolute⟩)

/-- `parent?` takes the last component away, where that is behind the `front`. -/
theorem exists_parent? {path : Path} (h : later path ≠ []) :
    ∃ parent, parent? path = some parent ∧ later parent = (later path).dropLast ∧
      isAbsolute parent = isAbsolute path ∧ parent <+: path := by
  have hsteps : steps path = front path ++ laterSteps path := rfl
  rw [← map_component_laterSteps] at h ⊢
  obtain hnil | ⟨earlier, last, hlast⟩ := List.eq_nil_or_concat (laterSteps path)
  · simp [hnil] at h
  rw [List.concat_eq_append] at hlast
  rw [hlast, ← List.append_assoc] at hsteps
  rw [parent?_of_steps hsteps, hlast, List.map_append, List.map_singleton, List.dropLast_concat]
  obtain rfl | ⟨earlier, step, rfl⟩ := List.eq_nil_or_concat earlier
  · -- the component that goes is the only one behind the front
    rw [List.append_nil, List.map_nil]
    obtain ⟨hfront, rest, rfl⟩ | ⟨hfront, rest, rfl⟩ | ⟨hfront, habsolute⟩ := front_cases path
    · exact ⟨['/'], by rw [hfront]; rfl, rfl, rfl, by simp⟩
    · exact ⟨['.'], by rw [hfront]; rfl, rfl, rfl, by simp⟩
    · exact ⟨[], by rw [hfront, habsolute]; rfl, rfl, habsolute.symm, List.nil_prefix⟩
  · rw [List.concat_eq_append] at hlast ⊢
    have hcut : laterSteps path = earlier ++ step :: [last] := by simp [hlast]
    obtain ⟨hstop, hsteps⟩ := laterSteps_take hcut
    have hlater : later (path.take step.stop) = (earlier ++ [step]).map Step.component := by
      rw [← map_component_laterSteps, hsteps]
    rw [← List.append_assoc, List.getLast?_concat]
    exact ⟨path.take step.stop, rfl, hlater, isAbsolute_take hstop path, List.take_prefix _ _⟩

end MermaidPress.Path
