/-
The characters of paths. Strokes and points aside, the components of a path have the characters of
the path, a path made absolute has those of the path and, where that is relative, of the
current directory, and what is made by going up, by normalizing or by referring from one place to
another has no new ones.
-/
import MermaidPress.Path.Relative

namespace MermaidPress.Path

/-- The character is one that only names have. -/
structure IsPlainChar (c : Char) : Prop where
  stroke : c ≠ '/'
  point : c ≠ '.'

variable {c : Char}

/-! ## Components -/

theorem mem_pieces_iff (hc : c ≠ '/') (before : Text) (position : Nat) (t : Text) :
    (∃ piece ∈ pieces before position t, c ∈ piece.1) ↔ c ∈ before ∨ c ∈ t := by
  fun_induction pieces before position t with
  | case1 => simp
  | case2 before position t ih => simp [ih, hc]
  | case3 before position d t _ ih => simp [ih, or_assoc]

theorem stroke_notMem_of_mem_pieces {before : Text} {position : Nat} {t : Text}
    (hbefore : '/' ∉ before) : ∀ piece ∈ pieces before position t, '/' ∉ piece.1 := by
  fun_induction pieces before position t with
  | case1 => simpa using hbefore
  | case2 before position t ih =>
    exact List.forall_mem_cons.2 ⟨hbefore, ih (by simp)⟩
  | case3 before position d t hd ih => exact ih (by simp [hbefore, Ne.symm hd])

theorem componentOf?_eq_some {piece : Text} {component : Component}
    (h : componentOf? piece = some component) :
    component.text = piece ∧ component ≠ .root ∧ component ≠ .current ∧ piece ≠ [] := by
  unfold componentOf? at h
  split at h
  · cases h
  · cases h
  · obtain rfl := Option.some.inj h
    exact ⟨rfl, nofun, nofun, nofun⟩
  · rename_i hne _ _
    obtain rfl := Option.some.inj h
    exact ⟨rfl, nofun, nofun, hne⟩

theorem componentOf?_eq_none {piece : Text} (h : componentOf? piece = none) :
    piece = [] ∨ piece = ['.'] := by
  unfold componentOf? at h
  split at h
  · exact .inl rfl
  · exact .inr rfl
  · cases h
  · cases h

/-- The `components` behind the `front` of a path. -/
def later (path : Path) : List Component :=
  (pieces [] 0 path).filterMap fun piece => componentOf? piece.1

theorem components_eq (path : Path) :
    components path = (front path).map Step.component ++ later path := by
  unfold components steps later
  rw [List.map_append, List.map_filterMap]
  simp [Option.map_map, Function.comp_def]

theorem exists_piece_of_mem_later {path : Path} {component : Component}
    (h : component ∈ later path) :
    component ≠ .root ∧ component ≠ .current ∧ isAbsolute component.text = false ∧
      ∃ piece ∈ pieces [] 0 path, component.text = piece.1 := by
  obtain ⟨piece, hp, hsome⟩ := List.mem_filterMap.1 h
  obtain ⟨htext, hroot, hcurrent, hne⟩ := componentOf?_eq_some hsome
  have hstroke : '/' ∉ piece.1 := stroke_notMem_of_mem_pieces (by simp) piece hp
  refine ⟨hroot, hcurrent, ?_, piece, hp, htext⟩
  obtain ⟨d, t, hd⟩ := List.exists_cons_of_ne_nil hne
  rw [hd] at hstroke
  have hd' : d ≠ '/' := fun heq => hstroke (heq ▸ List.mem_cons_self)
  simp [isAbsolute, htext, hd, hd']

theorem mem_later_iff (hc : IsPlainChar c) (path : Path) :
    (∃ component ∈ later path, c ∈ component.text) ↔ c ∈ path := by
  have hpieces : (∃ piece ∈ pieces [] 0 path, c ∈ piece.1) ↔ c ∈ path := by
    simpa using mem_pieces_iff hc.stroke [] 0 path
  rw [← hpieces]
  constructor
  · rintro ⟨component, hmem, hcomponent⟩
    obtain ⟨-, -, -, piece, hp, htext⟩ := exists_piece_of_mem_later hmem
    exact ⟨piece, hp, htext ▸ hcomponent⟩
  · rintro ⟨piece, hp, hpiece⟩
    cases hcomponent : componentOf? piece.1 with
    | none =>
      rcases componentOf?_eq_none hcomponent with heq | heq
      · simp [heq] at hpiece
      · rw [heq, List.mem_singleton] at hpiece
        exact absurd hpiece hc.point
    | some component =>
      exact ⟨component, List.mem_filterMap.2 ⟨piece, hp, hcomponent⟩,
        (componentOf?_eq_some hcomponent).1 ▸ hpiece⟩

/-- The `components` have the characters of the path. -/
theorem mem_components_iff (hc : IsPlainChar c) (path : Path) :
    (∃ component ∈ components path, c ∈ component.text) ↔ c ∈ path := by
  rw [← mem_later_iff hc path, components_eq]
  constructor
  · rintro ⟨component, hmem, hcomponent⟩
    rcases List.mem_append.1 hmem with hmem | hmem
    · obtain ⟨step, hstep, rfl⟩ := List.mem_map.1 hmem
      unfold front at hstep
      split at hstep
      · obtain rfl := List.mem_singleton.1 hstep
        exact absurd (List.mem_singleton.1 hcomponent) hc.stroke
      · split at hstep
        · obtain rfl := List.mem_singleton.1 hstep
          exact absurd (List.mem_singleton.1 hcomponent) hc.point
        · cases hstep
    · exact ⟨component, hmem, hcomponent⟩
  · rintro ⟨component, hmem, hcomponent⟩
    exact ⟨component, List.mem_append_right _ hmem, hcomponent⟩

/-! ## Putting paths together -/

theorem isAbsolute_join (base next : Path) :
    isAbsolute (join base next) = (isAbsolute base || isAbsolute next) := by
  unfold join
  split
  · simp [*]
  · rename_i hnext
    rw [Bool.eq_false_iff.2 hnext, Bool.or_false]
    cases base with
    | nil => exact Bool.eq_false_iff.2 hnext
    | cons d base => split <;> rfl

theorem mem_join_iff (hc : c ≠ '/') (base next : Path) :
    c ∈ join base next ↔ c ∈ next ∨ isAbsolute next = false ∧ c ∈ base := by
  unfold join
  split
  · simp [*]
  · rename_i hnext
    have hnext : isAbsolute next = false := Bool.eq_false_iff.2 hnext
    split
    · simp [hnext, or_comm]
    · simp [hnext, hc, or_comm]

/-- Components put behind a path, one after the other. -/
def joinAll (start : Path) (components : List Component) : Path :=
  components.foldl (fun sofar component => join sofar component.text) start

theorem mem_joinAll_iff (hc : c ≠ '/') {components : List Component}
    (h : ∀ component ∈ components, isAbsolute component.text = false) (start : Path) :
    c ∈ joinAll start components ↔ c ∈ start ∨ ∃ component ∈ components, c ∈ component.text := by
  induction components generalizing start with
  | nil => simp [joinAll]
  | cons component components ih =>
    obtain ⟨hfirst, hrest⟩ := List.forall_mem_cons.1 h
    have hstep : joinAll start (component :: components) =
        joinAll (join start component.text) components := rfl
    rw [hstep, ih hrest, mem_join_iff hc]
    simp [hfirst, or_assoc, or_left_comm]

/-- Of the `components` all but `.` are kept: the root, where the path begins there, and those
behind its `front`. -/
theorem filter_components (path : Path) :
    (components path).filter (· ≠ .current) =
      (if isAbsolute path then [Component.root] else []) ++ later path := by
  have hlater : (later path).filter (· ≠ .current) = later path :=
    List.filter_eq_self.2 fun component hmem => by
      simpa using (exists_piece_of_mem_later hmem).2.1
  rw [components_eq, List.filter_append, hlater]
  congr 1
  unfold front
  split
  · rfl
  · split <;> rfl

theorem isAbsolute_joinAll {start : Path} (h : isAbsolute start = true)
    (components : List Component) : isAbsolute (joinAll start components) = true := by
  induction components generalizing start with
  | nil => exact h
  | cons component components ih => exact ih (by rw [isAbsolute_join, h, Bool.true_or])

/-- What `absolute?` begins with: the current directory, where the path is relative, and one stroke
or two otherwise. -/
theorem exists_absolute?_eq (current : Path) {path : Path} (hne : path ≠ []) :
    ∃ start, absolute? current path = some
        (let whole := joinAll start (later path)
        if path.getLast? = some '/' then join whole [] else whole) ∧
      (isAbsolute path = false ∧ start = current ∨
        isAbsolute path = true ∧ isAbsolute start = true ∧ ∀ d ∈ start, d = '/') := by
  unfold absolute?
  rw [if_neg (by simpa using hne), filter_components]
  cases hpath : isAbsolute path with
  | false => exact ⟨current, rfl, .inl ⟨rfl, rfl⟩⟩
  | true =>
    by_cases htwo : (path.take 2 = ['/', '/'] && path.take 3 ≠ ['/', '/', '/']) = true
    · refine ⟨['/', '/'], ?_, .inr ⟨rfl, rfl, by simp⟩⟩
      simp only [Bool.not_true, Bool.false_eq_true, if_false, htwo, if_true]
      rfl
    · refine ⟨['/'], ?_, .inr ⟨rfl, rfl, by simp⟩⟩
      simp only [Bool.not_true, Bool.false_eq_true, if_false, htwo]
      rfl

/-- `absolute` has the characters of the path, and those of the current directory where the path is
relative. -/
theorem mem_absolute_iff (hc : IsPlainChar c) (current path : Path) :
    c ∈ absolute current path ↔ c ∈ path ∨ isAbsolute path = false ∧ c ∈ current := by
  unfold absolute
  by_cases hne : path = []
  · simp [hne, isAbsolute]
  · obtain ⟨start, heq, hstart⟩ := exists_absolute?_eq current hne
    have hwhole : c ∈ joinAll start (later path) ↔ c ∈ start ∨ c ∈ path := by
      rw [mem_joinAll_iff hc.stroke fun component hmem => (exists_piece_of_mem_later hmem).2.2.1,
        mem_later_iff hc]
    have hclosed : c ∈ (if path.getLast? = some '/' then join (joinAll start (later path)) []
        else joinAll start (later path)) ↔ c ∈ start ∨ c ∈ path := by
      rw [← hwhole]
      split
      · simp [mem_join_iff hc.stroke, isAbsolute]
      · rfl
    rw [if_neg (by simpa using hne), heq, Option.getD_some, hclosed, or_comm]
    refine or_congr_right ?_
    rcases hstart with ⟨hpath, rfl⟩ | ⟨hpath, -, hstart⟩
    · simp [hpath]
    · simpa [hpath] using fun h => hc.stroke (hstart c h)

theorem isAbsolute_absolute {current path : Path}
    (h : isAbsolute current = true ∨ isAbsolute path = true) :
    isAbsolute (absolute current path) = true := by
  unfold absolute
  by_cases hne : path = []
  · rw [hne] at h ⊢
    exact h.resolve_right Bool.false_ne_true
  · obtain ⟨start, heq, hstart⟩ := exists_absolute?_eq current hne
    have habsolute : isAbsolute start = true := by
      rcases hstart with ⟨hpath, rfl⟩ | ⟨-, hstart, -⟩
      · exact h.resolve_right fun hpath' => Bool.false_ne_true (hpath.symm.trans hpath')
      · exact hstart
    rw [if_neg (by simpa using hne), heq, Option.getD_some]
    dsimp only
    split
    · rw [isAbsolute_join, isAbsolute_joinAll habsolute, Bool.true_or]
    · exact isAbsolute_joinAll habsolute _

/-! ## Going up -/

theorem prefix_of_mem_ancestors {path above : Path} (h : above ∈ ancestors path) :
    above <+: path := by
  unfold ancestors at h
  split at h
  · obtain rfl := List.mem_singleton.1 h
    exact List.prefix_refl _
  · rw [List.cons_append, List.mem_cons, List.mem_append, List.mem_map] at h
    rcases h with rfl | ⟨step, -, rfl⟩ | h
    · exact List.prefix_refl _
    · exact List.take_prefix _ _
    · split at h
      · cases h
      · obtain rfl := List.mem_singleton.1 h
        exact List.nil_prefix

theorem prefix_pop (path : Path) : pop path <+: path := by
  unfold pop parent?
  cases h : (ancestors path)[1]? with
  | none => exact List.prefix_refl _
  | some above => exact prefix_of_mem_ancestors (List.mem_of_getElem? h)

/-- `normalize` brings no new characters. -/
theorem mem_of_mem_normalize (hc : IsPlainChar c) {path : Path} (h : c ∈ normalize path) :
    c ∈ path := by
  revert h
  unfold normalize
  refine List.foldlRecOn (motive := fun sofar => c ∈ sofar → c ∈ path) _ _ (by simp)
    fun sofar ih component hmem h => ?_
  have hjoin : c ∈ join sofar component.text → c ∈ path := fun h => by
    rcases (mem_join_iff hc.stroke _ _).1 h with h | ⟨-, h⟩
    · exact (mem_components_iff hc path).1 ⟨component, hmem, h⟩
    · exact ih h
  cases component with
  | root | name => exact hjoin h
  | current => exact ih h
  | parent => exact ih ((prefix_pop sofar).subset h)

/-! ## References -/

theorem exists_of_mem_joinWith {separator : Char} (hc : c ≠ separator) :
    ∀ {texts : List Text}, c ∈ joinWith separator texts → ∃ t ∈ texts, c ∈ t
  | [], h => by cases h
  | [t], h => ⟨t, by simp, h⟩
  | t :: u :: texts, h => by
    rw [joinWith, List.mem_append, List.mem_cons] at h
    · rcases h with h | h | h
      · exact ⟨t, by simp, h⟩
      · exact absurd h hc
      · obtain ⟨v, hv, h⟩ := exists_of_mem_joinWith hc h
        exact ⟨v, List.mem_cons_of_mem t hv, h⟩
    · simp

/-- A `relativeReference` has the characters of the target, made absolute. -/
theorem mem_of_mem_relativeReference (hc : IsPlainChar c) {current document target : Path}
    (h : c ∈ relativeReference current document target) : c ∈ absolute current target := by
  refine mem_of_mem_normalize hc ?_
  unfold relativeReference at h
  dsimp only at h
  split at h
  · obtain ⟨d, hd, heq⟩ := List.mem_map.1 h
    split at heq
    · exact absurd heq.symm hc.stroke
    · exact heq ▸ hd
  · obtain ⟨t, ht, h⟩ := exists_of_mem_joinWith hc.stroke h
    rcases List.mem_append.1 ht with ht | ht
    · obtain rfl := List.eq_of_mem_replicate ht
      simp [Component.text, hc.point] at h
    · obtain ⟨component, hmem, rfl⟩ := List.mem_map.1 ht
      exact (mem_components_iff hc _).1 ⟨component, List.mem_of_mem_drop hmem, h⟩

theorem mem_of_mem_splitExtension {name : Text} (h : c ∈ (splitExtension name).1) : c ∈ name := by
  unfold splitExtension at h
  split at h
  · rename_i extension stem d rest hcut
    have := (Text.upTo?_eq_some hcut).1
    rw [List.mem_reverse] at h
    rw [← List.mem_reverse, this]
    exact List.mem_append_right _ (List.mem_cons_of_mem _ h)
  · exact h

theorem mem_of_mem_fileStem? (hc : IsPlainChar c) {path : Path} {stem : Text}
    (hstem : fileStem? path = some stem) (h : c ∈ stem) : c ∈ path := by
  obtain ⟨name, hname, rfl⟩ := Option.map_eq_some_iff.1 hstem
  unfold fileName? at hname
  split at hname
  · rename_i last hlast
    obtain rfl := Option.some.inj hname
    exact (mem_components_iff hc path).1
      ⟨.name last, List.mem_of_getLast? hlast, mem_of_mem_splitExtension h⟩
  · cases hname

end MermaidPress.Path
