/-
The paths above a path, step by step. To go `up?` is to lose the last component and nothing else,
whatever the spelling, so the parent of a path is shorter, begins where the path does, and has the
places of all the components that are left. From that, what `ancestors` lists at once is what going
up gives one after the other, from the path itself to the root or to the empty path, and no path
comes twice.
-/
import MermaidPress.Proofs.Path.Parent

namespace MermaidPress.Path

variable {path above : Path} {earlier behind : List Step} {step : Step} {n : Nat}

/-! ## Cutting a path at a component -/

theorem stop_le_of_mem_pieces {before : Text} {position : Nat} {t : Text} :
    ∀ piece ∈ pieces before position t, piece.2 ≤ position + t.length := by
  fun_induction pieces before position t with
  | case1 => simp
  | case2 before position t ih =>
    refine List.forall_mem_cons.2 ⟨Nat.le_add_right _ _, fun piece hpiece => ?_⟩
    have hplace := ih piece hpiece
    rw [List.length_cons]
    omega
  | case3 before position c t _ ih =>
    intro piece hpiece
    have hplace := ih piece hpiece
    rw [List.length_cons]
    omega

theorem stop_le_of_mem_front (h : step ∈ front path) : step.stop ≤ path.length := by
  obtain ⟨hfront, rest, rfl⟩ | ⟨hfront, rest, rfl⟩ | ⟨hfront, -⟩ := front_cases path
  · rw [hfront, List.mem_singleton] at h
    rw [h, List.length_cons]
    exact Nat.le_add_left _ _
  · rw [hfront, List.mem_singleton] at h
    rw [h, List.length_cons]
    exact Nat.le_add_left _ _
  · rw [hfront] at h
    cases h

theorem stop_le_length (h : step ∈ steps path) : step.stop ≤ path.length := by
  rcases List.mem_append.1 h with hfront | hlater
  · exact stop_le_of_mem_front hfront
  · obtain ⟨piece, hpiece, hstep⟩ := List.mem_filterMap.1 hlater
    obtain ⟨component, -, rfl⟩ := Option.map_eq_some_iff.1 hstep
    have hplace := stop_le_of_mem_pieces piece hpiece
    rwa [Nat.zero_add] at hplace

theorem beginsAtCurrent_iff : beginsAtCurrent path = true ↔ path = ['.'] ∨ ['.', '/'] <+: path := by
  unfold beginsAtCurrent
  split
  · simp
  · simp
  · rename_i hpoint hstroke
    refine iff_of_false Bool.false_ne_true ?_
    rintro (heq | ⟨rest, heq⟩)
    · exact hpoint heq
    · exact hstroke rest heq.symm

/-- A path that is cut behind its `front` keeps it: cut down to `.`, there would be no component
behind it. -/
theorem front_take (hn : n ≠ 0) (h : laterSteps (path.take n) ≠ []) :
    front (path.take n) = front path := by
  have hpoint : path.take n ≠ ['.'] := fun heq => h (heq ▸ rfl)
  have hcurrent : beginsAtCurrent (path.take n) = beginsAtCurrent path := by
    rw [Bool.eq_iff_iff, beginsAtCurrent_iff, beginsAtCurrent_iff]
    constructor
    · rintro (heq | hstarts)
      · exact absurd heq hpoint
      · exact .inr (hstarts.trans (List.take_prefix n path))
    · rintro (rfl | ⟨rest, rfl⟩)
      · exact absurd (List.take_of_length_le (Nat.one_le_iff_ne_zero.2 hn)) hpoint
      · obtain rfl | hlong : n = 1 ∨ 2 ≤ n := by omega
        · exact absurd rfl hpoint
        · exact .inr (List.prefix_take_iff.2 ⟨List.prefix_append _ _, hlong⟩)
  rw [front, isAbsolute_take hn, hcurrent, front]

theorem steps_eq (path : Path) : steps path = front path ++ laterSteps path := rfl

theorem steps_take_front (h : step ∈ front path) :
    front path = [step] ∧ step.stop ≠ 0 ∧ steps (path.take step.stop) = [step] := by
  obtain ⟨hfront, rest, rfl⟩ | ⟨hfront, rest, rfl⟩ | ⟨hfront, -⟩ := front_cases path
  · rw [hfront, List.mem_singleton] at h
    rw [h]
    exact ⟨hfront, Nat.one_ne_zero, rfl⟩
  · rw [hfront, List.mem_singleton] at h
    rw [h]
    exact ⟨hfront, Nat.one_ne_zero, rfl⟩
  · rw [hfront] at h
    cases h

/-- A path that is cut at the end of a component has the `steps` up to there. -/
theorem steps_take (h : steps path = earlier ++ step :: behind) :
    step.stop ≠ 0 ∧ steps (path.take step.stop) = earlier ++ [step] := by
  rw [steps_eq] at h
  cases hfront : front path with
  | nil =>
    rw [hfront, List.nil_append] at h
    obtain ⟨hstop, hcut⟩ := laterSteps_take h
    exact ⟨hstop, by rw [steps_eq, front_take hstop (by simp [hcut]), hfront, hcut, List.nil_append]⟩
  | cons first rest =>
    obtain ⟨hone, hstop, hcut⟩ := steps_take_front (hfront ▸ List.mem_cons_self)
    rw [hone, List.singleton_append] at h
    cases earlier with
    | nil =>
      obtain ⟨rfl, -⟩ := List.cons.inj h
      exact ⟨hstop, hcut⟩
    | cons other earlier =>
      obtain ⟨rfl, hlater⟩ := List.cons.inj h
      obtain ⟨hstop, hcut⟩ := laterSteps_take hlater
      exact ⟨hstop, by rw [steps_eq, front_take hstop (by simp [hcut]), hone, hcut]; rfl⟩

/-! ## The parent -/

/-- `parent?` takes the last component away, and is the front of the path's spelling. -/
theorem steps_of_parent? (h : parent? path = some above) :
    above <+: path ∧ isAbsolute above = isAbsolute path ∧
      ∃ last, steps path = steps above ++ [last] := by
  obtain hnil | ⟨earlier, last, hlast⟩ := List.eq_nil_or_concat (steps path)
  · simp [parent?, ancestors, hnil] at h
  rw [List.concat_eq_append] at hlast
  rw [parent?_of_steps hlast] at h
  obtain rfl | ⟨earlier, step, rfl⟩ := List.eq_nil_or_concat earlier
  · -- a relative path with one component
    cases habsolute : isAbsolute path with
    | true => simp [habsolute] at h
    | false =>
      obtain rfl : [] = above := by simpa [habsolute] using h
      exact ⟨List.nil_prefix, rfl, last, hlast⟩
  · rw [List.concat_eq_append, List.getLast?_concat] at h
    obtain rfl := Option.some.inj h
    have hcut : steps path = earlier ++ step :: [last] := by
      rw [hlast, List.concat_eq_append, List.append_assoc, List.singleton_append]
    obtain ⟨hstop, hsteps⟩ := steps_take hcut
    refine ⟨List.take_prefix _ _, isAbsolute_take hstop path, last, ?_⟩
    rw [hsteps, hlast, List.concat_eq_append]

theorem length_lt_of_parent? (h : parent? path = some above) : above.length < path.length := by
  obtain ⟨hbegins, -, last, hsteps⟩ := steps_of_parent? h
  refine Nat.lt_of_le_of_ne hbegins.length_le fun heq => ?_
  rw [hbegins.eq_of_length heq] at hsteps
  simpa using congrArg List.length hsteps

/-! ## The list of ancestors -/

theorem exists_ancestors_eq (path : Path) : ∃ others, ancestors path = path :: others := by
  unfold ancestors
  split
  · exact ⟨[], rfl⟩
  · exact ⟨_, rfl⟩

theorem ancestors_of_steps {last : Step} (h : steps path = earlier ++ [last]) :
    ancestors path = path :: (earlier.reverse.map fun step => path.take step.stop) ++
      (if isAbsolute path then [] else [[]]) := by
  rw [ancestors, h, List.reverse_concat]

theorem ancestors_of_no_parent (h : parent? path = none) : ancestors path = [path] := by
  obtain ⟨others, hothers⟩ := exists_ancestors_eq path
  rw [parent?, hothers, List.getElem?_cons_succ] at h
  cases others with
  | nil => exact hothers
  | cons other others => cases h

theorem ancestors_of_parent (h : parent? path = some above) :
    ancestors path = path :: ancestors above := by
  obtain ⟨hbegins, habsolute, last, hlast⟩ := steps_of_parent? h
  have hancestors := ancestors_of_steps hlast
  have hsecond : (ancestors path)[1]? = some above := h
  obtain hnil | ⟨earlier, step, hstep⟩ := List.eq_nil_or_concat (steps above)
  · have habove : ancestors above = [above] := by rw [ancestors, hnil]; rfl
    rw [hancestors, hnil] at hsecond
    rw [hancestors, hnil, habove]
    cases hpath : isAbsolute path with
    | true => simp [hpath] at hsecond
    | false =>
      obtain rfl : [] = above := by simpa [hpath] using hsecond
      rfl
  · rw [List.concat_eq_append] at hstep
    rw [hancestors, hstep, List.reverse_concat, List.map_cons] at hsecond ⊢
    obtain rfl : path.take step.stop = above := by simpa using hsecond
    have hplaces : (earlier.reverse.map fun step => path.take step.stop) =
        earlier.reverse.map fun earlierStep => (path.take step.stop).take earlierStep.stop := by
      refine List.map_congr_left fun earlierStep hmem => ?_
      have hplace : earlierStep.stop ≤ (path.take step.stop).length :=
        stop_le_length (by rw [hstep]; exact List.mem_append_left _ (List.mem_reverse.1 hmem))
      rw [List.take_take, Nat.min_eq_left (Nat.le_trans hplace (List.length_take_le _ _))]
    rw [ancestors_of_steps hstep, habsolute, hplaces]
    rfl

/-! ## Going up -/

/-- The path that is `n` times the `parent?` of a path, where there are so many. -/
def up? : Nat → Path → Option Path
  | 0, path => some path
  | n + 1, path => (parent? path).bind (up? n)

/-- `ancestors` lists the paths in the order of going `up?`, none left out. -/
theorem getElem?_ancestors (n : Nat) (path : Path) : (ancestors path)[n]? = up? n path := by
  induction n generalizing path with
  | zero =>
    obtain ⟨others, hothers⟩ := exists_ancestors_eq path
    rw [hothers, up?, List.getElem?_cons_zero]
  | succ n ih =>
    rw [up?]
    cases h : parent? path with
    | none => rw [ancestors_of_no_parent h, Option.bind_none]; rfl
    | some above => rw [ancestors_of_parent h, List.getElem?_cons_succ, ih, Option.bind_some]

/-- What is above a path has all of its components but the last `n`, and is the front of its
spelling. -/
theorem steps_of_up? (h : up? n path = some above) :
    above <+: path ∧ isAbsolute above = isAbsolute path ∧
      ∃ behind, steps path = steps above ++ behind ∧ behind.length = n := by
  induction n generalizing path with
  | zero =>
    obtain rfl := Option.some.inj h
    exact ⟨List.prefix_refl _, rfl, [], (List.append_nil _).symm, rfl⟩
  | succ n ih =>
    obtain ⟨parent, hparent, habove⟩ := Option.bind_eq_some_iff.1 h
    obtain ⟨hbegins, habsolute, last, hlast⟩ := steps_of_parent? hparent
    obtain ⟨hbegins', habsolute', behind, hbehind, hlength⟩ := ih habove
    refine ⟨hbegins'.trans hbegins, habsolute'.trans habsolute, behind ++ [last], ?_, ?_⟩
    · rw [hlast, hbehind, List.append_assoc]
    · rw [List.length_append, hlength, List.length_singleton]

theorem components_of_up? (h : up? n path = some above) :
    components above = (components path).take ((components path).length - n) := by
  obtain ⟨-, -, behind, hsteps, hlength⟩ := steps_of_up? h
  have hsplit : components path = components above ++ behind.map Step.component := by
    rw [components, hsteps, List.map_append, components]
  rw [hsplit, List.length_append, List.length_map, hlength, Nat.add_sub_cancel, List.take_left]

/-- How many steps lead `up?` from a path: one for each of its components, but none past the
root. -/
def height (path : Path) : Nat :=
  (components path).length - if isAbsolute path then 1 else 0

theorem length_ancestors (path : Path) : (ancestors path).length = height path + 1 := by
  have hlength : (components path).length = (steps path).length := List.length_map _
  obtain hnil | ⟨earlier, last, hlast⟩ := List.eq_nil_or_concat (steps path)
  · rw [ancestors, hnil, height, hlength, hnil]
    simp
  · rw [List.concat_eq_append] at hlast
    rw [ancestors_of_steps hlast, height, hlength, hlast]
    cases isAbsolute path <;> simp

/-- The way up has `height` steps. -/
theorem isSome_up?_iff : (up? n path).isSome ↔ n ≤ height path := by
  rw [← getElem?_ancestors, Option.isSome_iff_ne_none, Ne, List.getElem?_eq_none_iff,
    length_ancestors, Nat.not_le, Nat.lt_succ_iff]

theorem up?_inj {m : Nat} (hm : up? m path = some above) (hn : up? n path = some above) : m = n := by
  obtain ⟨-, -, behind, hbehind, hm⟩ := steps_of_up? hm
  obtain ⟨-, -, behind', hbehind', hn⟩ := steps_of_up? hn
  have hsame : behind = behind' := List.append_cancel_left (hbehind.symm.trans hbehind')
  rw [← hm, ← hn, hsame]

/-- At the end of the way up there is the root alone, or no component at all. -/
theorem exists_up?_height (path : Path) : ∃ top, up? (height path) path = some top ∧
    components top = if isAbsolute path then [.root] else [] := by
  obtain ⟨top, htop⟩ := Option.isSome_iff_exists.1 (isSome_up?_iff.2 (Nat.le_refl (height path)))
  refine ⟨top, htop, ?_⟩
  rw [components_of_up? htop, height]
  cases habsolute : isAbsolute path with
  | true =>
    have hfirst : components path = .root :: later path := by
      rw [components_eq, front, if_pos habsolute]
      rfl
    have hrest : (components path).length - ((components path).length - 1) = 1 := by
      rw [hfirst, List.length_cons]
      omega
    simp only [if_true]
    rw [hrest, hfirst, List.take_succ_cons, List.take_zero]
  | false => simp

theorem components_eq_nil_iff : components path = [] ↔ path = [] := by
  refine ⟨fun h => ?_, fun h => h ▸ rfl⟩
  rw [components_eq, List.append_eq_nil_iff, List.map_eq_nil_iff] at h
  obtain ⟨hfront, hlater⟩ := h
  have habsolute : isAbsolute path ≠ true := fun habsolute => by simp [front, habsolute] at hfront
  have hcurrent : beginsAtCurrent path ≠ true := fun hcurrent => by
    simp [front, habsolute, hcurrent] at hfront
  -- what stands before the first stroke would be a component
  have hfirst {first : Text} (hstroke : '/' ∉ first) (hnone : later first = []) :
      first = [] ∨ first = ['.'] := by
    rw [later_of_notMem hstroke] at hnone
    exact componentOf?_eq_none (Option.toList_eq_nil_iff.1 hnone)
  by_cases hstroke : '/' ∈ path
  · obtain ⟨first, rest, rfl, hnotMem⟩ := List.eq_append_cons_of_mem hstroke
    rw [later_append_stroke, List.append_eq_nil_iff] at hlater
    rcases hfirst hnotMem hlater.1 with rfl | rfl
    · exact absurd rfl habsolute
    · exact absurd rfl hcurrent
  · rcases hfirst hstroke hlater with rfl | rfl
    · rfl
    · exact absurd rfl hcurrent

end MermaidPress.Path
