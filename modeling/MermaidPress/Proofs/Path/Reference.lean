/-
References that lead from a document to a target. Taken from the document's directory, a reference
goes up to the last directory that lies above both, and from there down by names. On stacks of
names this is: a part of the one stack is taken away until what is left is shared, and the rest of the
other is put on it. That no part of a reference is `.` or empty, so that its components can be read
off its spelling, is what makes the two agree.
-/
import Mathlib.Data.List.Basic
import MermaidPress.Proofs.Path.Normal

namespace MermaidPress.Path

/-! ## The shared front -/

/-- The longest list that both lists begin with. -/
structure IsLongestShared (shared as bs : List Component) : Prop where
  left : shared <+: as
  right : shared <+: bs
  longest : ∀ other, other <+: as → other <+: bs → other.length ≤ shared.length

theorem take_sharedDepth (as bs : List Component) :
    as.take (sharedDepth as bs) = bs.take (sharedDepth as bs) := by
  fun_induction sharedDepth as bs with
  | case1 a as bs ih => rw [List.take_succ_cons, List.take_succ_cons, ih]
  | case2 => rfl
  | case3 => rfl

theorem sharedDepth_le (as bs : List Component) : sharedDepth as bs ≤ as.length := by
  fun_induction sharedDepth as bs with
  | case1 a as bs ih => exact Nat.succ_le_succ ih
  | case2 => exact Nat.zero_le _
  | case3 => exact Nat.zero_le _

theorem length_le_sharedDepth {other as bs : List Component} (ha : other <+: as)
    (hb : other <+: bs) : other.length ≤ sharedDepth as bs := by
  induction other generalizing as bs with
  | nil => exact Nat.zero_le _
  | cons c other ih =>
    obtain ⟨restA, rfl⟩ := ha
    obtain ⟨restB, rfl⟩ := hb
    rw [List.cons_append, List.cons_append, sharedDepth, if_pos rfl]
    exact Nat.succ_le_succ (ih (List.prefix_append _ _) (List.prefix_append _ _))

/-- `sharedDepth` is that of the longest shared front. -/
theorem isLongestShared_take (as bs : List Component) :
    IsLongestShared (as.take (sharedDepth as bs)) as bs where
  left := List.take_prefix _ _
  right := take_sharedDepth as bs ▸ List.take_prefix _ _
  longest other ha hb := by
    rw [List.length_take, Nat.min_eq_left (sharedDepth_le as bs)]
    exact length_le_sharedDepth ha hb

theorem isLongestShared_root (as bs : List Component) :
    IsLongestShared (.root :: as.take (sharedDepth as bs)) (.root :: as) (.root :: bs) := by
  have hlongest := isLongestShared_take (.root :: as) (.root :: bs)
  rwa [sharedDepth, if_pos rfl, List.take_succ_cons] at hlongest

theorem length_behind_shared (as bs : List Component) :
    (Component.root :: as).length - (Component.root :: as.take (sharedDepth as bs)).length =
      as.length - sharedDepth as bs := by
  rw [List.length_cons, List.length_cons, List.length_take, Nat.min_eq_left (sharedDepth_le as bs),
    Nat.add_sub_add_right]

/-! ## Texts joined by strokes -/

theorem later_joinWith {texts : List Text} (h : ∀ t ∈ texts, '/' ∉ t) :
    later (joinWith '/' texts) = texts.filterMap componentOf? := by
  induction texts with
  | nil => rfl
  | cons t texts ih =>
    obtain ⟨ht, hrest⟩ := List.forall_mem_cons.1 h
    have hcons : (t :: texts).filterMap componentOf? =
        (componentOf? t).toList ++ texts.filterMap componentOf? := by
      rw [List.filterMap_cons]
      cases componentOf? t <;> rfl
    rw [hcons, ← later_of_notMem ht, ← ih hrest]
    by_cases hnil : texts = []
    · rw [hnil]
      exact (List.append_nil _).symm
    · rw [joinWith_cons hnil, later_append_stroke]

theorem front_append_eq_nil {t : Text} (hstroke : '/' ∉ t) (hsome : (componentOf? t).isSome)
    (rest : Text) : front (t ++ rest) = [] := by
  have hne : t ≠ [] := by
    rintro rfl
    cases hsome
  have hpoint : t ≠ ['.'] := by
    rintro rfl
    cases hsome
  obtain ⟨c, t, rfl⟩ := List.exists_cons_of_ne_nil hne
  rw [List.mem_cons, not_or] at hstroke
  have habsolute : isAbsolute (c :: t ++ rest) ≠ true := by
    simp [isAbsolute, Ne.symm hstroke.1]
  have hcurrent : beginsAtCurrent (c :: t ++ rest) ≠ true := fun hcurrent => by
    unfold beginsAtCurrent at hcurrent
    split at hcurrent
    · rename_i heq
      obtain ⟨rfl, htail⟩ := List.cons.inj heq
      exact hpoint (by rw [(List.append_eq_nil_iff.1 htail).1])
    · rename_i heq
      obtain ⟨rfl, htail⟩ := List.cons.inj heq
      cases t with
      | nil => exact hpoint rfl
      | cons d t => exact hstroke.2 ((List.cons.inj htail).1 ▸ List.mem_cons_self)
    · cases hcurrent
  rw [front, if_neg habsolute, if_neg hcurrent]

theorem front_joinWith {texts : List Text} (hstroke : ∀ t ∈ texts, '/' ∉ t)
    (hsome : ∀ t ∈ texts, (componentOf? t).isSome) : front (joinWith '/' texts) = [] := by
  cases texts with
  | nil => rfl
  | cons t texts =>
    have hfirst := front_append_eq_nil (hstroke t List.mem_cons_self) (hsome t List.mem_cons_self)
    by_cases hnil : texts = []
    · rw [hnil, joinWith, ← List.append_nil t]
      exact hfirst []
    · rw [joinWith_cons hnil]
      exact hfirst _

theorem isAbsolute_of_front_eq_nil {path : Path} (h : front path = []) :
    isAbsolute path = false := by
  refine Bool.eq_false_iff.2 fun habsolute => ?_
  rw [front, if_pos habsolute] at h
  cases h

theorem filterMap_componentOf?_names {names : List Text} (h : ∀ name ∈ names, IsName name) :
    names.filterMap componentOf? = names.map .name := by
  induction names with
  | nil => rfl
  | cons name names ih =>
    obtain ⟨hname, hrest⟩ := List.forall_mem_cons.1 h
    rw [List.filterMap_cons_some hname.component, ih hrest, List.map_cons]

/-! ## The way from one directory to another -/

/-- The spelling of `n` steps up and a way down by names. -/
def upAndDown (n : Nat) (names : List Text) : Text :=
  joinWith '/' (List.replicate n (Component.text .parent) ++ names)

/-- Steps up and names are read back from `upAndDown`. -/
theorem parts_upAndDown (n : Nat) {names : List Text} (h : ∀ name ∈ names, IsName name) :
    front (upAndDown n names) = [] ∧
      later (upAndDown n names) = List.replicate n .parent ++ names.map .name := by
  have hups : (List.replicate n (Component.text .parent)).filterMap componentOf? =
      List.replicate n .parent := List.filterMap_replicate_of_some rfl
  have hparts : ∀ t ∈ List.replicate n (Component.text .parent) ++ names,
      '/' ∉ t ∧ (componentOf? t).isSome := fun t ht => by
    rcases List.mem_append.1 ht with ht | ht
    · rw [List.eq_of_mem_replicate ht]
      decide
    · exact ⟨(h t ht).stroke, by rw [(h t ht).component]; rfl⟩
  refine ⟨front_joinWith (fun t ht => (hparts t ht).1) fun t ht => (hparts t ht).2, ?_⟩
  rw [upAndDown, later_joinWith fun t ht => (hparts t ht).1, List.filterMap_append, hups,
    filterMap_componentOf?_names h]

theorem map_name_injective : Function.Injective (List.map Component.name) :=
  List.map_injective_iff.2 fun _ _ => Component.name.inj

/-- A reference between normal paths goes up from the one until what is left lies above the other,
and down from there. -/
theorem relativeReference_of_names {current document target : Path} {sources goals : List Text}
    (hsource : normalize (absolute current ((parent? document).getD [])) = ofNames sources)
    (hgoal : normalize (absolute current target) = ofNames goals)
    (hsources : ∀ name ∈ sources, IsName name) (hgoals : ∀ name ∈ goals, IsName name) :
    let depth := sharedDepth (sources.map .name) (goals.map .name)
    relativeReference current document target =
      upAndDown (sources.length - depth) (goals.drop depth) := by
  intro depth
  have hdepth : sharedDepth (.root :: sources.map .name) (.root :: goals.map .name) = depth + 1 := by
    rw [sharedDepth, if_pos rfl]
  have htext : Component.text ∘ .name = id := rfl
  unfold relativeReference
  simp only [hsource, hgoal, components_ofNames hsources, components_ofNames hgoals, hdepth]
  rw [if_neg (by simp), upAndDown, List.length_cons, List.length_map, Nat.add_sub_add_right,
    List.drop_succ_cons, ← List.map_drop, List.map_map, htext, List.map_id]

theorem descendAll_upAndDown (sources goals : List Text) :
    let depth := sharedDepth (sources.map .name) (goals.map .name)
    descendAll sources (List.replicate (sources.length - depth) .parent ++
      (goals.drop depth).map .name) = goals := by
  intro depth
  have hle : depth ≤ sources.length := by
    simpa using sharedDepth_le (sources.map .name) (goals.map .name)
  have hshared : sources.take depth = goals.take depth := by
    refine map_name_injective ?_
    rw [List.map_take, List.map_take]
    exact take_sharedDepth _ _
  rw [descendAll_append, descendAll_parents, descendAll_names, Nat.sub_sub_self hle, hshared,
    List.take_append_drop]

/-- **A `relativeReference` leads from the document's directory to the target.** Seen from that
directory it names the same normal path as the target does. It is spelled by some `..`, one for each
component of the directory behind the longest front that it shares with the target, and behind these
by names. It is enough that paths are seen from an absolute directory, or that the document's
directory and the target are absolute themselves. -/
theorem relativeReference_resolves (current document target : Path)
    (h : isAbsolute current = true ∨
      isAbsolute ((parent? document).getD []) = true ∧ isAbsolute target = true) :
    let directory := absolute current ((parent? document).getD [])
    let goal := normalize (absolute current target)
    let reference := relativeReference current document target
    isAbsolute goal = true ∧ normalize (join directory reference) = goal ∧
    ∃ shared names, IsLongestShared shared (components (normalize directory)) (components goal) ∧
      components goal = shared ++ names.map .name ∧ (∀ name ∈ names, IsName name) ∧
      let ups := (components (normalize directory)).length - shared.length
      reference = upAndDown ups names ∧
        components reference = List.replicate ups .parent ++ names.map .name := by
  intro directory goal reference
  have hdirectory : isAbsolute directory = true := isAbsolute_absolute (h.imp_right And.left)
  have htarget : isAbsolute (absolute current target) = true :=
    isAbsolute_absolute (h.imp_right And.right)
  obtain ⟨hsource, hsources⟩ := normalize_of_isAbsolute hdirectory
  obtain ⟨hgoal, hgoals⟩ := normalize_of_isAbsolute htarget
  let sources := descendAll [] (later directory)
  let goals := descendAll [] (later (absolute current target))
  let depth := sharedDepth (sources.map .name) (goals.map .name)
  have hreference : reference = upAndDown (sources.length - depth) (goals.drop depth) :=
    relativeReference_of_names hsource hgoal hsources hgoals
  have hnames : ∀ name ∈ goals.drop depth, IsName name :=
    fun name hmem => hgoals name (List.mem_of_mem_drop hmem)
  obtain ⟨hfront, hlater⟩ := parts_upAndDown (sources.length - depth) hnames
  rw [← hreference] at hfront hlater
  have hresolved : normalize (join directory reference) = goal := by
    rw [normalize_join hdirectory (isAbsolute_of_front_eq_nil hfront), hlater]
    exact (congrArg ofNames (descendAll_upAndDown sources goals)).trans hgoal.symm
  have hgoal : goal = ofNames goals := hgoal
  have hsourceParts : components (normalize directory) = .root :: sources.map .name :=
    hsource ▸ components_ofNames hsources
  have hgoalParts : components goal = .root :: goals.map .name := hgoal ▸ components_ofNames hgoals
  refine ⟨hgoal ▸ isAbsolute_ofNames goals, hresolved, .root :: (sources.map .name).take depth,
    goals.drop depth, ?_, ?_, hnames, ?_⟩
  · rw [hsourceParts, hgoalParts]
    exact isLongestShared_root _ _
  · rw [hgoalParts, take_sharedDepth, List.map_drop, List.cons_append, List.take_append_drop]
  · dsimp only
    rw [hsourceParts, length_behind_shared, List.length_map, components_eq, hfront, hlater]
    exact ⟨hreference, rfl⟩

/-- A document above the current directory, and a target that is spelled the long way round. -/
theorem relativeReference_up_and_down :
    isAbsolute "/w/x".toList = true ∧
      relativeReference "/w/x".toList "../a/./b/d.md".toList ".././/a/c/../e/../../f.png".toList =
        "../../f.png".toList ∧
      normalize (join (absolute "/w/x".toList "../a/./b".toList) "../../f.png".toList) =
        "/w/f.png".toList := by
  have habsolute : isAbsolute "/w/x".toList = true := by decide
  have hreference : relativeReference "/w/x".toList "../a/./b/d.md".toList
      ".././/a/c/../e/../../f.png".toList = "../../f.png".toList := by decide +kernel
  have hparent : parent? "../a/./b/d.md".toList = some "../a/./b".toList := by decide +kernel
  have hgoal : normalize (absolute "/w/x".toList ".././/a/c/../e/../../f.png".toList) =
      "/w/f.png".toList := by decide +kernel
  obtain ⟨-, hresolved, -⟩ := relativeReference_resolves "/w/x".toList "../a/./b/d.md".toList
    ".././/a/c/../e/../../f.png".toList (.inl habsolute)
  rw [hreference, hparent, hgoal] at hresolved
  exact ⟨habsolute, hreference, hresolved⟩

end MermaidPress.Path
