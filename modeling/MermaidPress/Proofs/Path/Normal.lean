/-
Normal paths. A normal path is spelled by names alone, with a stroke before each of them; the root
is a single stroke. An absolute path that is normalized becomes the normal path of the names that are left
on a stack when its components are taken from the front on: a name goes on top, `..` takes the top
away where there is one, and all else leaves the stack as it is. What carries this is that a normal
path and its stack stay in step: to join a name is to push it, and to cut the path short is to pop.
`normalize_folds` says it of the stack of components, which has the root at its bottom.
-/
import Mathlib.Data.List.Induction
import MermaidPress.Proofs.Path.Parent

namespace MermaidPress.Path

/-! ## Stacks of names -/

/-- A stack of names, the last of them on top, behind one more component. -/
def descend (stack : List Text) : Component → List Text
  | .name name => stack ++ [name]
  | .parent => stack.dropLast
  | _ => stack

/-- A stack of names behind components, one `descend` after the other. -/
def descendAll (stack : List Text) (components : List Component) : List Text :=
  components.foldl descend stack

variable {stack names : List Text} {name : Text} {path : Path}

theorem descendAll_append (stack : List Text) (components more : List Component) :
    descendAll stack (components ++ more) = descendAll (descendAll stack components) more :=
  List.foldl_append

theorem descendAll_names (stack names : List Text) :
    descendAll stack (names.map .name) = stack ++ names := by
  induction names generalizing stack with
  | nil => simp [descendAll]
  | cons name names ih =>
    have hstep : descendAll stack ((name :: names).map .name) =
        descendAll (stack ++ [name]) (names.map .name) := rfl
    rw [hstep, ih, List.append_assoc, List.singleton_append]

/-- Every `..` takes one name away. -/
theorem descendAll_parents (stack : List Text) (n : Nat) :
    descendAll stack (List.replicate n .parent) = stack.take (stack.length - n) := by
  induction n generalizing stack with
  | zero => simp [descendAll]
  | succ n ih =>
    have hstep : descendAll stack (List.replicate (n + 1) .parent) =
        descendAll stack.dropLast (List.replicate n .parent) := rfl
    have hlength : stack.length - 1 - n = stack.length - (n + 1) := by omega
    rw [hstep, ih, List.length_dropLast, hlength, List.dropLast_eq_take, List.take_take,
      Nat.min_eq_left (by omega)]

/-! ## The spelling of a normal path -/

theorem joinWith_cons {separator : Char} {texts : List Text} (h : texts ≠ []) (t : Text) :
    joinWith separator (t :: texts) = t ++ separator :: joinWith separator texts := by
  obtain ⟨first, rest, rfl⟩ := List.exists_cons_of_ne_nil h
  rfl

theorem joinWith_concat {separator : Char} {texts : List Text} (h : texts ≠ []) (t : Text) :
    joinWith separator (texts ++ [t]) = joinWith separator texts ++ separator :: t := by
  induction texts with
  | nil => exact absurd rfl h
  | cons first texts ih =>
    by_cases hnil : texts = []
    · rw [hnil]
      rfl
    · rw [List.cons_append, joinWith_cons (by simp), joinWith_cons hnil, ih hnil]
      simp

/-- The absolute path with these names. -/
def ofNames (names : List Text) : Path := '/' :: joinWith '/' names

@[simp] theorem isAbsolute_ofNames (names : List Text) : isAbsolute (ofNames names) = true := rfl

theorem ofNames_concat (stack : List Text) (name : Text) :
    ofNames (stack ++ [name]) = (if stack = [] then [] else ofNames stack) ++ '/' :: name := by
  unfold ofNames
  split
  · simp [*, joinWith]
  · rename_i hne
    rw [joinWith_concat hne, List.cons_append]

theorem IsName.ne_nil (h : IsName name) : name ≠ [] := fun hnil => by
  have hcomponent := h.component
  rw [hnil] at hcomponent
  cases hcomponent

theorem isName_of_mem_concat (hstack : ∀ name ∈ stack, IsName name) (hname : IsName name) :
    ∀ n ∈ stack ++ [name], IsName n := by
  intro n hn
  rcases List.mem_append.1 hn with hn | hn
  · exact hstack n hn
  · exact List.mem_singleton.1 hn ▸ hname

/-- To `join` a name is to push it. -/
theorem join_ofNames (hstack : ∀ name ∈ stack, IsName name) (hname : IsName name) :
    join (ofNames stack) name = ofNames (stack ++ [name]) := by
  rw [join, isAbsolute_of_isName hname, if_neg Bool.false_ne_true, ofNames_concat]
  obtain rfl | ⟨front, last, rfl⟩ := List.eq_nil_or_concat stack
  · rfl
  · rw [List.concat_eq_append] at hstack ⊢
    have hlast : IsName last := hstack last (by simp)
    have hend : (ofNames (front ++ [last])).getLast? ≠ some '/' := fun hend => by
      rw [ofNames_concat, ← List.singleton_append, ← List.append_assoc, List.getLast?_append,
        List.getLast?_eq_some_getLast hlast.ne_nil, Option.some_or, Option.some.injEq] at hend
      exact hlast.stroke (hend ▸ List.getLast_mem hlast.ne_nil)
    have hne : ofNames (front ++ [last]) ≠ [] := List.cons_ne_nil _ _
    rw [if_neg (by simp [hne, hend]), if_neg (by simp)]

theorem later_ofNames (h : ∀ name ∈ names, IsName name) :
    later (ofNames names) = names.map .name := by
  induction names using List.reverseRecOn with
  | nil => rfl
  | append_singleton names name ih =>
    have hnames : ∀ name ∈ names, IsName name := fun n hn => h n (List.mem_append_left _ hn)
    have hname : IsName name := h name (by simp)
    rw [← join_ofNames hnames hname, later_join hname, ih hnames, List.map_append,
      List.map_singleton]

theorem components_of_isAbsolute (h : isAbsolute path = true) :
    components path = .root :: later path := by
  rw [components_eq, front, if_pos h]
  rfl

theorem components_ofNames (h : ∀ name ∈ names, IsName name) :
    components (ofNames names) = .root :: names.map .name := by
  rw [components_of_isAbsolute (isAbsolute_ofNames names), later_ofNames h]

/-! ## Going up -/

theorem laterSteps_append_name (h : IsName name) (path : Path) :
    laterSteps (path ++ '/' :: name) =
      laterSteps path ++ [⟨.name name, (path ++ '/' :: name).length⟩] := by
  have hplace : 0 + path.length + 1 + name.length = (path ++ '/' :: name).length := by
    rw [List.length_append, List.length_cons]
    omega
  have hpiece : stepOf? (name, (path ++ '/' :: name).length) =
      some ⟨.name name, (path ++ '/' :: name).length⟩ := by
    rw [stepOf?, h.component]
    rfl
  rw [laterSteps, pieces_append_stroke, pieces_of_notMem h.stroke, hplace, List.nil_append,
    List.filterMap_append, List.filterMap_cons_some hpiece, List.filterMap_nil, laterSteps]

theorem steps_ofNames_concat (hname : IsName name) (stack : List Text) :
    steps (ofNames (stack ++ [name])) =
      steps (ofNames stack) ++ [⟨.name name, (ofNames (stack ++ [name])).length⟩] := by
  have hsteps (names : List Text) :
      steps (ofNames names) = ⟨.root, 1⟩ :: laterSteps (ofNames names) := rfl
  have hlater : laterSteps (if stack = [] then [] else ofNames stack) = laterSteps (ofNames stack) := by
    split
    · simp only [*]
      rfl
    · rfl
  rw [hsteps, hsteps, ofNames_concat, laterSteps_append_name hname, hlater, List.cons_append]

theorem exists_last_step_ofNames (h : ∀ name ∈ names, IsName name) :
    ∃ step, (steps (ofNames names)).getLast? = some step ∧ step.stop = (ofNames names).length := by
  obtain rfl | ⟨front, last, rfl⟩ := List.eq_nil_or_concat names
  · exact ⟨⟨.root, 1⟩, rfl, rfl⟩
  · rw [List.concat_eq_append] at h ⊢
    rw [steps_ofNames_concat (h last (by simp)), List.getLast?_concat]
    exact ⟨_, rfl, rfl⟩

theorem ofNames_prefix_concat (stack : List Text) (name : Text) :
    ofNames stack <+: ofNames (stack ++ [name]) := by
  rw [ofNames_concat]
  split
  · simp [*, ofNames, joinWith]
  · exact List.prefix_append _ _

/-- To `pop` a normal path is to pop its stack; the root stays. -/
theorem pop_ofNames (h : ∀ name ∈ stack, IsName name) :
    pop (ofNames stack) = ofNames stack.dropLast := by
  obtain rfl | ⟨front, last, rfl⟩ := List.eq_nil_or_concat stack
  · rfl
  · rw [List.concat_eq_append] at h ⊢
    have hfront : ∀ name ∈ front, IsName name := fun n hn => h n (List.mem_append_left _ hn)
    obtain ⟨step, hstep, hstop⟩ := exists_last_step_ofNames hfront
    rw [pop, parent?_of_steps (steps_ofNames_concat (h last (by simp)) front), hstep,
      List.dropLast_concat]
    simp only [hstop, Option.getD_some]
    exact (List.prefix_iff_eq_take.1 (ofNames_prefix_concat front last)).symm

/-! ## Normalizing -/

/-- `normalize` makes the normal path of the names that the components leave on the stack. -/
theorem normalize_of_isAbsolute (h : isAbsolute path = true) :
    normalize path = ofNames (descendAll [] (later path)) ∧
      ∀ name ∈ descendAll [] (later path), IsName name := by
  rw [normalize, components_of_isAbsolute h, List.foldl_cons, descendAll]
  refine List.foldl_rel (r := fun path stack => path = ofNames stack ∧ ∀ name ∈ stack, IsName name)
    ⟨rfl, fun _ hmem => by cases hmem⟩ fun component hmem sofar stack hsofar => ?_
  obtain ⟨rfl, hstack⟩ := hsofar
  obtain ⟨hroot, hcurrent, -⟩ := exists_piece_of_mem_later hmem
  cases component with
  | root => exact absurd rfl hroot
  | current => exact absurd rfl hcurrent
  | parent => exact ⟨pop_ofNames hstack, fun n hn => hstack n (List.dropLast_subset _ hn)⟩
  | name name =>
    have hname : IsName name := isName_of_mem_later hmem
    exact ⟨join_ofNames hstack hname, isName_of_mem_concat hstack hname⟩

/-- A relative path behind an absolute one goes on with the stack that that one leaves. -/
theorem normalize_join {base next : Path} (hbase : isAbsolute base = true)
    (hnext : isAbsolute next = false) :
    normalize (join base next) = ofNames (descendAll (descendAll [] (later base)) (later next)) := by
  have habsolute : isAbsolute (join base next) = true := by
    rw [isAbsolute_join, hbase, Bool.true_or]
  rw [(normalize_of_isAbsolute habsolute).1, later_join_of_relative hnext, descendAll_append]

theorem later_normalize (h : isAbsolute path = true) :
    later (normalize path) = (descendAll [] (later path)).map .name := by
  obtain ⟨heq, hnames⟩ := normalize_of_isAbsolute h
  rw [heq, later_ofNames hnames]

theorem isAbsolute_normalize (h : isAbsolute path = true) : isAbsolute (normalize path) = true := by
  rw [(normalize_of_isAbsolute h).1, isAbsolute_ofNames]

/-- What is left of a path by `normalize` leaves the same stack. -/
theorem descendAll_later_normalize (h : isAbsolute path = true) :
    descendAll [] (later (normalize path)) = descendAll [] (later path) := by
  rw [later_normalize h, descendAll_names, List.nil_append]

/-! ## The stack with the root -/

/-- One component taken onto a stack of components: `.` is skipped, `..` takes the top away unless
that is the root, and all else comes on top. -/
def settle (stack : List Component) : Component → List Component
  | .current => stack
  | .parent => if stack.getLast? = some .root then stack else stack.dropLast
  | component => stack ++ [component]

/-- The root is at the bottom of the stack for good: above it, `settle` is `descend`. -/
theorem settle_root {component : Component} (hroot : component ≠ .root) (names : List Text) :
    settle (.root :: names.map .name) component = .root :: (descend names component).map .name := by
  cases component with
  | root => exact absurd rfl hroot
  | current => rfl
  | name name => simp [settle, descend]
  | parent =>
    obtain rfl | ⟨front, last, rfl⟩ := List.eq_nil_or_concat names
    · rfl
    · rw [List.concat_eq_append, settle, descend, List.dropLast_concat, List.map_append,
        List.map_singleton, ← List.cons_append, List.getLast?_concat, List.dropLast_concat,
        if_neg (by simp)]

theorem foldl_settle_root {components : List Component}
    (h : ∀ component ∈ components, component ≠ .root) (names : List Text) :
    components.foldl settle (.root :: names.map .name) =
      .root :: (descendAll names components).map .name := by
  induction components generalizing names with
  | nil => rfl
  | cons component components ih =>
    obtain ⟨hfirst, hrest⟩ := List.forall_mem_cons.1 h
    rw [List.foldl_cons, settle_root hfirst, ih hrest]
    rfl

theorem foldl_settle_take (h : isAbsolute path = true) (n : ℕ) :
    ((components path).take (n + 1)).foldl settle [] =
      .root :: (descendAll [] ((later path).take n)).map .name := by
  have hroot : ∀ component ∈ (later path).take n, component ≠ .root :=
    fun component hmem => (exists_piece_of_mem_later (List.mem_of_mem_take hmem)).1
  rw [components_of_isAbsolute h, List.take_succ_cons, List.foldl_cons]
  exact foldl_settle_root hroot []

theorem components_normalize (h : isAbsolute path = true) :
    components (normalize path) = (components path).foldl settle [] := by
  have hall := foldl_settle_take h (later path).length
  rw [List.take_length, components_of_isAbsolute h, ← List.length_cons, List.take_length] at hall
  rw [components_of_isAbsolute (isAbsolute_normalize h), later_normalize h,
    components_of_isAbsolute h, hall]

/-- **`normalize` is a fold over the components.** An absolute path becomes one of the root and
names, and that one is not changed by `normalize` again. With a relative path behind it, a path may
be normalized by itself before the whole is. The components of the result are what is left on a
stack that skips `.`, puts names on top and takes the top away for `..`, with the root at its bottom
all along. -/
theorem normalize_folds (path : Path) (h : isAbsolute path = true) :
    (isAbsolute (normalize path) = true ∧
      ∃ names : List Text, components (normalize path) = .root :: names.map .name ∧
        ∀ name ∈ names, IsName name) ∧
    normalize (normalize path) = normalize path ∧
    (∀ next, isAbsolute next = false →
      normalize (join path next) = normalize (join (normalize path) next)) ∧
    components (normalize path) = (components path).foldl settle [] ∧
    ∀ n, ∃ names : List Text,
      ((components path).take (n + 1)).foldl settle [] = .root :: names.map .name := by
  have habsolute := isAbsolute_normalize h
  obtain ⟨hnormal, hnames⟩ := normalize_of_isAbsolute h
  refine ⟨⟨habsolute, descendAll [] (later path), ?_, hnames⟩, ?_, ?_, components_normalize h,
    fun n => ⟨_, foldl_settle_take h n⟩⟩
  · rw [components_of_isAbsolute habsolute, later_normalize h]
  · rw [(normalize_of_isAbsolute habsolute).1, descendAll_later_normalize h, ← hnormal]
  · intro next hnext
    rw [normalize_join h hnext, normalize_join habsolute hnext, descendAll_later_normalize h]

theorem normalize_folds_above_root :
    isAbsolute "/a/./b//../../../c/d/".toList = true ∧
      isAbsolute "../e/./f".toList = false ∧
      normalize "/a/./b//../../../c/d/".toList = "/c/d".toList ∧
      components "/c/d".toList = (components "/a/./b//../../../c/d/".toList).foldl settle [] ∧
      normalize (join "/a/./b//../../../c/d/".toList "../e/./f".toList) =
        normalize (join "/c/d".toList "../e/./f".toList) := by
  have habsolute : isAbsolute "/a/./b//../../../c/d/".toList = true := by decide
  have hnext : isAbsolute "../e/./f".toList = false := by decide
  have hnormal : normalize "/a/./b//../../../c/d/".toList = "/c/d".toList := by decide +kernel
  obtain ⟨-, -, hjoin, hstack, -⟩ := normalize_folds "/a/./b//../../../c/d/".toList habsolute
  rw [hnormal] at hjoin hstack
  exact ⟨habsolute, hnext, hnormal, hstack, hjoin _ hnext⟩

/-! ## Seen from a normal directory -/

variable {current next : Path}

/-- The path is absolute, and spelled by names alone. -/
def IsNormal (path : Path) : Prop := ∃ names, path = ofNames names ∧ ∀ name ∈ names, IsName name

theorem IsNormal.isAbsolute (h : IsNormal path) : isAbsolute path = true := by
  obtain ⟨names, rfl, -⟩ := h
  exact isAbsolute_ofNames names

theorem join_nil (path : Path) : join [] path = path := by
  unfold join
  split <;> rfl

/-- The empty path is the only one for which `absolute?` gives none. -/
theorem absolute?_eq_none_iff : absolute? current path = none ↔ path = [] := by
  unfold absolute?
  split
  · simpa using ‹path.isEmpty = true›
  · simpa using ‹¬ path.isEmpty = true›

theorem joinAll_append (start : Path) (components more : List Component) :
    joinAll start (components ++ more) = joinAll (joinAll start components) more :=
  List.foldl_append

theorem joinAll_names (hstack : ∀ name ∈ stack, IsName name)
    (hnames : ∀ name ∈ names, IsName name) :
    joinAll (ofNames stack) (names.map .name) = ofNames (stack ++ names) := by
  induction names generalizing stack with
  | nil => simp [joinAll]
  | cons name names ih =>
    obtain ⟨hname, hnames⟩ := List.forall_mem_cons.1 hnames
    have hstep : joinAll (ofNames stack) ((name :: names).map .name) =
        joinAll (join (ofNames stack) name) (names.map .name) := rfl
    have hpushed := isName_of_mem_concat hstack hname
    rw [hstep, join_ofNames hstack hname, ih hpushed hnames, List.append_assoc,
      List.singleton_append]

theorem getLast?_join (h : next ≠ []) (base : Path) :
    (join base next).getLast? = next.getLast? := by
  unfold join
  split
  · rfl
  · split
    · rw [List.getLast?_append, List.getLast?_eq_some_getLast h, Option.some_or]
    · rw [List.getLast?_append, List.getLast?_cons, List.getLast?_eq_some_getLast h, Option.some_or,
        Option.getD_some]

theorem take_two_join (hcurrent : IsNormal current) (hnext : isAbsolute next = false) :
    (join current next).take 2 ≠ ['/', '/'] := by
  obtain ⟨names, rfl, hnames⟩ := hcurrent
  cases names with
  | nil =>
    have hjoin : join (ofNames []) next = '/' :: next := by
      rw [join, hnext, if_neg Bool.false_ne_true]
      rfl
    intro htake
    rw [hjoin] at htake
    cases next with
    | nil => simp at htake
    | cons c next =>
      obtain rfl : c = '/' := by simpa using htake
      cases hnext
  | cons name names =>
    have hname := hnames name List.mem_cons_self
    obtain ⟨c, name, rfl⟩ := List.exists_cons_of_ne_nil hname.ne_nil
    have hc : c ≠ '/' := fun heq => hname.stroke (heq ▸ List.mem_cons_self)
    have hfirst : ∃ rest, ofNames ((c :: name) :: names) = '/' :: c :: rest := by
      cases names with
      | nil => exact ⟨name, rfl⟩
      | cons other names => exact ⟨name ++ '/' :: joinWith '/' (other :: names), rfl⟩
    obtain ⟨rest, hfirst⟩ := hfirst
    rw [join, hnext, if_neg Bool.false_ne_true, hfirst]
    split <;> simpa using hc

/-- A relative path is made absolute as it is joined to the current directory. The empty path is the
one that makes a difference: `absolute?` gives none for it, but a path for what is joined. -/
theorem absolute?_join (hcurrent : IsNormal current) (hne : next ≠ []) :
    absolute? current (join current next) = absolute? current next := by
  cases hnext : isAbsolute next with
  | true => rw [join, hnext, if_pos rfl]
  | false =>
    have htwo := take_two_join hcurrent hnext
    obtain ⟨names, rfl, hnames⟩ := hcurrent
    have habsolute : isAbsolute (join (ofNames names) next) = true := by
      rw [isAbsolute_join, isAbsolute_ofNames, Bool.true_or]
    have hjoin : join (ofNames names) next ≠ [] := by
      intro hnil
      rw [hnil] at habsolute
      cases habsolute
    have hlater : joinAll ['/'] (later (join (ofNames names) next)) =
        joinAll (ofNames names) (later next) := by
      have hroot : joinAll (ofNames []) (names.map .name) = ofNames ([] ++ names) :=
        joinAll_names (by simp) hnames
      rw [later_join_of_relative hnext, later_ofNames hnames, joinAll_append]
      exact congrArg (joinAll · _) hroot
    have hdirect : absolute? (ofNames names) next = some
        (if next.getLast? = some '/' then join (joinAll (ofNames names) (later next)) []
          else joinAll (ofNames names) (later next)) := by
      unfold absolute?
      rw [if_neg (by simpa using hne), filter_components, hnext]
      rfl
    have hjoined : absolute? (ofNames names) (join (ofNames names) next) = some
        (if next.getLast? = some '/' then join (joinAll ['/'] (later (join (ofNames names) next))) []
          else joinAll ['/'] (later (join (ofNames names) next))) := by
      unfold absolute?
      rw [if_neg (by simpa using hjoin), filter_components, habsolute, getLast?_join hne]
      simp only [htwo, decide_false, Bool.false_and, Bool.false_eq_true, if_false, Bool.not_true]
      rfl
    rw [hjoined, hlater, hdirect]

end MermaidPress.Path
