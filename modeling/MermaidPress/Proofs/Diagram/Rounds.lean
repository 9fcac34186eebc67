/-
Repairs one after the other, each of what the one before it left. A repair leaves a tidy text, so
only the first four passes can find work in it, and whatever they change costs a sign. A round in
which they are silent is quiet: all it changes is spacing. A quiet round behind a quiet round changes
nothing, and there are signs for so many others only.
-/
import Mathlib.Logic.Function.Iterate
import MermaidPress.Proofs.Diagram.Signs
import MermaidPress.Proofs.Diagram.Tidying

namespace MermaidPress.Diagram

open Text

attribute [ext] Repaired

/-! ## A repair in two parts -/

/-- What the first four `passes` make of a source: all but those of spacing. -/
def mend (source : Text) : Repaired :=
  (passes.take 4).foldl Repaired.step { source, changes := [] }

theorem source_repair (source : Text) : (repair source).source = tidy (mend source).source := rfl

theorem changes_repair (source : Text) : (repair source).changes =
    (mend source).changes ++ (spaceArrows (mend source).source).2 ++
      (quoteSubgraphs (spaced (mend source).source)).2 := rfl

theorem mend_of_changes_eq_nil {source : Text} (h : (mend source).changes = []) :
    (mend source).source = source :=
  foldl_step_of_changes_eq_nil (List.take_subset 4 passes) h

/-- A range that was spelled out. -/
def Change.isRange : Change → Bool
  | rangeSpelledOut .. => true
  | _ => false

theorem Change.isSpacing_eq_false_of_isRange {change : Change} (h : change.isRange = true) :
    change.isSpacing = false := by
  cases change with
  | rangeSpelledOut => rfl
  | _ => cases h

theorem isRange_of_mem_spellOutRanges {t : Text} :
    ∀ change ∈ (spellOutRanges t).2, change.isRange = true := by
  intro change hmem
  obtain ⟨note, hnote, rfl⟩ := List.mem_filterMap.1 hmem
  refine forall_mem_notes (P := fun note => ∀ change, note = some change → change.isRange = true)
    (fun t hit hhit change hchange => ?_) t _ hnote change rfl
  obtain ⟨head, chain, -, -, hn⟩ := chainLabel?_eq_some hhit
  rw [hn] at hchange
  split at hchange
  · obtain rfl := Option.some.inj hchange
    rfl
  · cases hchange

theorem isSpacing_of_mem_report {change : Change} {spacing : Bool} (h : change.isSpacing = spacing)
    (p : Prop) [Decidable p] : ∀ other ∈ if p then [] else [change], other.isSpacing = spacing := by
  split
  · simp
  · simpa using h

/-- `mend` reports no change of spacing. -/
theorem not_isSpacing_of_mem_mend {source : Text} :
    ∀ change ∈ (mend source).changes, change.isSpacing = false := by
  have hpass : ∀ pass ∈ passes.take 4, ∀ t, ∀ change ∈ (pass t).2, change.isSpacing = false := by
    intro pass hp t
    simp only [passes, List.take_succ_cons, List.take_zero, List.mem_cons, List.not_mem_nil,
      or_false] at hp
    rcases hp with rfl | rfl | rfl | rfl
    · exact isSpacing_of_mem_report rfl _
    · exact isSpacing_of_mem_report rfl _
    · exact fun change hmem =>
        Change.isSpacing_eq_false_of_isRange (isRange_of_mem_spellOutRanges change hmem)
    · exact isSpacing_of_mem_report rfl _
  unfold mend
  refine List.foldlRecOn (motive := fun state => ∀ change ∈ state.changes, change.isSpacing = false)
    (passes.take 4) Repaired.step ?_ fun state ih pass hp change hmem => ?_
  · exact fun _ hmem => absurd hmem List.not_mem_nil
  · rcases List.mem_append.1 hmem with hmem | hmem
    · exact ih change hmem
    · exact hpass pass hp state.source change hmem

theorem changes_mend_eq_nil {source : Text} (h : mends (repair source).changes = 0) :
    (mend source).changes = [] := by
  rw [mends_eq_zero_iff, changes_repair] at h
  refine List.eq_nil_iff_forall_not_mem.2 fun change hmem => ?_
  have hspacing := h change (List.mem_append_left _ (List.mem_append_left _ hmem))
  rw [not_isSpacing_of_mem_mend change hmem] at hspacing
  cases hspacing

theorem source_repair_of_quiet {source : Text} (h : mends (repair source).changes = 0) :
    (repair source).source = tidy source := by
  rw [source_repair, mend_of_changes_eq_nil (changes_mend_eq_nil h)]

/-- In a `tidy` text only `mend` can find work. -/
theorem repair_tidy {t : Text} (h : (mend (tidy t)).changes = []) :
    repair (tidy t) = { source := tidy t, changes := [] } := by
  have hsource := mend_of_changes_eq_nil h
  have hspaced : (spaceArrows (tidy t)).2 = [] := if_pos (spaced_tidy t)
  have hquoted : (quoteSubgraphs (tidy t)).2 = [] := if_pos (quoted_tidy t)
  ext1
  · rw [source_repair, hsource, tidy_tidy]
  · rw [changes_repair, hsource, h, spaced_tidy, hspaced, hquoted]
    rfl

/-- **`repair` reports nothing exactly where it changes nothing.** No pass takes back what one
before it did: a source that comes out as it went in has paid no sign, so the first four passes were
silent; and as it is `tidy`, the other two were. -/
theorem changes_eq_nil_iff (source : Text) :
    (repair source).changes = [] ↔ (repair source).source = source := by
  refine ⟨repair_of_changes_eq_nil, fun h => ?_⟩
  have hsigns := signs_repair source
  rw [h] at hsigns
  have hquiet : mends (repair source).changes = 0 := by omega
  have htidy := (source_repair_of_quiet hquiet).symm.trans h
  have hmend := changes_mend_eq_nil hquiet
  rw [← htidy] at hmend
  rw [← htidy, repair_tidy hmend]

/-- **`repair` has nothing to say about what a repair left** exactly where `mend` has not. -/
theorem repair_idempotent_iff (source : Text) :
    repair (repair source).source = { source := (repair source).source, changes := [] } ↔
      (mend (repair source).source).changes = [] := by
  constructor
  · intro h
    have hchanges := congrArg Repaired.changes h
    rw [changes_repair] at hchanges
    exact (List.append_eq_nil_iff.1 (List.append_eq_nil_iff.1 hchanges).1).1
  · intro h
    rw [source_repair] at h ⊢
    exact repair_tidy h

/-- Of three heads behind an arrow one repair takes one, and the next one the other. -/
theorem not_repair_idempotent_of_third_head :
    repair "A-->>>B".toList = { source := "A --> >B".toList, changes := [.arrowsMended] } ∧
    repair "A --> >B".toList =
      { source := "A --> B".toList, changes := [.arrowsMended, .arrowsSpaced] } ∧
    ¬ ∀ source, repair (repair source).source =
      { source := (repair source).source, changes := [] } := by
  have hfirst : repair "A-->>>B".toList =
      { source := "A --> >B".toList, changes := [.arrowsMended] } := by decide +kernel
  have hsecond : repair "A --> >B".toList =
      { source := "A --> B".toList, changes := [.arrowsMended, .arrowsSpaced] } := by decide +kernel
  refine ⟨hfirst, hsecond, fun h => ?_⟩
  have hidempotent := h "A-->>>B".toList
  rw [hfirst, hsecond] at hidempotent
  cases congrArg Repaired.changes hidempotent

/-! ## Rounds -/

/-- The source after `n` times `repair`. -/
def rounds (source : Text) (n : ℕ) : Text := (fun t => (repair t).source)^[n] source

theorem rounds_succ (source : Text) (n : ℕ) :
    rounds source (n + 1) = (repair (rounds source n)).source := Function.iterate_succ_apply' _ _ _

/-- A stock that noise is paid from lasts until two rounds in a row are quiet. -/
theorem exists_quiet_pair (stock noise : ℕ → ℕ) (h : ∀ n, stock (n + 1) + noise n ≤ stock n) :
    ∃ n ≤ 2 * stock 0, noise n = 0 ∧ noise (n + 1) = 0 := by
  induction hm : stock 0 using Nat.strongRecOn generalizing stock noise with
  | ind m ih =>
    by_cases hquiet : noise 0 = 0 ∧ noise 1 = 0
    · exact ⟨0, Nat.zero_le _, hquiet⟩
    · -- one of the first two rounds has taken from the stock, so less is left for those behind
      have hzero : stock 1 + noise 0 ≤ stock 0 := h 0
      have hone : stock 2 + noise 1 ≤ stock 1 := h 1
      have hspent : stock 2 < m := by omega
      obtain ⟨n, hn, hpair⟩ := ih (stock 2) hspent (fun k => stock (k + 2))
        (fun k => noise (k + 2)) (fun k => h (k + 2)) rfl
      exact ⟨n + 2, by omega, hpair⟩

theorem signs_rounds (source : Text) (n : ℕ) :
    signs (rounds source (n + 1)) + mends (repair (rounds source n)).changes ≤
      signs (rounds source n) := by
  rw [rounds_succ]
  exact signs_repair _

/-- A quiet round behind a quiet round reports nothing at all. -/
theorem changes_of_quiet_pair {source : Text} {n : ℕ}
    (h : mends (repair (rounds source n)).changes = 0)
    (hnext : mends (repair (rounds source (n + 1))).changes = 0) :
    (repair (rounds source (n + 1))).changes = [] := by
  have hmend := changes_mend_eq_nil hnext
  rw [rounds_succ, source_repair_of_quiet h] at hmend ⊢
  rw [repair_tidy hmend]

/-- A source that `repair` leaves as it is has nothing reported: all `rounds` of it are one and the
same. -/
theorem changes_eq_nil_of_source_eq {source : Text} (h : (repair source).source = source) :
    (repair source).changes = [] := by
  have hsigns := signs_repair source
  rw [h] at hsigns
  have hquiet : mends (repair source).changes = 0 := by omega
  have hround : rounds source 1 = source := h
  rw [← hround]
  exact changes_of_quiet_pair (n := 0) hquiet (by rwa [hround])

theorem rounds_eq_of_le {source : Text} {n k : ℕ} (h : (repair (rounds source n)).changes = [])
    (hk : n ≤ k) : rounds source k = rounds source n := by
  induction k, hk using Nat.le_induction with
  | base => rfl
  | succ k hk ih => rw [rounds_succ, ih, repair_of_changes_eq_nil h]

/-- **Repairs in a row come to an end.** The `signs` never become more, and fewer in a round that
changes more than spacing; a round that does not, behind another that does not, reports nothing; so
some round of the first `2 * signs source + 2` reports nothing, and from there on the source stays
the same. -/
theorem rounds_settle (source : Text) :
    (∀ n, signs (rounds source (n + 1)) ≤ signs (rounds source n)) ∧
    (∀ n, (∃ change ∈ (repair (rounds source n)).changes, change.isSpacing = false) →
      signs (rounds source (n + 1)) < signs (rounds source n)) ∧
    (∀ n, (∀ change ∈ (repair (rounds source n)).changes, change.isSpacing = true) →
      (∀ change ∈ (repair (rounds source (n + 1))).changes, change.isSpacing = true) →
      (repair (rounds source (n + 1))).changes = []) ∧
    (∃ n < 2 * signs source + 2, (repair (rounds source n)).changes = []) ∧
    (∀ n, (repair (rounds source n)).changes = [] → ∀ k ≥ n, rounds source k = rounds source n) := by
  have hpaid := signs_rounds source
  refine ⟨fun n => ?_, fun n hnoisy => ?_, fun n hquiet hnext => ?_, ?_,
    fun n hsilent k => rounds_eq_of_le hsilent⟩
  · exact Nat.le_trans (Nat.le_add_right _ _) (hpaid n)
  · obtain ⟨change, hmem, hchange⟩ := hnoisy
    have hmends : mends (repair (rounds source n)).changes ≠ 0 := fun hzero => by
      rw [mends_eq_zero_iff.1 hzero change hmem] at hchange
      cases hchange
    have := hpaid n
    omega
  · exact changes_of_quiet_pair (mends_eq_zero_iff.2 hquiet) (mends_eq_zero_iff.2 hnext)
  · obtain ⟨n, hn, hquiet, hnext⟩ := exists_quiet_pair
      (fun n => signs (rounds source n)) (fun n => mends (repair (rounds source n)).changes) hpaid
    have hstart : rounds source 0 = source := rfl
    rw [hstart] at hn
    exact ⟨n + 1, by omega, changes_of_quiet_pair hquiet hnext⟩

end MermaidPress.Diagram
