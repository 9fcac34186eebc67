/-
Variables that are missing. `expand` fills a text in unless one of its variables is not set and has
no fallback; the first of these is the one that is reported, and what stands before it does not
matter, nor what stands behind it.
-/
import MermaidPress.Config.Expansion

namespace MermaidPress.Expansion

variable {env : Environment} {t name : Text} {piece : Piece} {ps : List Piece}

/-- Every variable of the text that has no fallback is set. -/
def IsComplete (env : Environment) (t : Text) : Prop :=
  ∀ name, .reference name none ∈ pieces t → env name ≠ none

/-- The variable is the first one of the text that is not set and has no fallback. -/
def Lacks (env : Environment) (t name : Text) : Prop :=
  ∃ front behind, pieces t = front ++ .reference name none :: behind ∧ env name = none ∧
    ∀ other, .reference other none ∈ front → env other ≠ none

theorem fill_eq_error_iff :
    piece.fill env = .error name ↔ piece = .reference name none ∧ env name = none := by
  cases piece with
  | literal c => simp [Piece.fill]
  | reference other fallback =>
    constructor
    · intro h
      simp only [Piece.fill] at h
      split at h
      · cases h
      · cases h
      · rename_i hnone
        obtain rfl := Except.error.inj h
        exact ⟨rfl, hnone⟩
    · rintro ⟨hpiece, hnone⟩
      obtain ⟨rfl, rfl⟩ := Piece.reference.inj hpiece
      simp only [Piece.fill, hnone]

theorem exists_fill_eq_ok_iff : (∃ text, piece.fill env = .ok text) ↔
    ∀ name, piece = .reference name none → env name ≠ none := by
  cases hfill : piece.fill env with
  | ok text =>
    refine iff_of_true ⟨text, rfl⟩ ?_
    rintro name rfl hnone
    rw [fill_eq_error_iff.2 ⟨rfl, hnone⟩] at hfill
    cases hfill
  | error name =>
    obtain ⟨hpiece, hnone⟩ := fill_eq_error_iff.1 hfill
    refine iff_of_false ?_ fun h => h name hpiece hnone
    rintro ⟨text, htext⟩
    cases htext

/-- The first piece that cannot be filled is the one that `fillAll` reports. -/
theorem fillAll_eq_error_iff :
    fillAll env ps = .error name ↔
      ∃ front behind, ps = front ++ .reference name none :: behind ∧ env name = none ∧
        ∀ other, .reference other none ∈ front → env other ≠ none := by
  induction ps with
  | nil => simp [fillAll]
  | cons piece ps ih =>
    cases hfill : piece.fill env with
    | error missing =>
      obtain ⟨rfl, hmissing⟩ := fill_eq_error_iff.1 hfill
      have herror : fillAll env (.reference missing none :: ps) = .error missing := by
        simp only [fillAll, hfill, bind, Except.bind]
      rw [herror]
      constructor
      · intro h
        obtain rfl := Except.error.inj h
        exact ⟨[], ps, rfl, hmissing, by simp⟩
      · rintro ⟨front, behind, hpieces, -, hset⟩
        cases front with
        | nil =>
          obtain ⟨hfirst, -⟩ := List.cons.inj hpieces
          rw [(Piece.reference.inj hfirst).1]
        | cons first front =>
          obtain ⟨rfl, -⟩ := List.cons.inj hpieces
          exact absurd hmissing (hset missing List.mem_cons_self)
    | ok text =>
      have hrest : fillAll env (piece :: ps) = .error name ↔ fillAll env ps = .error name := by
        simp only [fillAll, hfill, bind, Except.bind]
        cases fillAll env ps with
        | ok others => simp
        | error missing => simp
      have hset := exists_fill_eq_ok_iff.1 ⟨text, hfill⟩
      rw [hrest, ih]
      constructor
      · rintro ⟨front, behind, rfl, hname, hfront⟩
        refine ⟨piece :: front, behind, rfl, hname, fun other hmem => ?_⟩
        rcases List.mem_cons.1 hmem with hpiece | hmem
        · exact hset other hpiece.symm
        · exact hfront other hmem
      · rintro ⟨front, behind, hpieces, hname, hfront⟩
        cases front with
        | nil =>
          obtain ⟨hfirst, -⟩ := List.cons.inj hpieces
          exact absurd hname (hset name hfirst)
        | cons first front =>
          obtain ⟨rfl, rfl⟩ := List.cons.inj hpieces
          exact ⟨front, behind, rfl, hname, fun other hmem =>
            hfront other (List.mem_cons_of_mem _ hmem)⟩

/-- `expand` reports the first variable that a text lacks. -/
theorem expand_eq_error_iff : expand env t = .error name ↔ Lacks env t name :=
  fillAll_eq_error_iff

theorem exists_fillAll_eq_ok_iff : (∃ text, fillAll env ps = .ok text) ↔
    ∀ name, .reference name none ∈ ps → env name ≠ none := by
  induction ps with
  | nil => simp [fillAll]
  | cons piece ps ih =>
    have hparts : (∃ text, fillAll env (piece :: ps) = .ok text) ↔
        (∃ text, piece.fill env = .ok text) ∧ ∃ text, fillAll env ps = .ok text := by
      simp only [fillAll, bind, Except.bind]
      cases piece.fill env with
      | error name => simp
      | ok text =>
        cases fillAll env ps with
        | error name => simp
        | ok others => simp
    rw [hparts, exists_fill_eq_ok_iff, ih]
    constructor
    · rintro ⟨hfirst, hrest⟩ name hmem
      rcases List.mem_cons.1 hmem with hpiece | hmem
      · exact hfirst name hpiece.symm
      · exact hrest name hmem
    · intro h
      exact ⟨fun name hpiece => h name (hpiece ▸ List.mem_cons_self),
        fun name hmem => h name (List.mem_cons_of_mem _ hmem)⟩

theorem exists_expand_eq_ok_iff : (∃ expanded, expand env t = .ok expanded) ↔ IsComplete env t :=
  exists_fillAll_eq_ok_iff

theorem exists_lacks (h : ¬ IsComplete env t) : ∃ name, Lacks env t name := by
  cases hexpand : expand env t with
  | ok expanded => exact absurd (exists_expand_eq_ok_iff.1 ⟨expanded, hexpand⟩) h
  | error name => exact ⟨name, expand_eq_error_iff.1 hexpand⟩

end MermaidPress.Expansion
