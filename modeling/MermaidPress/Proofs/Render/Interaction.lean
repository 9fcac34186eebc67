/-
Interactions one after the other. A first part that succeeds hands on its result and its
session, and one that fails ends the whole; so interactions form a lawful monad, and a program
of them can be read in stages. A session without a browser gets one in two: it launches one and
holds it.
-/
import MermaidPress.Render.Session

namespace MermaidPress

theorem exists_of_toOption_bind {ε α β : Type} {result : Except ε α} {f : α → Option β} {y : β}
    (h : result.toOption.bind f = some y) : ∃ a, result = .ok a ∧ f a = some y := by
  cases result with
  | ok a => exact ⟨a, rfl, h⟩
  | error e => cases h

namespace Interaction

variable {b : Backend} {ε α β γ : Type}

theorem bind_of_ok {work : Interaction b ε α} {next : α → Interaction b ε β} {s s' : Session b}
    {a : α} (h : work s = (.ok a, s')) : (work >>= next) s = next a s' := by
  simp only [bind, h]

theorem bind_of_error {work : Interaction b ε α} {next : α → Interaction b ε β}
    {s s' : Session b} {e : ε} (h : work s = (.error e, s')) :
    (work >>= next) s = (.error e, s') := by
  simp only [bind, h]

theorem bind_eq_ok_iff {work : Interaction b ε α} {next : α → Interaction b ε β}
    {s s' : Session b} {c : β} :
    (work >>= next) s = (.ok c, s') ↔ ∃ a t, work s = (.ok a, t) ∧ next a t = (.ok c, s') := by
  constructor
  · intro h
    cases hwork : work s with
    | mk result t =>
      cases result with
      | ok a => exact ⟨a, t, rfl, (bind_of_ok hwork).symm.trans h⟩
      | error e =>
        rw [bind_of_error hwork] at h
        cases h
  · rintro ⟨a, t, hwork, hnext⟩
    exact (bind_of_ok hwork).trans hnext

theorem bind_eq_error_iff {work : Interaction b ε α} {next : α → Interaction b ε β}
    {s s' : Session b} {e : ε} :
    (work >>= next) s = (.error e, s') ↔
      work s = (.error e, s') ∨ ∃ a t, work s = (.ok a, t) ∧ next a t = (.error e, s') := by
  constructor
  · intro h
    cases hwork : work s with
    | mk result t =>
      cases result with
      | ok a => exact .inr ⟨a, t, rfl, (bind_of_ok hwork).symm.trans h⟩
      | error e' =>
        obtain ⟨he, rfl⟩ := Prod.mk.inj ((bind_of_error hwork).symm.trans h)
        exact .inl (by rw [Except.error.inj he])
  · rintro (hwork | ⟨a, t, hwork, hnext⟩)
    · exact bind_of_error hwork
    · exact (bind_of_ok hwork).trans hnext

/-- What comes second matters only where the first part succeeds. -/
theorem bind_congr_of_ok {work : Interaction b ε α} {next next' : α → Interaction b ε β}
    {s : Session b} (h : ∀ a t, work s = (.ok a, t) → next a t = next' a t) :
    (work >>= next) s = (work >>= next') s := by
  cases hwork : work s with
  | mk result t =>
    cases result with
    | ok a => rw [bind_of_ok hwork, bind_of_ok hwork, h a t hwork]
    | error e => rw [bind_of_error hwork, bind_of_error hwork]

theorem id_map_interaction (work : Interaction b ε α) : id <$> work = work := by
  funext s
  cases h : work s with
  | mk result s' =>
    cases result with
    | ok a => exact bind_of_ok h
    | error e => exact bind_of_error h

theorem bind_assoc_interaction (work : Interaction b ε α) (next : α → Interaction b ε β)
    (last : β → Interaction b ε γ) :
    work >>= next >>= last = work >>= fun a => next a >>= last := by
  funext s
  cases h : work s with
  | mk result s' =>
    cases result with
    | error e => rw [bind_of_error (bind_of_error h), bind_of_error h]
    | ok a =>
      have hnext : (work >>= next) s = next a s' := bind_of_ok h
      rw [bind_of_ok h]
      cases h' : next a s' with
      | mk result s'' =>
        cases result with
        | ok b => rw [bind_of_ok (hnext.trans h'), bind_of_ok h']
        | error e => rw [bind_of_error (hnext.trans h'), bind_of_error h']

instance : LawfulMonad (Interaction b ε) :=
  LawfulMonad.mk' _ id_map_interaction (fun _ _ => rfl) bind_assoc_interaction

end Interaction

namespace Session

variable {b : Backend} {s : Session b}

/-- Takes a browser as the session's own. -/
def hold (browser : b.Browser) : Rendering b b.Browser := fun s =>
  (.ok browser, { s with browser := some browser })

theorem acquire_of_some {browser : b.Browser} (h : s.browser = some browser) :
    acquire s = (.ok browser, s) := by
  rw [acquire, h]

theorem acquire_of_none (h : s.browser = none) :
    acquire s = (ask .launch b.launch (fun _ => .done) >>= hold) s := by
  rw [acquire, h]
  dsimp only
  cases hwork : ask .launch b.launch (fun _ => .done) s with
  | mk result s' =>
    cases result with
    | ok browser => rw [Interaction.bind_of_ok hwork, hold]
    | error e => rw [Interaction.bind_of_error hwork]

theorem shutdown_of_none (h : s.browser = none) : shutdown s = (.ok (), s) := by
  rw [shutdown, h]

theorem shutdown_of_some {browser : b.Browser} (h : s.browser = some browser) :
    shutdown s = ask .closeBrowser (b.closeBrowser browser) (fun _ => .done)
      { s with browser := none } := by
  rw [shutdown, h]

end Session
end MermaidPress
