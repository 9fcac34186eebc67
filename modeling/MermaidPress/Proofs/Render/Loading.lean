/-
How long the loading of a page takes. It is made of two waits, one for the page to be shown and one
for it to be there as a whole, and each of them has the whole limit for itself. So the two together
are over by twice the limit, and they are over by the limit itself only in the cases that
`Loads.le_limit_iff` names: where there is no second wait, where the first one took no time, or
where a look of the second one is answered for good in what the first has left.
-/
import MermaidPress.Backend.Scripted
import MermaidPress.Proofs.Render.Ending
import MermaidPress.Proofs.Render.Polling
import MermaidPress.Proofs.Render.Stages

namespace MermaidPress

namespace Wait

variable {w : Wait} {last rest time : ℕ} {result : Except RenderError Unit}

/-- A look is answered with what ends the wait: a failure, or a value that counts as true. -/
def Decides (w : Wait) (k : ℕ) : Prop :=
  ∀ value, (w.answers k).result = .ok value → value.isTruthy = true

theorem Begins.ends_of_decides {k : ℕ} (h : w.Begins k) (hdecides : w.Decides k)
    (hin : w.answeredAt k ≤ w.limit.nanoseconds) : ∃ result, w.Ends k result (w.answeredAt k) := by
  cases hresult : (w.answers k).result with
  | ok value => exact ⟨_, .granted h hin hresult (hdecides value hresult)⟩
  | error e => exact ⟨_, .failed h hin hresult⟩

/-- A wait is over before its limit where an answer decides by then. -/
theorem Ends.le_iff (h : w.Ends last result time) (hrest : rest < w.limit.nanoseconds) :
    time ≤ rest ↔ ∃ k, w.Begins k ∧ w.Decides k ∧ w.answeredAt k ≤ rest := by
  constructor
  · intro hle
    cases h with
    | failed hbegins _ hfailed =>
      exact ⟨last, hbegins, fun value hvalue => by simp [hfailed] at hvalue, hle⟩
    | @granted value hbegins _ hvalue htrue =>
      refine ⟨last, hbegins, fun other hother => ?_, hle⟩
      rw [hvalue] at hother
      rwa [← Except.ok.inj hother]
    | cutOff => omega
    | lapsed => omega
  · rintro ⟨k, hbegins, hdecides, hle⟩
    obtain ⟨_, hends⟩ := hbegins.ends_of_decides hdecides (by omega)
    obtain ⟨-, -, rfl⟩ := h.unique hends
    exact hle

end Wait

/-! ## Two waits, one after the other -/

/-- How `loadPage` ends, by the reply to showing the page and by the wait that follows: its result,
and the time it took. -/
inductive Loads (shown : Reply Unit) (w : Wait) : Except RenderError Unit → ℕ → Prop
  /-- The limit comes before the page is shown. -/
  | cutOff (h : w.limit.nanoseconds < shown.delay.nanoseconds) :
      Loads shown w (.error w.expired) w.limit.nanoseconds
  | refused {e : RenderError} (h : shown.delay.nanoseconds ≤ w.limit.nanoseconds)
      (hresult : shown.result = .error e) : Loads shown w (.error e) shown.delay.nanoseconds
  | waited {last time : ℕ} {result : Except RenderError Unit}
      (h : shown.delay.nanoseconds ≤ w.limit.nanoseconds) (hresult : shown.result = .ok ())
      (hends : w.Ends last result time) : Loads shown w result (shown.delay.nanoseconds + time)

namespace Loads

variable {shown : Reply Unit} {w : Wait} {result : Except RenderError Unit} {time : ℕ}

theorem le_two_limits (h : Loads shown w result time) : time ≤ 2 * w.limit.nanoseconds := by
  cases h with
  | cutOff => omega
  | refused h => omega
  | waited h _ hends =>
    have := hends.le_limit
    omega

/-- The page is not shown in time, or at once, or an answer decides in what is left of the limit. -/
def IsQuick (shown : Reply Unit) (w : Wait) : Prop :=
  w.limit.nanoseconds < shown.delay.nanoseconds ∨ (∃ e, shown.result = .error e) ∨
    shown.delay.nanoseconds = 0 ∨
      ∃ k, w.Begins k ∧ w.Decides k ∧
        shown.delay.nanoseconds + w.answeredAt k ≤ w.limit.nanoseconds

/-- When the limit of each wait is one for both: exactly if the loading `IsQuick`. -/
theorem le_limit_iff (h : Loads shown w result time) :
    time ≤ w.limit.nanoseconds ↔ IsQuick shown w := by
  cases h with
  | cutOff h => exact iff_of_true (Nat.le_refl _) (.inl h)
  | @refused e h hresult => exact iff_of_true h (.inr (.inl ⟨e, hresult⟩))
  | @waited last time result h hresult hends =>
    by_cases hzero : shown.delay.nanoseconds = 0
    · have := hends.le_limit
      exact iff_of_true (by omega) (.inr (.inr (.inl hzero)))
    have hleft (n : ℕ) : shown.delay.nanoseconds + n ≤ w.limit.nanoseconds ↔
        n ≤ w.limit.nanoseconds - shown.delay.nanoseconds := by
      omega
    have hlate : ¬ w.limit.nanoseconds < shown.delay.nanoseconds := by omega
    simp only [IsQuick, hlate, hresult, hzero, hleft, false_or, reduceCtorEq, exists_false]
    exact hends.le_iff (by omega)

end Loads

namespace Session

open Interaction

variable {b : Backend}

theorem exists_waitUntil_eq (tab : b.Tab) (expression : Text) (stage : WaitStage) (limit : Duration)
    (s : Session b) : ∃ last result time,
      (waitOf tab expression stage limit s.machine).Ends last result time ∧
      waitUntil tab expression stage limit s =
        (result, s.waited tab expression stage limit (last + 1) time) := by
  have hfirst : s.waited tab expression stage limit 0
      ((waitOf tab expression stage limit s.machine).beginsAt 0) = s := by
    unfold waited
    rw [List.range_zero, List.map_nil, List.append_nil]
    rfl
  have hbegins : (waitOf tab expression stage limit s.machine).Begins 0 := .first
  obtain ⟨last, result, time, hends, hpoll⟩ := poll_waited hbegins
  rw [hfirst] at hpoll
  exact ⟨last, result, time, hends, hpoll⟩

/-- The wait of `loadPage` for a page to be there as a whole, after it was shown. -/
def readyWait (tab : b.Tab) (page : Text) (limit : Duration) (machine : b.State) : Wait :=
  waitOf tab Page.documentReady .pageLoad limit (b.setContent tab page machine).2

theorem loads_loadPage (tab : b.Tab) (page : Text) (limit : Duration) (s : Session b) :
    ∃ time, (loadPage tab page limit s).2.clock = s.clock + time ∧
      Loads (b.setContent tab page s.machine).1 (readyWait tab page limit s.machine)
        (loadPage tab page limit s).1 time := by
  by_cases hin : (b.setContent tab page s.machine).1.delay.nanoseconds ≤ limit.nanoseconds
  · have hshow : setContent tab page limit s = ask (.setContent page) (b.setContent tab page)
        (fun _ => .done) s := by
      unfold setContent askUntil
      exact if_pos (Nat.add_le_add_left hin _)
    cases hresult : (b.setContent tab page s.machine).1.result with
    | error e =>
      have hrun : loadPage tab page limit s = (.error e, _) :=
        bind_of_error (hshow.trans (Prod.ext hresult rfl))
      rw [hrun]
      exact ⟨_, rfl, .refused hin hresult⟩
    | ok u =>
      have hrun : loadPage tab page limit s = waitUntil _ _ _ _ _ :=
        bind_of_ok (hshow.trans (Prod.ext hresult rfl))
      obtain ⟨last, result, time, hends, hwait⟩ := exists_waitUntil_eq tab Page.documentReady
        .pageLoad limit (ask (.setContent page) (b.setContent tab page) (fun _ => .done) s).2
      rw [hrun, hwait]
      exact ⟨_, Nat.add_assoc _ _ _, .waited hin hresult hends⟩
  · have hshow : setContent tab page limit s = (.error (.timeout .pageLoad limit),
        s.record (.setContent page) .cutOff (s.clock + limit.nanoseconds)
          (b.setContent tab page s.machine).2) := by
      unfold setContent askUntil
      exact if_neg fun hle => hin (Nat.le_of_add_le_add_left hle)
    have hrun : loadPage tab page limit s = _ := bind_of_error hshow
    rw [hrun]
    exact ⟨limit.nanoseconds, rfl, .cutOff (Nat.lt_of_not_le hin)⟩

/-- `loadPage` is over when its limit comes. -/
def LoadsInTime (s : Session b) (tab : b.Tab) (page : Text) (limit : Duration) : Prop :=
  (loadPage tab page limit s).2.clock ≤ s.clock + limit.nanoseconds

/-- **When a page is loaded within its limit.** A `render` gets a tab, loads its page there in one
stage and closes the tab; and whatever a session has done before, this stage is over within its
limit exactly if it `IsQuick`, and within twice the limit in any case. -/
theorem loadsInTime_iff (source : Text) (output : Path) (spec : RenderSpec) :
    (render source output spec : Rendering b Unit) = (do
      let tab ← freshTab
      let rendered ← attempt do
        let options ← getOptions
        forward tab options.verbose
        resize tab spec
        loadPage tab (Page.shell source options.script) options.timeouts.pageLoad
        photograph tab spec options.timeouts
      let closed ← attempt (ask .closeTab (b.closeTab tab) fun _ => .done)
      finish output rendered closed) ∧
    ∀ (s : Session b) (tab : b.Tab) (page : Text) (limit : Duration),
      let shown := (b.setContent tab page s.machine).1
      let ready := readyWait tab page limit s.machine
      (LoadsInTime s tab page limit ↔ Loads.IsQuick shown ready) ∧
        ∃ time, (loadPage tab page limit s).2.clock = s.clock + time ∧
          Loads shown ready (loadPage tab page limit s).1 time ∧ time ≤ 2 * limit.nanoseconds := by
  refine ⟨?_, fun s tab page limit => ?_⟩
  · rw [render_eq_freshTab]
    simp only [renderOnTab_eq_stages]
  intro shown ready
  obtain ⟨time, hclock, hloads⟩ := loads_loadPage tab page limit s
  refine ⟨?_, time, hclock, hloads, hloads.le_two_limits⟩
  rw [LoadsInTime, hclock, Nat.add_le_add_iff_left]
  exact hloads.le_limit_iff

/-- A session with one tab, whose page is shown after 150 of the 200 milliseconds that there are and
is never there as a whole. -/
def slowSession : Session Scripted.backend where
  options := { timeouts := { pageLoad := .ofMilliseconds 200 } }
  machine := {
    script := {
      tabs := [{
        content := { delay := .ofMilliseconds 150 }
        looks := fun _ => [{ value := .bool false }] }] }
    asked := [fun _ => 0] }
  files := ⟨[], []⟩

/-- A slow page is waited for beyond the limit: a render looks at it after 150, 250 and 350
milliseconds, and only then closes its tab. -/
theorem not_loadsInTime_of_slow_page :
    ¬ LoadsInTime slowSession (0 : ℕ) (Page.shell [] defaultScript) (.ofMilliseconds 200) ∧
      (render [] [] {} slowSession).2.trace.map (fun entry => entry.madeAt / 1000000) =
        [0, 0, 0, 0, 150, 250, 350, 350] := by
  unfold LoadsInTime
  decide +kernel

end Session
end MermaidPress
