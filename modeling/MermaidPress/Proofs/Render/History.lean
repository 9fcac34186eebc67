/-
What can become of browsers and tabs, as a list of events. A session holds one browser at most
and, while it renders, one tab of that; each event is a move between what is held before and
after it. A browser or tab has as its number the place of the event that made it, so no number
is given twice. The books of such a history balance: all that was made and is not held has
been closed, once.
-/
import MermaidPress.Render.Session

namespace MermaidPress

/-- A call to a backend, with the numbers of the browser and the tab that it made or was about. -/
inductive Event
  | launchFailed
  | launched (browser : Nat)
  /-- The browser was told to close, whether or not that went well; so with tabs. -/
  | browserClosed (browser : Nat)
  | tabRefused (browser : Nat)
  | tabOpened (browser tab : Nat)
  | tabUsed (tab : Nat)
  | tabClosed (tab : Nat)
  deriving DecidableEq, Repr

namespace Event

/-- Whether a launch was attempted. -/
def isLaunch : Event → Bool
  | launchFailed | launched _ => true
  | _ => false

/-- Whether a launch gave a browser. -/
def isLaunched : Event → Bool
  | launched _ => true
  | _ => false

def isBrowserClosed : Event → Bool
  | browserClosed _ => true
  | _ => false

/-- Whether the tab with this number was opened. -/
def opens (tab : Nat) : Event → Bool
  | tabOpened _ opened => opened == tab
  | _ => false

end Event

/-- What a session holds: a browser, and while it renders a tab. -/
structure Held where
  browser : Option Nat := none
  tab : Option Nat := none

/-- The moves of a session: the event at the place `now` of a history takes it from what is held
before to what is held after. -/
inductive Event.Moves (now : Nat) : Held → Event → Held → Prop
  | launchFailed : Moves now {} .launchFailed {}
  | launched : Moves now {} (.launched now) { browser := some now }
  | browserClosed {browser} : Moves now { browser := some browser } (.browserClosed browser) {}
  | tabRefused {browser} :
      Moves now { browser := some browser } (.tabRefused browser) { browser := some browser }
  | tabOpened {browser} :
      Moves now { browser := some browser } (.tabOpened browser now)
        { browser := some browser, tab := some now }
  | tabUsed {browser tab} :
      Moves now { browser, tab := some tab } (.tabUsed tab) { browser, tab := some tab }
  | tabClosed {browser tab} : Moves now { browser, tab := some tab } (.tabClosed tab) { browser }

/-- The events so far, and what is `Held` after them. -/
inductive History : List Event → Held → Prop
  | start : History [] {}
  | step {log : List Event} {held held' : Held} {event : Event} :
      History log held → event.Moves log.length held held' → History (log ++ [event]) held'

namespace History

variable {log : List Event} {held : Held}

/-- Launches and closings balance: there is one launch more as long as a browser is held. -/
theorem countP_isLaunched (h : History log held) :
    log.countP Event.isLaunched =
      log.countP Event.isBrowserClosed + held.browser.isSome.toNat := by
  induction h with
  | start => rfl
  | step _ hmove ih =>
    rw [List.countP_append, List.countP_append, ih]
    cases hmove <;> simp [Event.isLaunched, Event.isBrowserClosed]

/-- Every browser that was launched has been closed, but for the one that is held. -/
theorem count_launched (h : History log held) (n : Nat) :
    log.count (.launched n) =
      log.count (.browserClosed n) + if held.browser = some n then 1 else 0 := by
  induction h with
  | start => rfl
  | step _ hmove ih =>
    rw [List.count_append, List.count_append, ih]
    cases hmove <;> simp [List.count_singleton]

/-- Every tab that was opened has been closed, but for the one that is held. -/
theorem countP_opens (h : History log held) (n : Nat) :
    log.countP (Event.opens n) =
      log.count (.tabClosed n) + if held.tab = some n then 1 else 0 := by
  induction h with
  | start => rfl
  | step _ hmove ih =>
    rw [List.countP_append, List.count_append, ih]
    cases hmove <;> simp [List.count_singleton, Event.opens]

/-- A launch is numbered by its place, which no launch before it had. -/
theorem count_launched_le (h : History log held) (n : Nat) :
    log.count (.launched n) ≤ if n < log.length then 1 else 0 := by
  induction h with
  | start => simp
  | step _ hmove ih =>
    rw [List.count_append, List.length_append]
    cases hmove <;> simp [List.count_singleton] <;> grind

theorem countP_opens_le (h : History log held) (n : Nat) :
    log.countP (Event.opens n) ≤ if n < log.length then 1 else 0 := by
  induction h with
  | start => simp
  | step _ hmove ih =>
    rw [List.countP_append, List.length_append]
    cases hmove <;> simp [Event.opens] <;> grind

theorem count_launched_le_one (h : History log held) (n : Nat) :
    log.count (.launched n) ≤ 1 := by
  have hle := h.count_launched_le n
  split at hle <;> omega

theorem countP_opens_le_one (h : History log held) (n : Nat) :
    log.countP (Event.opens n) ≤ 1 := by
  have hle := h.countP_opens_le n
  split at hle <;> omega

/-- A launch is attempted only where nothing is held. -/
theorem before_launch (h : History log held) {before after : List Event} {event : Event}
    (hlog : log = before ++ event :: after) (hlaunch : event.isLaunch) : History before {} := by
  induction h generalizing after with
  | start => simp at hlog
  | @step log held held' last hlog' hmove ih =>
    rcases List.eq_nil_or_concat after with rfl | ⟨after, x, rfl⟩
    · obtain ⟨rfl, hlast⟩ := List.append_inj' hlog rfl
      obtain rfl := List.singleton_inj.mp hlast
      cases hmove <;> first | exact hlog' | cases hlaunch
    · have hlog : log ++ [last] = (before ++ event :: after) ++ [x] := by simpa using hlog
      exact ih (List.append_inj_left' hlog rfl)

theorem closed_before_launch (h : History log held) {before after : List Event} {event : Event}
    (hlog : log = before ++ event :: after) (hlaunch : event.isLaunch) {n : Nat}
    (hlaunched : .launched n ∈ before) : .browserClosed n ∈ before := by
  have hbalance := (h.before_launch hlog hlaunch).count_launched n
  rw [if_neg (by simp), Nat.add_zero] at hbalance
  rw [← List.count_pos_iff, ← hbalance]
  exact List.count_pos_iff.mpr hlaunched

end History
end MermaidPress
