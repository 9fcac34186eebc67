/-
Waits in time. A wait looks at its expression, pauses, and looks again, and its limit may come at
any point of this. How it ends depends on nothing but the answers and how long each takes, so it
is said of them: when each look begins, which looks begin at all, and with which of them the wait is
over. `poll` agrees with this look by look: a session that is about to take a look of the wait is
known whole, with the machine, the clock and the calls that the looks before it have left, and the
induction along `poll` goes from one such session to the next.

The limit never comes before what is due at that very instant. An answer at the limit counts, and
so does a look that begins there, if it is answered at once.
-/
import Mathlib.Logic.Function.Iterate
import MermaidPress.Render.Session

namespace MermaidPress

/-- A wait by itself: the answers that its looks get, one after the other, and its limit. -/
structure Wait where
  answers : ℕ → Reply Json
  stage : WaitStage
  limit : Duration

namespace Wait

/-- The pause between two looks: a hundred milliseconds, in nanoseconds. -/
def pause : ℕ := 100 * 1000000

variable (w : Wait)

/-- When a look begins, in nanoseconds since the wait began: the first one at once, and any other a
pause after the answer to the look before it. -/
def beginsAt : ℕ → ℕ
  | 0 => 0
  | k + 1 => beginsAt k + (w.answers k).delay.nanoseconds + pause

/-- When a look is answered. -/
def answeredAt (k : ℕ) : ℕ := w.beginsAt k + (w.answers k).delay.nanoseconds

/-- The looks of a wait. After an answer in time that counts as false there is another look, if that
begins in time. -/
inductive Begins : ℕ → Prop
  | first : Begins 0
  | again {k : ℕ} {value : Json} :
      Begins k → w.answeredAt k ≤ w.limit.nanoseconds →
      (w.answers k).result = .ok value → value.isTruthy = false →
      w.beginsAt (k + 1) ≤ w.limit.nanoseconds → Begins (k + 1)

/-- The failure of a wait that reaches its limit. -/
def expired : RenderError := .timeout w.stage w.limit

/-- How a wait ends: its last look, its result, and the time it took. -/
inductive Ends : ℕ → Except RenderError Unit → ℕ → Prop
  | failed {k : ℕ} {e : RenderError} :
      w.Begins k → w.answeredAt k ≤ w.limit.nanoseconds →
      (w.answers k).result = .error e → Ends k (.error e) (w.answeredAt k)
  | granted {k : ℕ} {value : Json} :
      w.Begins k → w.answeredAt k ≤ w.limit.nanoseconds →
      (w.answers k).result = .ok value → value.isTruthy = true → Ends k (.ok ()) (w.answeredAt k)
  /-- The limit comes before the answer. -/
  | cutOff {k : ℕ} :
      w.Begins k → w.limit.nanoseconds < w.answeredAt k →
      Ends k (.error w.expired) w.limit.nanoseconds
  /-- The limit comes before another look. -/
  | lapsed {k : ℕ} {value : Json} :
      w.Begins k → w.answeredAt k ≤ w.limit.nanoseconds →
      (w.answers k).result = .ok value → value.isTruthy = false →
      w.limit.nanoseconds < w.beginsAt (k + 1) → Ends k (.error w.expired) w.limit.nanoseconds

/-- What is learnt from the answer to a look. -/
def learnt : Except RenderError Json → Answer
  | .ok value => .value value
  | .error e => .failed e

/-- The entry that a look leaves, of a wait for an expression that began at `start`. -/
def entry (expression : Text) (start k : ℕ) : Entry where
  call := .evaluate expression
  answer := if w.answeredAt k ≤ w.limit.nanoseconds then learnt (w.answers k).result else .cutOff
  madeAt := start + w.beginsAt k
  overAt := start + min (w.answeredAt k) w.limit.nanoseconds

variable {w} {j k : ℕ} {result result' : Except RenderError Unit} {time time' : ℕ}

/-! ## What the answers decide -/

theorem beginsAt_succ (w : Wait) (k : ℕ) : w.beginsAt (k + 1) = w.answeredAt k + pause := rfl

theorem mul_pause_le_beginsAt (w : Wait) (k : ℕ) : k * pause ≤ w.beginsAt k := by
  induction k with
  | zero => simp [beginsAt]
  | succ k ih =>
    have hstep : w.beginsAt (k + 1) = w.beginsAt k + (w.answers k).delay.nanoseconds + pause := rfl
    rw [hstep, Nat.add_mul, Nat.one_mul]
    omega

theorem Begins.beginsAt_le (h : w.Begins k) : w.beginsAt k ≤ w.limit.nanoseconds := by
  cases h with
  | first => exact Nat.zero_le _
  | again _ _ _ _ hbegins => exact hbegins

/-- No more looks than pauses fit into the limit, and the first. -/
theorem Begins.le_div (h : w.Begins k) : k ≤ w.limit.nanoseconds / pause := by
  have hpause : 0 < pause := by decide
  rw [Nat.le_div_iff_mul_le hpause]
  exact Nat.le_trans (w.mul_pause_le_beginsAt k) h.beginsAt_le

theorem Begins.of_le (h : w.Begins k) (hle : j ≤ k) : w.Begins j := by
  induction h with
  | first => exact Nat.le_zero.1 hle ▸ .first
  | again hbegins hin hvalue hfalse hnext ih =>
    rcases Nat.le_succ_iff.1 hle with hle | rfl
    · exact ih hle
    · exact .again hbegins hin hvalue hfalse hnext

theorem Ends.not_begins_succ (h : w.Ends k result time) : ¬ w.Begins (k + 1) := by
  intro hnext
  cases hnext with
  | again _ hin hvalue hfalse hnext =>
    cases h with
    | failed _ _ hfailed =>
      rw [hfailed] at hvalue
      cases hvalue
    | granted _ _ hvalue' htrue =>
      rw [hvalue] at hvalue'
      rw [Except.ok.inj hvalue', htrue] at hfalse
      cases hfalse
    | cutOff _ hlate => omega
    | lapsed _ _ _ _ hlate => omega

theorem Ends.begins (h : w.Ends k result time) : w.Begins k := by
  cases h <;> assumption

theorem Ends.le_limit (h : w.Ends k result time) : time ≤ w.limit.nanoseconds := by
  cases h with
  | failed _ hin => exact hin
  | granted _ hin => exact hin
  | cutOff => exact Nat.le_refl _
  | lapsed => exact Nat.le_refl _

/-- The looks that begin are those up to the last. -/
theorem Ends.begins_iff (h : w.Ends k result time) : w.Begins j ↔ j ≤ k := by
  constructor
  · intro hbegins
    by_contra hlt
    exact h.not_begins_succ (hbegins.of_le (by omega))
  · intro hle
    exact h.begins.of_le hle

theorem Ends.look_unique (h : w.Ends k result time) (h' : w.Ends j result' time') : k = j := by
  have hle : k ≤ j := h'.begins_iff.1 h.begins
  have hge : j ≤ k := h.begins_iff.1 h'.begins
  omega

/-- The answers decide how the wait `Ends`. -/
theorem Ends.unique (h : w.Ends k result time) (h' : w.Ends j result' time') :
    j = k ∧ result' = result ∧ time' = time := by
  obtain rfl := h.look_unique h'
  refine ⟨rfl, ?_⟩
  cases h with
  | failed _ hin hfailed =>
    cases h' with
    | failed _ _ hfailed' =>
      rw [hfailed] at hfailed'
      rw [Except.error.inj hfailed']
      exact ⟨rfl, rfl⟩
    | granted _ _ hvalue => simp [hfailed] at hvalue
    | cutOff _ hlate => omega
    | lapsed _ _ hvalue => simp [hfailed] at hvalue
  | granted _ hin hvalue htrue =>
    cases h' with
    | failed _ _ hfailed => simp [hvalue] at hfailed
    | granted => exact ⟨rfl, rfl⟩
    | cutOff _ hlate => omega
    | lapsed _ _ hvalue' hfalse =>
      rw [hvalue] at hvalue'
      simp [← Except.ok.inj hvalue', htrue] at hfalse
  | cutOff _ hlate =>
    cases h' with
    | failed _ hin => omega
    | granted _ hin => omega
    | cutOff => exact ⟨rfl, rfl⟩
    | lapsed => exact ⟨rfl, rfl⟩
  | lapsed _ hin hvalue hfalse =>
    cases h' with
    | failed _ _ hfailed => simp [hvalue] at hfailed
    | granted _ _ hvalue' htrue =>
      rw [hvalue] at hvalue'
      simp [← Except.ok.inj hvalue', hfalse] at htrue
    | cutOff => exact ⟨rfl, rfl⟩
    | lapsed => exact ⟨rfl, rfl⟩

/-- What a wait comes to where an answer is the last that can count. -/
def verdict (w : Wait) : Except RenderError Json → Except RenderError Unit
  | .ok value => if value.isTruthy then .ok () else .error w.expired
  | .error e => .error e

/-- An answer at the very limit counts. -/
theorem Begins.ends_at_limit (h : w.Begins k) (hlimit : w.answeredAt k = w.limit.nanoseconds) :
    w.Ends k (w.verdict (w.answers k).result) w.limit.nanoseconds := by
  cases hresult : (w.answers k).result with
  | error e =>
    have hends := Ends.failed h (Nat.le_of_eq hlimit) hresult
    rwa [hlimit] at hends
  | ok value =>
    unfold verdict
    by_cases htrue : value.isTruthy = true
    · have hends := Ends.granted h (Nat.le_of_eq hlimit) hresult htrue
      rw [hlimit] at hends
      simpa [htrue] using hends
    · have hfalse : value.isTruthy = false := by simpa using htrue
      have hnext : w.limit.nanoseconds < w.beginsAt (k + 1) := by
        rw [beginsAt_succ, hlimit, pause]
        omega
      simpa [hfalse] using Ends.lapsed h (Nat.le_of_eq hlimit) hresult hfalse hnext

/-! ## Any answers -/

/-- A backend that gives the answers of the wait in turn, whatever it is asked to look at. -/
def backend (w : Wait) : Backend where
  State := ℕ
  Browser := Unit
  Tab := Unit
  Element := Unit
  launch n := (.now (), n)
  openTab _ n := (.now (), n)
  closeBrowser _ n := (.now (), n)
  forwardDiagnostics _ n := (.now (), n)
  setViewport _ _ n := (.now (), n)
  setContent _ _ n := (.now (), n)
  evaluate _ _ n := (w.answers n, n + 1)
  findElement _ _ n := (.now none, n)
  boundingBox _ _ n := (.now none, n)
  capture _ _ n := (.now ByteArray.empty, n)
  closeTab _ n := (.now (), n)

end Wait

namespace Session

variable {b : Backend} {tab : b.Tab} {expression : Text} {stage : WaitStage} {limit : Duration}
  {s : Session b} {k : ℕ}

/-- The machine after looks at an expression. -/
def lookedAt (tab : b.Tab) (expression : Text) (machine : b.State) (n : ℕ) : b.State :=
  (fun m => (b.evaluate tab expression m).2)^[n] machine

/-- The `Wait` for an expression, from a state of the machine on. -/
def waitOf (tab : b.Tab) (expression : Text) (stage : WaitStage) (limit : Duration)
    (machine : b.State) : Wait where
  answers k := (b.evaluate tab expression (lookedAt tab expression machine k)).1
  stage := stage
  limit := limit

/-- The session some time after a wait began, with the first `n` looks behind it. -/
def waited (s : Session b) (tab : b.Tab) (expression : Text) (stage : WaitStage) (limit : Duration)
    (n time : ℕ) : Session b :=
  { s with
    machine := lookedAt tab expression s.machine n
    clock := s.clock + time
    trace := s.trace ++ (List.range n).map
      ((waitOf tab expression stage limit s.machine).entry expression s.clock) }

/-! ## Looks of a session -/

theorem lookedAt_succ (tab : b.Tab) (expression : Text) (machine : b.State) (n : ℕ) :
    lookedAt tab expression machine (n + 1) =
      (b.evaluate tab expression (lookedAt tab expression machine n)).2 :=
  Function.iterate_succ_apply' _ _ _

theorem evaluateUntil_of_le {deadline : ℕ} (expired : RenderError)
    (h : s.clock + (b.evaluate tab expression s.machine).1.delay.nanoseconds ≤ deadline) :
    evaluateUntil deadline expired tab expression s =
      ((b.evaluate tab expression s.machine).1.result,
        s.record (.evaluate expression) (Wait.learnt (b.evaluate tab expression s.machine).1.result)
          (s.clock + (b.evaluate tab expression s.machine).1.delay.nanoseconds)
          (b.evaluate tab expression s.machine).2) := by
  unfold evaluateUntil askUntil ask
  dsimp only
  rw [if_pos h]
  cases (b.evaluate tab expression s.machine).1.result with
  | ok value => rfl
  | error e => rfl

theorem evaluateUntil_of_lt {deadline : ℕ} (expired : RenderError)
    (h : deadline < s.clock + (b.evaluate tab expression s.machine).1.delay.nanoseconds) :
    evaluateUntil deadline expired tab expression s =
      (.error expired,
        s.record (.evaluate expression) .cutOff deadline (b.evaluate tab expression s.machine).2) := by
  unfold evaluateUntil askUntil
  dsimp only
  exact if_neg (Nat.not_le_of_lt h)

/-- One look by `evaluateUntil`, and the session that it leaves. -/
theorem evaluateUntil_waited (s : Session b) (tab : b.Tab) (expression : Text) (stage : WaitStage)
    (limit : Duration) (k : ℕ) :
    let w := waitOf tab expression stage limit s.machine
    evaluateUntil (s.clock + w.limit.nanoseconds) w.expired tab expression
        (s.waited tab expression stage limit k (w.beginsAt k)) =
      (if w.answeredAt k ≤ w.limit.nanoseconds then (w.answers k).result else .error w.expired,
        s.waited tab expression stage limit (k + 1)
          (min (w.answeredAt k) w.limit.nanoseconds)) := by
  intro w
  have htrace : s.trace ++ (List.range (k + 1)).map (w.entry expression s.clock) =
      s.trace ++ (List.range k).map (w.entry expression s.clock) ++
        [w.entry expression s.clock k] := by
    rw [List.range_succ, List.map_append, List.map_singleton, List.append_assoc]
  have hclock : s.clock + w.beginsAt k + (w.answers k).delay.nanoseconds =
      s.clock + w.answeredAt k := by
    rw [Wait.answeredAt, Nat.add_assoc]
  have hnext : s.waited tab expression stage limit (k + 1)
        (min (w.answeredAt k) w.limit.nanoseconds) =
      (s.waited tab expression stage limit k (w.beginsAt k)).record (.evaluate expression)
        (w.entry expression s.clock k).answer (s.clock + min (w.answeredAt k) w.limit.nanoseconds)
        (lookedAt tab expression s.machine (k + 1)) := by
    unfold waited
    rw [htrace]
    rfl
  rw [hnext, lookedAt_succ, Wait.entry]
  by_cases hin : w.answeredAt k ≤ w.limit.nanoseconds
  · rw [if_pos hin, if_pos hin, Nat.min_eq_left hin, ← hclock]
    refine evaluateUntil_of_le w.expired ?_
    exact Nat.le_trans (Nat.le_of_eq hclock) (Nat.add_le_add_left hin _)
  · have hlate : w.limit.nanoseconds < w.answeredAt k := Nat.lt_of_not_le hin
    rw [if_neg hin, if_neg hin, Nat.min_eq_right (Nat.le_of_lt hlate)]
    refine evaluateUntil_of_lt w.expired ?_
    exact Nat.lt_of_lt_of_eq (Nat.add_lt_add_left hlate _) hclock.symm

/-- A `poll` in progress ends as its answers say. The induction is along the looks, and each of them
begins in a session that is known whole. -/
theorem poll_waited (h : (waitOf tab expression stage limit s.machine).Begins k) :
    let w := waitOf tab expression stage limit s.machine
    ∃ last result time, w.Ends last result time ∧
      poll (s.clock + w.limit.nanoseconds) w.expired tab expression
          (s.waited tab expression stage limit k (w.beginsAt k)) =
        (result, s.waited tab expression stage limit (last + 1) time) := by
  intro w
  -- an answer that is there has come in time
  have hanswer {k : ℕ} {value : Json} {t t' : Session b}
      (hlook : evaluateUntil (s.clock + w.limit.nanoseconds) w.expired tab expression t =
        (.ok value, t'))
      (ht : s.waited tab expression stage limit k (w.beginsAt k) = t) :
      w.answeredAt k ≤ w.limit.nanoseconds ∧ (w.answers k).result = .ok value ∧
        t' = s.waited tab expression stage limit (k + 1) (w.answeredAt k) := by
    rw [← ht, evaluateUntil_waited] at hlook
    obtain ⟨hresult, hsession⟩ := Prod.mk.inj hlook
    by_cases hin : w.answeredAt k ≤ w.limit.nanoseconds
    · rw [if_pos hin] at hresult
      rw [Nat.min_eq_left hin] at hsession
      exact ⟨hin, hresult, hsession.symm⟩
    · rw [if_neg hin] at hresult
      cases hresult
  generalize hsession : s.waited tab expression stage limit k (w.beginsAt k) = t
  fun_induction poll (s.clock + w.limit.nanoseconds) w.expired tab expression t generalizing k with
  | case1 t e t' heval =>
    rw [← hsession, evaluateUntil_waited] at heval
    obtain ⟨hresult, rfl⟩ := Prod.mk.inj heval
    by_cases hin : w.answeredAt k ≤ w.limit.nanoseconds
    · rw [if_pos hin] at hresult
      rw [Nat.min_eq_left hin]
      exact ⟨k, _, _, .failed h hin hresult, rfl⟩
    · rw [if_neg hin] at hresult
      have hlate : w.limit.nanoseconds < w.answeredAt k := Nat.lt_of_not_le hin
      rw [Nat.min_eq_right (Nat.le_of_lt hlate), ← Except.error.inj hresult]
      exact ⟨k, _, _, .cutOff h hlate, rfl⟩
  | case2 t value t' heval htrue =>
    obtain ⟨hin, hvalue, rfl⟩ := hanswer heval hsession
    exact ⟨k, _, _, .granted h hin hvalue htrue, rfl⟩
  | case3 t value t' heval hvalue hdue ih =>
    obtain ⟨hin, hresult, rfl⟩ := hanswer heval hsession
    have hfalse : value.isTruthy = false := by simpa using hvalue
    have hclock : s.clock + w.answeredAt k + pollInterval.nanoseconds =
        s.clock + w.beginsAt (k + 1) := by
      rw [Wait.beginsAt_succ, Nat.add_assoc]
      rfl
    have hnext : w.beginsAt (k + 1) ≤ w.limit.nanoseconds := by
      have hdue : s.clock + w.answeredAt k + pollInterval.nanoseconds ≤
        s.clock + w.limit.nanoseconds := hdue
      omega
    refine ih (.again h hin hresult hfalse hnext) ?_
    unfold waited
    rw [hclock]
  | case4 t value t' heval hvalue hdue =>
    obtain ⟨hin, hresult, rfl⟩ := hanswer heval hsession
    have hfalse : value.isTruthy = false := by simpa using hvalue
    have hnext : w.limit.nanoseconds < w.beginsAt (k + 1) := by
      have hdue : ¬ s.clock + (w.answeredAt k) + Wait.pause ≤ s.clock + w.limit.nanoseconds := hdue
      rw [Wait.beginsAt_succ]
      omega
    exact ⟨k, _, _, .lapsed h hin hresult hfalse hnext, rfl⟩

/-- Any answers may be those of a session's wait. -/
theorem waitOf_backend (w : Wait) (expression : Text) :
    waitOf (b := w.backend) () expression w.stage w.limit (0 : ℕ) = w := by
  have hlooks (n : ℕ) : lookedAt (b := w.backend) () expression (0 : ℕ) n = n := by
    induction n with
    | zero => rfl
    | succ n ih =>
      refine (lookedAt_succ (b := w.backend) () expression (0 : ℕ) n).trans ?_
      rw [ih]
      rfl
  unfold waitOf
  simp only [hlooks]
  rfl

/-- **`waitUntil` ends as its answers say**, whatever they are and however long each of them takes.
It has an end, and only one; the looks that begin before it, and no others, are made and leave their
entries; nothing but them, the machine and the clock changes. It is over by its limit at the latest,
after no more looks than one for each `pause` that fits into the limit, and the first; and what is
answered at the very limit counts. -/
theorem waitUntil_ends :
    (∀ w : Wait, ∃ (b : Backend) (tab : b.Tab) (expression : Text) (machine : b.State),
      waitOf tab expression w.stage w.limit machine = w) ∧
    ∀ (b : Backend) (tab : b.Tab) (expression : Text) (stage : WaitStage) (limit : Duration)
      (s : Session b),
      let w := waitOf tab expression stage limit s.machine
      ∃ last result time,
        waitUntil tab expression stage limit s =
          (result, s.waited tab expression stage limit (last + 1) time) ∧
        (∀ k r t, w.Ends k r t ↔ k = last ∧ r = result ∧ t = time) ∧
        (∀ k, w.Begins k ↔ k ≤ last) ∧
        time ≤ limit.nanoseconds ∧ last + 1 ≤ limit.nanoseconds / Wait.pause + 1 ∧
        ∀ k, w.Begins k → w.answeredAt k = limit.nanoseconds →
          k = last ∧ result = w.verdict (w.answers k).result ∧ time = limit.nanoseconds := by
  refine ⟨fun w => ⟨w.backend, (), [], (0 : ℕ), waitOf_backend w []⟩,
    fun b tab expression stage limit s => ?_⟩
  intro w
  have hfirst : s.waited tab expression stage limit 0 (w.beginsAt 0) = s := by
    unfold waited
    rw [List.range_zero, List.map_nil, List.append_nil]
    rfl
  have hbegins : (waitOf tab expression stage limit s.machine).Begins 0 := .first
  obtain ⟨last, result, time, hends, hpoll⟩ := poll_waited hbegins
  rw [hfirst] at hpoll
  refine ⟨last, result, time, hpoll, fun k r t => ⟨hends.unique, ?_⟩, fun k => hends.begins_iff,
    hends.le_limit, Nat.succ_le_succ hends.begins.le_div, fun k hbegins hlimit => ?_⟩
  · rintro ⟨rfl, rfl, rfl⟩
    exact hends
  · obtain ⟨hlast, hresult, htime⟩ := hends.unique (hbegins.ends_at_limit hlimit)
    exact ⟨hlast, hresult.symm, htime.symm⟩

/-- A wait of 130 milliseconds: the first answer takes 10 of them, and the second one, which is asked
for after the pause, takes the last 20. -/
def dueAtLimit : Wait where
  answers
    | 0 => ⟨.ofMilliseconds 10, .ok (.bool false)⟩
    | _ => ⟨.ofMilliseconds 20, .ok (.bool true)⟩
  stage := .render
  limit := .ofMilliseconds 130

/-- It succeeds at its limit, after two looks. -/
example :
    let s : Session dueAtLimit.backend := { machine := (0 : ℕ), files := ⟨[], []⟩ }
    let (result, t) := waitUntil (b := dueAtLimit.backend) () [] .render dueAtLimit.limit s
    result = .ok () ∧ t.clock = 130000000 ∧ t.trace.length = 2 := by
  cbv

end Session
end MermaidPress
