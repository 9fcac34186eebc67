/-
Renders with and without the messages of their page. Passing the messages on is a call of its own,
in front of all others on the tab, and it may fail as any call may; then the render has failed with
it, before its page has a size. Where it succeeds the two renders go on with the same program, from
machines that may differ only by that call. So they are compared as two runs of one program: `Like`
says which sessions count as the same, with clocks that may differ, and `GoesAlike` which programs
keep that. Waits do, since how one ends depends on nothing but its answers.
-/
import MermaidPress.Backend.Dummy
import MermaidPress.Proofs.Render.Loading

namespace MermaidPress

variable {α β σ : Type}

/-! ## States that a tab does not tell apart -/

/-- States with `R` between them give the same reply and go on to such states. -/
def AnswersAlike (R : σ → σ → Prop) (run : σ → Reply α × σ) : Prop :=
  ∀ ⦃m m' : σ⦄, R m m' → (run m).1 = (run m').1 ∧ R (run m).2 (run m').2

/-- All that a render asks its tab is answered alike in states with `R` between them. -/
structure Backend.IsBlind (b : Backend) (tab : b.Tab) (R : b.State → b.State → Prop) : Prop where
  setViewport (viewport : Viewport) : AnswersAlike R (b.setViewport tab viewport)
  setContent (page : Text) : AnswersAlike R (b.setContent tab page)
  evaluate (expression : Text) : AnswersAlike R (b.evaluate tab expression)
  findElement (selector : Text) : AnswersAlike R (b.findElement tab selector)
  boundingBox (element : b.Element) : AnswersAlike R (b.boundingBox tab element)
  capture (request : CaptureRequest) : AnswersAlike R (b.capture tab request)
  closeTab : AnswersAlike R (b.closeTab tab)

/-- A tab does not tell two states apart: whatever a render asks it, now or later, the replies are
the same. -/
def Backend.Indistinct (b : Backend) (tab : b.Tab) (m m' : b.State) : Prop :=
  ∃ R : b.State → b.State → Prop, b.IsBlind tab R ∧ R m m'

/-- Dummies that differ at most in what they have counted. -/
def Dummy.State.Like (m m' : Dummy.State) : Prop := m.behavior = m'.behavior ∧ m.shown = m'.shown

theorem Dummy.isBlind_like (tab : ℕ) : Dummy.backend.IsBlind tab Dummy.State.Like where
  setViewport _ _ _ h := ⟨rfl, h⟩
  setContent page _ _ h := ⟨rfl, h.1, congrArg (List.set · tab page) h.2⟩
  evaluate expression m m' h := by
    refine ⟨?_, h⟩
    show Reply.now (m.behavior.valueOf _ _) = .now (m'.behavior.valueOf _ _)
    rw [h.1, h.2]
  findElement selector m m' h := by
    refine ⟨?_, h⟩
    show Reply.now (if _ && m.behavior.element then _ else _) =
      .now (if _ && m'.behavior.element then _ else _)
    rw [h.1]
  boundingBox _ _ _ h := ⟨congrArg (fun behavior : Behavior => Reply.now behavior.bounds) h.1, h⟩
  capture _ _ _ h := ⟨congrArg (fun behavior : Behavior => Reply.now behavior.image) h.1, h⟩
  closeTab _ _ h := ⟨rfl, h⟩

/-- The dummy counts how often it passes messages on, and answers as before. -/
theorem Dummy.indistinct_forwardDiagnostics (tab : ℕ) (m : Dummy.State) :
    Dummy.backend.Indistinct tab m (Dummy.backend.forwardDiagnostics tab m).2 :=
  ⟨Dummy.State.Like, Dummy.isBlind_like tab, rfl, rfl⟩

/-! ## Sessions that go alike -/

/-- A call that passes on what the page says. -/
def Call.isForwarding : Call → Bool
  | .forwardDiagnostics => true
  | _ => false

namespace Session

open Interaction

variable {b : Backend} {tab : b.Tab} {R : b.State → b.State → Prop} {s t : Session b}
  {m m' : b.State} {work : Rendering b α} {call : Call} {answer answer' : Answer}
  {overAt overAt' : ℕ} {run : b.State → Reply α × b.State} {learn : α → Answer}

/-- The calls so far, but for those with `isForwarding`. -/
def otherCalls (s : Session b) : List Call :=
  (s.trace.map Entry.call).filter fun call => !call.isForwarding

/-- Sessions with related machines, the same files and the same other calls. Their clocks may
differ, and what they do with the messages of a page. -/
structure Like (R : b.State → b.State → Prop) (s t : Session b) : Prop where
  machine : R s.machine t.machine
  files : s.files = t.files
  calls : s.otherCalls = t.otherCalls

/-- Work that has the same result in sessions that are `Like` each other, and leaves such
sessions. -/
def GoesAlike (R : b.State → b.State → Prop) (work : Rendering b α) : Prop :=
  ∀ ⦃s t : Session b⦄, Like R s t → (work s).1 = (work t).1 ∧ Like R (work s).2 (work t).2

theorem GoesAlike.bind {next : α → Rendering b β} (h : GoesAlike R work)
    (hnext : ∀ a, GoesAlike R (next a)) : GoesAlike R (work >>= next) := fun s t hlike => by
  obtain ⟨hresult, hleft⟩ := h hlike
  cases hs : work s with
  | mk result s' =>
    cases ht : work t with
    | mk result' t' =>
      rw [hs, ht] at hresult hleft
      obtain rfl : result = result' := hresult
      cases result with
      | ok a =>
        rw [bind_of_ok hs, bind_of_ok ht]
        exact hnext a hleft
      | error e =>
        rw [bind_of_error hs, bind_of_error ht]
        exact ⟨rfl, hleft⟩

theorem otherCalls_record (s : Session b) (call : Call) (answer : Answer) (overAt : ℕ)
    (m : b.State) : (s.record call answer overAt m).otherCalls =
      s.otherCalls ++ [call].filter fun call => !call.isForwarding := by
  simp only [otherCalls, record, List.map_append, List.filter_append, List.map_singleton]

theorem Like.record (h : Like R s t) (hmachine : R m m') :
    Like R (s.record call answer overAt m) (t.record call answer' overAt' m') where
  machine := hmachine
  files := h.files
  calls := by rw [otherCalls_record, otherCalls_record, h.calls]

theorem goesAlike_ask (hrun : AnswersAlike R run) : GoesAlike R (ask call run learn) :=
  fun _ _ h => ⟨congrArg Reply.result (hrun h.machine).1, h.record (hrun h.machine).2⟩

theorem goesAlike_settled (result : Except RenderError α) :
    GoesAlike (b := b) R (settled result) := fun _ _ h => ⟨rfl, h⟩

theorem goesAlike_attempt (h : GoesAlike R work) : GoesAlike R (attempt work) := fun s t hlike => by
  obtain ⟨hresult, hleft⟩ := h hlike
  exact ⟨congrArg Except.ok hresult, hleft⟩

theorem goesAlike_setContent (hblind : b.IsBlind tab R) (page : Text) (limit : Duration) :
    GoesAlike R (setContent tab page limit) := fun s t h => by
  obtain ⟨hreply, hmachine⟩ := hblind.setContent page h.machine
  unfold setContent askUntil
  simp only [Nat.add_le_add_iff_left, ← hreply]
  split
  · exact goesAlike_ask (hblind.setContent page) h
  · exact ⟨rfl, h.record hmachine⟩

/-! ## Waits -/

theorem lookedAt_related {expression : Text} (hanswers : AnswersAlike R (b.evaluate tab expression))
    (h : R m m') (n : ℕ) : R (lookedAt tab expression m n) (lookedAt tab expression m' n) := by
  induction n with
  | zero => exact h
  | succ n ih =>
    rw [lookedAt_succ, lookedAt_succ]
    exact (hanswers ih).2

theorem waitOf_eq_of_related {expression : Text}
    (hanswers : AnswersAlike R (b.evaluate tab expression)) (h : R m m') (stage : WaitStage) (limit : Duration) :
    waitOf tab expression stage limit m = waitOf tab expression stage limit m' := by
  unfold waitOf
  congr 1
  funext k
  exact (hanswers (lookedAt_related hanswers h k)).1

theorem otherCalls_waited (s : Session b) (tab : b.Tab) (expression : Text) (stage : WaitStage)
    (limit : Duration) (n time : ℕ) : (s.waited tab expression stage limit n time).otherCalls =
      s.otherCalls ++ List.replicate n (.evaluate expression) := by
  have hcalls : ((List.range n).map
      ((waitOf tab expression stage limit s.machine).entry expression s.clock)).map Entry.call =
        List.replicate n (.evaluate expression) := by
    rw [List.map_map]
    exact (List.map_const' ..).trans (congrArg (List.replicate · _) List.length_range)
  simp only [otherCalls, waited, List.map_append, List.filter_append, hcalls]
  simp [Call.isForwarding]

/-- `waitUntil` goes alike: the clocks may differ, but it is over after the same time. -/
theorem goesAlike_waitUntil (hblind : b.IsBlind tab R) (expression : Text) (stage : WaitStage)
    (limit : Duration) : GoesAlike R (waitUntil tab expression stage limit) := fun s t h => by
  have hanswers := hblind.evaluate expression
  obtain ⟨last, result, time, hends, hs⟩ := exists_waitUntil_eq tab expression stage limit s
  obtain ⟨last', result', time', hends', ht⟩ := exists_waitUntil_eq tab expression stage limit t
  rw [← waitOf_eq_of_related hanswers h.machine] at hends'
  obtain ⟨rfl, rfl, rfl⟩ := hends.unique hends'
  rw [hs, ht]
  refine ⟨rfl, lookedAt_related hanswers h.machine _, h.files, ?_⟩
  rw [otherCalls_waited, otherCalls_waited, h.calls]

/-! ## The program of a render -/

theorem goesAlike_photograph (hblind : b.IsBlind tab R) (spec : RenderSpec) (timeouts : Timeouts) :
    GoesAlike R (photograph tab spec timeouts) := by
  unfold photograph
  extract_lets selector capture
  have hcapture (u : Unit) : GoesAlike R (capture u) := by
    refine .bind (goesAlike_waitUntil hblind _ _ _) fun _ => ?_
    refine .bind (goesAlike_ask (hblind.findElement _)) fun element => ?_
    cases element with
    | none => exact goesAlike_settled _
    | some element =>
      refine .bind (goesAlike_ask (hblind.boundingBox element)) fun box => ?_
      cases box with
      | none => exact goesAlike_settled _
      | some box => exact goesAlike_ask (hblind.capture _)
  refine .bind (goesAlike_waitUntil hblind _ _ _) fun _ => ?_
  refine .bind (goesAlike_ask (hblind.evaluate _)) fun failure => ?_
  cases engineFailure? failure with
  | none => exact hcapture ()
  | some text => exact .bind (goesAlike_settled _) hcapture

/-- What `renderOnTab` does once the messages are seen to. -/
def shoot (tab : b.Tab) (source : Text) (spec : RenderSpec) (options : SessionOptions) :
    Rendering b ByteArray := do
  resize tab spec
  loadPage tab (Page.shell source options.script) options.timeouts.pageLoad
  photograph tab spec options.timeouts

theorem goesAlike_shoot (hblind : b.IsBlind tab R) (source : Text) (spec : RenderSpec)
    (options : SessionOptions) : GoesAlike R (shoot tab source spec options) := by
  refine .bind (goesAlike_ask (hblind.setViewport _)) fun _ => ?_
  refine .bind (.bind (goesAlike_setContent hblind _ _) fun _ => goesAlike_waitUntil hblind _ _ _)
    fun _ => goesAlike_photograph hblind spec _

theorem goesAlike_writeImage (output : Path) (image : ByteArray) :
    GoesAlike (b := b) R (writeImage output image) := fun s t h => by
  unfold writeImage
  rw [h.files]
  cases t.files.writeBytes output image with
  | error cause => exact ⟨rfl, h⟩
  | ok files => exact ⟨rfl, h.machine, rfl, h.calls⟩

/-- The end of a `render`: its tab is closed, and its picture is written. -/
def closeAndFinish (tab : b.Tab) (output : Path) (rendered : Except RenderError ByteArray) :
    Rendering b Unit := do
  let closed ← attempt (ask .closeTab (b.closeTab tab) fun _ => .done)
  finish output rendered closed

theorem goesAlike_closeAndFinish (hblind : b.IsBlind tab R) (output : Path)
    (rendered : Except RenderError ByteArray) :
    GoesAlike R (closeAndFinish tab output rendered) := by
  refine .bind (goesAlike_attempt (goesAlike_ask hblind.closeTab)) fun closed => ?_
  refine .bind (goesAlike_settled rendered) fun image => ?_
  exact .bind (goesAlike_settled closed) fun _ => goesAlike_writeImage output image

/-! ## With and without messages -/

/-- The session with `verbose` in its options. -/
def withVerbose (s : Session b) (verbose : Bool) : Session b :=
  { s with options := { s.options with verbose } }

/-- Work that does the same whether or not the session is `verbose`. -/
def IgnoresVerbose (work : Rendering b α) : Prop :=
  ∀ (s : Session b) (verbose : Bool),
    work (s.withVerbose verbose) = ((work s).1, (work s).2.withVerbose verbose)

theorem IgnoresVerbose.bind {next : α → Rendering b β} (h : IgnoresVerbose work)
    (hnext : ∀ a, IgnoresVerbose (next a)) : IgnoresVerbose (work >>= next) := fun s verbose => by
  have hs := h s verbose
  cases hwork : work s with
  | mk result t =>
    rw [hwork] at hs
    cases result with
    | ok a =>
      rw [bind_of_ok hwork, bind_of_ok hs]
      exact hnext a t verbose
    | error e => rw [bind_of_error hwork, bind_of_error hs]

theorem ignoresVerbose_ask (call : Call) (run : b.State → Reply α × b.State) (learn : α → Answer) :
    IgnoresVerbose (ask call run learn) := fun _ _ => rfl

theorem ignoresVerbose_acquire : IgnoresVerbose (acquire (b := b)) := fun s verbose => by
  cases h : s.browser with
  | some browser =>
    rw [acquire_of_some h, acquire_of_some (s := s.withVerbose verbose) h]
  | none =>
    rw [acquire_of_none h, acquire_of_none (s := s.withVerbose verbose) h]
    exact IgnoresVerbose.bind (ignoresVerbose_ask _ _ _) (fun _ _ _ => rfl) s verbose

theorem ignoresVerbose_freshTab : IgnoresVerbose (freshTab (b := b)) :=
  .bind ignoresVerbose_acquire fun _ => ignoresVerbose_ask _ _ _

theorem render_of_run (verbose : Bool) {source : Text} {spec : RenderSpec} {u : Session b}
    {rendered : Except RenderError ByteArray} (hfresh : freshTab s = (.ok tab, t))
    (hrun : (forward tab verbose >>= fun _ => shoot tab source spec t.options)
      (t.withVerbose verbose) = (rendered, u)) (output : Path) :
    render source output spec (s.withVerbose verbose) = closeAndFinish tab output rendered u := by
  have hfresh' : freshTab (s.withVerbose verbose) = (.ok tab, t.withVerbose verbose) := by
    rw [ignoresVerbose_freshTab, hfresh]
  have hattempt : attempt (renderOnTab tab source spec) (t.withVerbose verbose) =
      (.ok rendered, u) := by
    unfold attempt
    rw [renderOnTab_eq_stages]
    exact congrArg (fun run => (Except.ok run.1, run.2)) hrun
  rw [render_eq_freshTab, bind_of_ok hfresh']
  exact bind_of_ok hattempt

/-- The session after `forwardDiagnostics` of a tab. -/
def forwarded (t : Session b) (tab : b.Tab) : Session b :=
  (forward tab true (t.withVerbose true)).2

theorem like_forwarded (h : R t.machine (b.forwardDiagnostics tab t.machine).2) :
    Like R (t.withVerbose false) (t.forwarded tab) where
  machine := h
  files := rfl
  calls := by
    show t.otherCalls = ((t.withVerbose true).record _ _ _ _).otherCalls
    rw [otherCalls_record]
    exact (List.append_nil _).symm

/-- `render` goes the same whether or not the session is `verbose`: it has the same result, leaves
the same files and makes the same other calls. -/
structure IsIndifferent (s : Session b) (source : Text) (output : Path) (spec : RenderSpec) :
    Prop where
  result : (render source output spec (s.withVerbose false)).1 =
    (render source output spec (s.withVerbose true)).1
  files : (render source output spec (s.withVerbose false)).2.files =
    (render source output spec (s.withVerbose true)).2.files
  calls : (render source output spec (s.withVerbose false)).2.otherCalls =
    (render source output spec (s.withVerbose true)).2.otherCalls

theorem isIndifferent_of_no_tab {e : RenderError} (h : freshTab s = (.error e, t)) (source : Text)
    (output : Path) (spec : RenderSpec) : IsIndifferent s source output spec := by
  have hrender (verbose : Bool) :
      render source output spec (s.withVerbose verbose) = (.error e, t.withVerbose verbose) := by
    refine render_of_no_tab ?_ source output spec
    rw [ignoresVerbose_freshTab, h]
  constructor <;> rw [hrender, hrender] <;> rfl

/-- A tab that does not notice that its messages are passed on is rendered the same. -/
theorem isIndifferent_of_indistinct (hfresh : freshTab s = (.ok tab, t))
    (hforwarded : (b.forwardDiagnostics tab t.machine).1.result = .ok ())
    (hindistinct : b.Indistinct tab t.machine (b.forwardDiagnostics tab t.machine).2)
    (source : Text) (output : Path) (spec : RenderSpec) : IsIndifferent s source output spec := by
  obtain ⟨R, hblind, hrelated⟩ := hindistinct
  have hforward : forward tab true (t.withVerbose true) = (.ok (), t.forwarded tab) :=
    Prod.ext hforwarded rfl
  -- one run of the shot begins before the call, and the other one after it
  obtain ⟨hresult, hlike⟩ := goesAlike_shoot hblind source spec t.options (like_forwarded hrelated)
  cases hquiet : shoot tab source spec t.options (t.withVerbose false) with
  | mk rendered u =>
    cases hloud : shoot tab source spec t.options (t.forwarded tab) with
    | mk rendered' u' =>
      rw [hquiet, hloud] at hresult hlike
      obtain rfl : rendered = rendered' := hresult
      obtain ⟨hend, hleft⟩ := goesAlike_closeAndFinish hblind output rendered hlike
      have hwithout := render_of_run false hfresh hquiet output
      have hwith := render_of_run true hfresh ((bind_of_ok hforward).trans hloud) output
      rw [← hwithout, ← hwith] at hend hleft
      exact ⟨hend, hleft.files, hleft.calls⟩

/-- Where the messages cannot be passed on, the `render` has failed: it closes its tab. -/
theorem render_of_refused {e : RenderError} (hfresh : freshTab s = (.ok tab, t))
    (hrefused : (b.forwardDiagnostics tab t.machine).1.result = .error e) (source : Text)
    (output : Path) (spec : RenderSpec) :
    (render source output spec (s.withVerbose true)).1 = .error e ∧
      (render source output spec (s.withVerbose true)).2.files = s.files ∧
      (render source output spec (s.withVerbose true)).2.trace.map Entry.call =
        t.trace.map Entry.call ++ [.forwardDiagnostics, .closeTab] := by
  have hforward : forward tab true (t.withVerbose true) = (.error e, t.forwarded tab) :=
    Prod.ext hrefused rfl
  have hopens : Opens s t := by
    have := opens_freshTab s
    rwa [hfresh] at this
  rw [render_of_run true hfresh (bind_of_error hforward)]
  refine ⟨rfl, hopens.files, ?_⟩
  show (t.trace ++ [_] ++ [_]).map Entry.call = _
  rw [List.append_assoc, List.map_append]
  rfl

theorem exists_viewport_of_follows {r : TabRender b} {calls : List Entry}
    {rendered : Except RenderError ByteArray} (h : r.Follows .sizing m calls (.ended rendered) m') :
    ∃ rest, calls.map Entry.call = .setViewport r.viewport :: rest := by
  cases h with
  | @cons _ _ _ _ _ _ entry rest hmove _ =>
    obtain ⟨course, hprefix⟩ := hmove.exists_prefix ⟨0, 0, 0, r.picture ⟨0, 0, 0, 0⟩⟩
    have hcall : entry.call = .setViewport r.viewport := (List.cons_prefix_cons.1 hprefix).1
    exact ⟨rest.map Entry.call, by rw [List.map_cons, hcall]⟩

theorem not_isIndifferent_of_refused {e : RenderError} (hfresh : freshTab s = (.ok tab, t))
    (hrefused : (b.forwardDiagnostics tab t.machine).1.result = .error e) (source : Text)
    (output : Path) (spec : RenderSpec) : ¬ IsIndifferent s source output spec := by
  intro h
  have hfresh' : freshTab (s.withVerbose false) = (.ok tab, t.withVerbose false) := by
    rw [ignoresVerbose_freshTab, hfresh]
  cases hrun : renderOnTab tab source spec (t.withVerbose false) with
  | mk rendered u =>
    obtain ⟨calls, closing, htrace, -, -, hfollows, -⟩ := render_of_tab hfresh' hrun output
    obtain ⟨rest, hcalls⟩ := exists_viewport_of_follows hfollows
    obtain ⟨-, -, hloud⟩ := render_of_refused hfresh hrefused source output spec
    have hsame := h.calls
    unfold otherCalls at hsame
    rw [htrace, hloud] at hsame
    simp only [List.map_append, List.filter_append, List.append_assoc, hcalls] at hsame
    have := List.append_cancel_left hsame
    simp [Call.isForwarding] at this

/-- **When passing messages on changes nothing else.** A `render` that gets no tab does not come to
it. On a tab that does not notice it, a render goes the same with messages and without. And where it
is refused the render has failed with that, with no call after it but the one that closes the tab,
while a render without messages goes on. -/
theorem isIndifferent_unless_refused (source : Text) (output : Path) (spec : RenderSpec)
    (s : Session b) :
    match freshTab s with
    | (.error _, _) => IsIndifferent s source output spec
    | (.ok tab, t) =>
      match (b.forwardDiagnostics tab t.machine).1.result with
      | .ok () =>
        b.Indistinct tab t.machine (b.forwardDiagnostics tab t.machine).2 →
          IsIndifferent s source output spec
      | .error e =>
        ¬ IsIndifferent s source output spec ∧
          (render source output spec (s.withVerbose true)).1 = .error e ∧
          (render source output spec (s.withVerbose true)).2.files = s.files ∧
          (render source output spec (s.withVerbose true)).2.trace.map Entry.call =
            t.trace.map Entry.call ++ [.forwardDiagnostics, .closeTab] := by
  cases hfresh : freshTab s with
  | mk result t =>
    cases result with
    | error e => exact isIndifferent_of_no_tab hfresh source output spec
    | ok tab =>
      dsimp only
      cases hforwarded : (b.forwardDiagnostics tab t.machine).1.result with
      | ok u =>
        intro hindistinct
        exact isIndifferent_of_indistinct hfresh hforwarded hindistinct source output spec
      | error e =>
        exact ⟨not_isIndifferent_of_refused hfresh hforwarded source output spec,
          render_of_refused hfresh hforwarded source output spec⟩

/-- A new session with a dummy. -/
def dummySession : Session Dummy.backend where
  machine := {}
  files := ⟨[], []⟩

/-- A dummy's tab is its first one, and does not notice that its messages are passed on. -/
theorem isIndifferent_of_dummy :
    let opened := (freshTab dummySession).2.machine
    (freshTab dummySession).1 = .ok (0 : ℕ) ∧
      Dummy.backend.Indistinct (0 : ℕ) opened (Dummy.backend.forwardDiagnostics (0 : ℕ) opened).2 ∧
      IsIndifferent dummySession [] "a.png".toList {} := by
  have hindistinct := Dummy.indistinct_forwardDiagnostics 0 (freshTab dummySession).2.machine
  exact ⟨rfl, hindistinct,
    isIndifferent_unless_refused [] "a.png".toList {} dummySession hindistinct⟩

/-- A session whose tabs refuse to pass messages on, and do all else. -/
def refusingSession : Session Scripted.backend where
  machine := { script := { tabs := [{ diagnostics := { failure := some "no channel".toList } }] } }
  files := ⟨[], []⟩

/-- A refusal ends a render that would have succeeded. -/
theorem not_isIndifferent_of_refusing :
    ¬ IsIndifferent refusingSession [] "a.png".toList {} := by
  intro h
  let result (verbose : Bool) := (render [] "a.png".toList {} (refusingSession.withVerbose verbose)).1
  have hquiet : (result false).isOk = true := by decide +kernel
  have hloud : (result true).isOk = false := by decide +kernel
  have hsame : result false = result true := h.result
  rw [hsame, hloud] at hquiet
  cases hquiet

end Session
end MermaidPress
