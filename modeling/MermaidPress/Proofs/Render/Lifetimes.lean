/-
The lives of browsers and tabs in a session, over any backend and whatever fails. What each call
of a session does to them is said by the few lists of events it can come to; each of these is a
run of moves, so every sequence of calls has a history whose books balance.
-/
import MermaidPress.Backend.Dummy
import MermaidPress.Proofs.Render.Frame
import MermaidPress.Proofs.Render.Numbering

namespace MermaidPress

variable {b : Backend}

/-- A call of a session. -/
inductive SessionCall
  | acquire
  | render (source : Text) (output : Path) (spec : RenderSpec)
  | shutdown

/-- The session after a call, whatever the call came to. -/
def SessionCall.run : SessionCall → Session b → Session b
  | acquire, s => s.acquire.2
  | render source output spec, s => (Session.render source output spec s).2
  | shutdown, s => s.shutdown.2

namespace Session

/-- The session after some calls. -/
def after (s : Session b) (calls : List SessionCall) : Session b :=
  calls.foldl (fun s call => call.run s) s

/-- The events so far. -/
def log (s : Session b.numbered) : List Event := s.machine.log

/-- The number of the browser that the session holds. -/
def heldBrowser (s : Session b.numbered) : Option Nat := s.browser.map Numbered.number

theorem heldBrowser_of_some {s : Session b.numbered} {browser : b.numbered.Browser}
    (h : s.browser = some browser) : s.heldBrowser = some browser.number := by
  rw [heldBrowser, h]
  rfl

theorem heldBrowser_of_none {s : Session b.numbered} (h : s.browser = none) :
    s.heldBrowser = none := by
  rw [heldBrowser, h]
  rfl

theorem isLaunched_eq (s : Session b.numbered) : s.isLaunched = s.heldBrowser.isSome := by
  unfold isLaunched heldBrowser
  cases s.browser <;> rfl

theorem forget_run (call : SessionCall) (s : Session b.numbered) :
    (call.run s).forget = call.run s.forget := by
  cases call with
  | acquire => exact (congrArg Prod.snd (mirrors_acquire s)).symm
  | render source output spec =>
    exact (congrArg Prod.snd (mirrors_render source output spec s)).symm
  | shutdown => exact (congrArg Prod.snd (mirrors_shutdown s)).symm

/-- Sessions over a `numbered` backend go as sessions do, whatever they are called for. -/
theorem forget_after (s : Session b.numbered) (calls : List SessionCall) :
    (s.after calls).forget = s.forget.after calls :=
  (List.foldl_hom forget fun s call => (forget_run call s).symm).symm

end Session

/-! ## The events of a call -/

/-- How `acquire` gets a browser: the one that is held, or none, as a launch gives it. -/
inductive Acquires (now : Nat) : Option Nat → List Event → Option Nat → Prop
  | held {browser} : Acquires now (some browser) [] (some browser)
  | failed : Acquires now none [.launchFailed] none
  | launched : Acquires now none [.launched now] (some now)

/-- How a tab of a browser is used: it is refused, or opened, used for a while and closed. -/
inductive UsesTab (now browser : Nat) : List Event → Prop
  | refused : UsesTab now browser [.tabRefused browser]
  | opened (uses : Nat) :
      UsesTab now browser
        (.tabOpened browser now :: (List.replicate uses (.tabUsed now) ++ [.tabClosed now]))

/-- The events of a call that begins at the place `now` of a history, and the browser that is held
before and after it. -/
inductive SessionCall.Performs (now : Nat) :
    SessionCall → Option Nat → List Event → Option Nat → Prop
  | acquire {held held' events} :
      Acquires now held events held' → Performs now .acquire held events held'
  | renderFailed {source output spec held events} :
      Acquires now held events none → Performs now (.render source output spec) held events none
  | render {source output spec held browser events events'} :
      Acquires now held events (some browser) → UsesTab (now + events.length) browser events' →
      Performs now (.render source output spec) held (events ++ events') (some browser)
  | shutdownIdle : Performs now .shutdown none [] none
  | shutdown {browser} : Performs now .shutdown (some browser) [.browserClosed browser] none

namespace History

variable {log events : List Event} {held held' : Option Nat}

theorem acquires (h : History log { browser := held })
    (hacquires : Acquires log.length held events held') :
    History (log ++ events) { browser := held' } := by
  cases hacquires with
  | held => rwa [List.append_nil]
  | failed => exact h.step .launchFailed
  | launched => exact h.step .launched

theorem tabUsed {tab : Nat} (h : History log { browser := held, tab := some tab }) (uses : Nat) :
    History (log ++ List.replicate uses (.tabUsed tab)) { browser := held, tab := some tab } := by
  induction uses with
  | zero => rwa [List.replicate_zero, List.append_nil]
  | succ uses ih =>
    rw [List.replicate_succ', ← List.append_assoc]
    exact ih.step .tabUsed

theorem usesTab {browser : Nat} (h : History log { browser := some browser })
    (huses : UsesTab log.length browser events) :
    History (log ++ events) { browser := some browser } := by
  cases huses with
  | refused => exact h.step .tabRefused
  | opened uses =>
    have hclosed := ((h.step .tabOpened).tabUsed uses).step .tabClosed
    simpa using hclosed

/-- Every `SessionCall` is a run of moves. -/
theorem performs {call : SessionCall} (h : History log { browser := held })
    (hperforms : call.Performs log.length held events held') :
    History (log ++ events) { browser := held' } := by
  cases hperforms with
  | acquire hacquires => exact h.acquires hacquires
  | renderFailed hacquires => exact h.acquires hacquires
  | render hacquires huses =>
    rw [← List.append_assoc]
    refine (h.acquires hacquires).usesTab ?_
    rwa [List.length_append]
  | shutdownIdle => rwa [List.append_nil]
  | shutdown => exact h.step .browserClosed

end History

/-- A launch that fails ends its call, which then holds no browser. -/
theorem SessionCall.Performs.of_launchFailed {call : SessionCall} {now : Nat}
    {held held' : Option Nat} {events : List Event} (h : call.Performs now held events held')
    (hfailed : .launchFailed ∈ events) : events = [.launchFailed] ∧ held' = none := by
  have hacquire {held held' events} (h : Acquires now held events held')
      (hfailed : .launchFailed ∈ events) : events = [.launchFailed] ∧ held' = none := by
    cases h <;> simp_all
  cases h with
  | acquire h => exact hacquire h hfailed
  | renderFailed h => exact hacquire h hfailed
  | render h huses =>
    cases h <;> cases huses <;> simp_all
  | shutdownIdle => simp at hfailed
  | shutdown => simp at hfailed

namespace Session

open Interaction

/-- From one session to another some events happen, and the browser stays. -/
structure Adds (events : List Event) (s s' : Session b.numbered) : Prop where
  log : s'.log = s.log ++ events
  browser : s'.browser = s.browser

theorem Adds.heldBrowser {events : List Event} {s s' : Session b.numbered} (h : Adds events s s') :
    s'.heldBrowser = s.heldBrowser := congrArg (Option.map _) h.browser

theorem Adds.refl (s : Session b.numbered) : Adds [] s s := ⟨(List.append_nil _).symm, rfl⟩

theorem Adds.trans {events events' : List Event} {s t u : Session b.numbered}
    (h : Adds events s t) (h' : Adds events' t u) : Adds (events ++ events') s u := by
  refine ⟨?_, h'.browser.trans h.browser⟩
  rw [h'.log, h.log, List.append_assoc]

section Calls

variable {α : Type} {call : Call} {run : b.State → Reply α × b.State}

theorem adds_ask_noting {event : Event} {learn : α → Answer} (s : Session b.numbered) :
    Adds [event] s (ask call (Logged.noting event run) learn s).2 := ⟨rfl, rfl⟩

theorem ask_numbering {failed : Event} {made : Nat → Event} {learn : Numbered α → Answer}
    (s : Session b.numbered) :
    (∃ a s', ask call (Logged.numbering failed made run) learn s = (.ok a, s') ∧
        a.number = s.log.length ∧ Adds [made s.log.length] s s') ∨
      ∃ e s', ask call (Logged.numbering failed made run) learn s = (.error e, s') ∧
        Adds [failed] s s' := by
  unfold ask Logged.numbering
  rcases run s.machine.machine with ⟨⟨delay, result⟩, machine⟩
  cases result with
  | ok handle => exact .inl ⟨⟨s.log.length, handle⟩, _, rfl, rfl, rfl, rfl⟩
  | error e => exact .inr ⟨e, _, rfl, rfl, rfl⟩

end Calls

theorem launch_outcome (s : Session b.numbered) :
    (∃ browser s', ask .launch b.numbered.launch (fun _ => .done) s = (.ok browser, s') ∧
        browser.number = s.log.length ∧ Adds [.launched s.log.length] s s') ∨
      ∃ e s', ask .launch b.numbered.launch (fun _ => .done) s = (.error e, s') ∧
        Adds [.launchFailed] s s' :=
  ask_numbering s

theorem openTab_outcome (browser : b.numbered.Browser) (s : Session b.numbered) :
    (∃ tab s', ask .openTab (b.numbered.openTab browser) (fun _ => .done) s = (.ok tab, s') ∧
        tab.number = s.log.length ∧ Adds [.tabOpened browser.number s.log.length] s s') ∨
      ∃ e s', ask .openTab (b.numbered.openTab browser) (fun _ => .done) s = (.error e, s') ∧
        Adds [.tabRefused browser.number] s s' :=
  ask_numbering s

/-- `acquire` gets a browser in one of three ways, and it is the one that is held from then on. -/
theorem acquire_outcome (s : Session b.numbered) :
    (acquire s).1.toOption = (acquire s).2.browser ∧ ∃ events,
      (acquire s).2.log = s.log ++ events ∧
        Acquires s.log.length s.heldBrowser events (acquire s).2.heldBrowser := by
  cases hbrowser : s.browser with
  | some browser =>
    rw [acquire_of_some hbrowser, heldBrowser_of_some hbrowser]
    exact ⟨hbrowser.symm, [], (List.append_nil _).symm, .held⟩
  | none =>
    have hheld := heldBrowser_of_none hbrowser
    rw [acquire_of_none hbrowser, hheld]
    rcases launch_outcome s with ⟨browser, s', hlaunch, hnumber, hadds⟩ | ⟨e, s', hlaunch, hadds⟩
    · rw [bind_of_ok hlaunch]
      refine ⟨rfl, _, hadds.log, ?_⟩
      rw [← hnumber]
      exact .launched
    · rw [bind_of_error hlaunch, hadds.heldBrowser, hheld]
      exact ⟨(hadds.browser.trans hbrowser).symm, _, hadds.log, .failed⟩

/-- The session uses a tab, some number of times. -/
def UsesOnly (tab : Nat) (s s' : Session b.numbered) : Prop :=
  ∃ uses, Adds (List.replicate uses (.tabUsed tab)) s s'

theorem frame_usesOnly (tab : b.numbered.Tab) :
    Frame (b.numbered.OnTab tab) (UsesOnly tab.number) where
  refl s := ⟨0, .refl s⟩
  trans := by
    rintro s t u ⟨uses, h⟩ ⟨uses', h'⟩
    exact ⟨uses + uses', List.replicate_append_replicate ▸ h.trans h'⟩
  -- Whichever of the calls on a tab it is, it adds one event.
  call := by
    rintro s call answer overAt machine (_ | _ | _ | _ | _ | _ | _) <;> exact ⟨1, rfl, rfl⟩
  pause s clock := ⟨0, (List.append_nil _).symm, rfl⟩

/-- The part of `render` that has a browser. -/
def renderIn (browser : b.Browser) (source : Text) (output : Path) (spec : RenderSpec) :
    Rendering b Unit := do
  let tab ← ask .openTab (b.openTab browser) fun _ => .done
  let rendered ← attempt (renderOnTab tab source spec)
  let closed ← attempt (ask .closeTab (b.closeTab tab) fun _ => .done)
  let image ← settled rendered
  settled closed
  writeImage output image

theorem render_eq (source : Text) (output : Path) (spec : RenderSpec) :
    (render source output spec : Rendering b Unit) =
      acquire >>= fun browser => renderIn browser source output spec := rfl

theorem within_adds_writeImage (output : Path) (image : ByteArray) :
    Within (Adds (b := b) []) (writeImage output image) := fun s => by
  unfold writeImage
  split <;> exact ⟨(List.append_nil _).symm, rfl⟩

/-- `renderIn` uses one tab, and closes it however the render goes. -/
theorem renderIn_outcome (browser : b.numbered.Browser) (source : Text) (output : Path)
    (spec : RenderSpec) (s : Session b.numbered) : ∃ events,
      Adds events s (renderIn browser source output spec s).2 ∧
        UsesTab s.log.length browser.number events := by
  rw [renderIn]
  rcases openTab_outcome browser s with ⟨tab, s', hopen, hnumber, hopened⟩ | ⟨e, s', hopen, hadds⟩
  · rw [bind_of_ok hopen]
    obtain ⟨uses, hused⟩ := (frame_usesOnly tab).renderOnTab source spec s'
    rw [hnumber] at hused
    have hclosed : Adds [.tabClosed s.log.length] (renderOnTab tab source spec s').2
        (ask .closeTab (b.numbered.closeTab tab) (fun _ => .done)
          (renderOnTab tab source spec s').2).2 := by
      rw [← hnumber]
      exact adds_ask_noting _
    refine ⟨_, ?_, .opened uses⟩
    have hrest (rendered : Except RenderError ByteArray) (closed : Except RenderError Unit) :
        Within (Adds (b := b) []) (do
          let image ← settled rendered
          settled closed
          writeImage output image) :=
      .bind .trans (fun s => .refl s) fun image =>
        .bind .trans (fun s => .refl s) fun _ => within_adds_writeImage output image
    exact hopened.trans (hused.trans (hclosed.trans (hrest _ _ _)))
  · rw [bind_of_error hopen]
    exact ⟨_, hadds, .refused⟩

/-- What a `SessionCall` does is one of the few lists of events that it `Performs`. -/
theorem run_outcome (call : SessionCall) (s : Session b.numbered) : ∃ events,
    (call.run s).log = s.log ++ events ∧
      call.Performs s.log.length s.heldBrowser events (call.run s).heldBrowser := by
  cases call with
  | acquire =>
    obtain ⟨-, events, hlog, hacquires⟩ := acquire_outcome s
    exact ⟨events, hlog, .acquire hacquires⟩
  | shutdown =>
    cases hbrowser : s.browser with
    | none =>
      rw [SessionCall.run, shutdown_of_none hbrowser, heldBrowser_of_none hbrowser]
      exact ⟨[], (List.append_nil _).symm, .shutdownIdle⟩
    | some browser =>
      rw [SessionCall.run, shutdown_of_some hbrowser, heldBrowser_of_some hbrowser]
      exact ⟨[.browserClosed browser.number], rfl, .shutdown⟩
  | render source output spec =>
    obtain ⟨hresult, events, hlog, hacquires⟩ := acquire_outcome s
    rw [SessionCall.run, render_eq]
    cases hacquire : acquire s with
    | mk result s' =>
      rw [hacquire] at hresult hlog hacquires
      cases result with
      | error e =>
        have hheld := heldBrowser_of_none hresult.symm
        rw [bind_of_error hacquire, hheld]
        exact ⟨events, hlog, .renderFailed (hheld ▸ hacquires)⟩
      | ok browser =>
        have hheld := heldBrowser_of_some hresult.symm
        obtain ⟨events', hadds, htab⟩ := renderIn_outcome browser source output spec s'
        rw [bind_of_ok hacquire]
        refine ⟨events ++ events', ?_, ?_⟩
        · rw [hadds.log, hlog, List.append_assoc]
        · rw [hadds.heldBrowser, hheld]
          rw [hlog, List.length_append] at htab
          exact .render (hheld ▸ hacquires) htab

/-- **Whatever a session is called for, it has a `History`.** -/
theorem history_after {s : Session b.numbered} (h : History s.log { browser := s.heldBrowser })
    (calls : List SessionCall) :
    History (s.after calls).log { browser := (s.after calls).heldBrowser } := by
  induction calls generalizing s with
  | nil => exact h
  | cons call calls ih =>
    obtain ⟨events, hlog, hperforms⟩ := run_outcome call s
    refine ih (s := call.run s) ?_
    rw [hlog]
    exact h.performs hperforms

theorem acquire_launches {s : Session b.numbered} (h : s.isLaunched = false) :
    ∃ event : Event, event.isLaunch ∧ s.acquire.2.log = s.log ++ [event] := by
  obtain ⟨-, events, hlog, hacquires⟩ := acquire_outcome s
  rw [isLaunched_eq, Option.isSome_eq_false_iff, Option.isNone_iff_eq_none] at h
  rw [h] at hacquires
  generalize s.acquire.2.heldBrowser = held at hacquires
  cases hacquires with
  | failed => exact ⟨_, rfl, hlog⟩
  | launched => exact ⟨_, rfl, hlog⟩

theorem isLaunched_shutdown (s : Session b) : s.shutdown.2.isLaunched = false := by
  cases hbrowser : s.browser with
  | none => rw [shutdown_of_none hbrowser, isLaunched, hbrowser]; rfl
  | some browser => rw [shutdown_of_some hbrowser]; rfl

/-- To `shutdown` a session again makes no call. -/
theorem shutdown_shutdown (s : Session b) : s.shutdown.2.shutdown = (.ok (), s.shutdown.2) := by
  have h := isLaunched_shutdown s
  rw [isLaunched, Option.isSome_eq_false_iff, Option.isNone_iff_eq_none] at h
  exact shutdown_of_none h

/-- A session at its start, over a `numbered` backend. -/
def numberedStart (options : SessionOptions) (machine : b.State) (files : FileSystem) :
    Session b.numbered where
  options := options
  machine := { machine }
  files := files

/-- **The lives of browsers and tabs.** After any calls of a session over any backend, which goes as
without numbers: there is one launch more than closings exactly while a browser is held; a launch
was attempted only where every browser before it had been closed, and one that failed ended its
call, without a browser and with a new attempt to come; no browser was closed twice; a session after
`shutdown` holds no browser, and to shut it down again does nothing; and every tab that was opened
has been closed, once. -/
theorem lifetimes (options : SessionOptions) (machine : b.State) (files : FileSystem)
    (calls : List SessionCall) :
    let s := (numberedStart (b := b) options machine files).after calls
    s.forget = after { options, machine, files } calls ∧
      s.log.countP Event.isLaunched =
        s.log.countP Event.isBrowserClosed + s.isLaunched.toNat ∧
      (∀ before event rest, s.log = before ++ event :: rest → event.isLaunch →
        ∀ n, .launched n ∈ before → .browserClosed n ∈ before) ∧
      (∀ call : SessionCall, ∃ events, (call.run s).log = s.log ++ events ∧
        (.launchFailed ∈ events →
          events = [.launchFailed] ∧ (call.run s).isLaunched = false)) ∧
      (s.isLaunched = false →
        ∃ event : Event, event.isLaunch ∧ s.acquire.2.log = s.log ++ [event]) ∧
      (∀ n, s.log.count (.launched n) ≤ 1 ∧
        s.log.count (.browserClosed n) ≤ s.log.count (.launched n)) ∧
      s.shutdown.2.isLaunched = false ∧
      s.shutdown.2.shutdown = (.ok (), s.shutdown.2) ∧
      (∀ n, s.log.countP (Event.opens n) ≤ 1 ∧
        s.log.count (.tabClosed n) = s.log.countP (Event.opens n)) := by
  intro s
  have h : History s.log { browser := s.heldBrowser } :=
    history_after (s := numberedStart options machine files) .start calls
  refine ⟨forget_after _ calls, ?_, fun before event rest hlog hlaunch n => ?_, fun call => ?_,
    acquire_launches, fun n => ⟨h.count_launched_le_one n, ?_⟩, isLaunched_shutdown s,
    shutdown_shutdown s, fun n => ⟨h.countP_opens_le_one n, ?_⟩⟩
  · rw [isLaunched_eq]
    exact h.countP_isLaunched
  · exact h.closed_before_launch hlog hlaunch
  · obtain ⟨events, hlog, hperforms⟩ := run_outcome call s
    refine ⟨events, hlog, fun hfailed => ?_⟩
    obtain ⟨hevents, hheld⟩ := hperforms.of_launchFailed hfailed
    exact ⟨hevents, by rw [isLaunched_eq, hheld]; rfl⟩
  · have hbalance := h.count_launched n
    omega
  · have hbalance := h.countP_opens n
    simpa using hbalance.symm

/-- The first browser and its tab, over a dummy: the second shutdown adds nothing. -/
example :
    ((numberedStart (b := Dummy.backend) {} {} { current := [], nodes := [] }).after
      [.render "A".toList "/a.png".toList {}, .shutdown, .shutdown]).log =
        [.launched 0, .tabOpened 0 1] ++ List.replicate 9 (.tabUsed 1) ++
          [.tabClosed 1, .browserClosed 0] := by
  decide +kernel

end Session
end MermaidPress
