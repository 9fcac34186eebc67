/-
Browsers and tabs by number. What a backend hands out is its own business, and two launches may
give the same handle. To tell one browser from another, and one tab from another, a backend is
wrapped (`numbered`): it answers as before, but all that it makes gets a number, and what is done
to it is logged. A session over the wrapped backend goes as one over the backend itself, so what
the log says of one holds of the other.
-/
import MermaidPress.Proofs.Render.History
import MermaidPress.Proofs.Render.Interaction

namespace MermaidPress

variable {α β σ ε : Type}

/-- A handle with a number of its own. -/
structure Numbered (α : Type) where
  number : Nat
  handle : α

/-- A machine with a log of the calls that were made. -/
structure Logged (σ : Type) where
  machine : σ
  log : List Event := []

/-- A reply with its result changed. -/
def Reply.map (f : α → β) (reply : Reply α) : Reply β where
  delay := reply.delay
  result := reply.result.map f

namespace Logged

/-- Makes a call that is logged, however it ends. -/
def noting (event : Event) (run : σ → Reply α × σ) (s : Logged σ) : Reply α × Logged σ :=
  ((run s.machine).1, { machine := (run s.machine).2, log := s.log ++ [event] })

/-- Makes a call that gives a handle, and numbers it by the length of the log. -/
def numbering (failed : Event) (made : Nat → Event) (run : σ → Reply α × σ) (s : Logged σ) :
    Reply (Numbered α) × Logged σ :=
  let event := match (run s.machine).1.result with
    | .ok _ => made s.log.length
    | .error _ => failed
  ((run s.machine).1.map (.mk s.log.length),
    { machine := (run s.machine).2, log := s.log ++ [event] })

end Logged

namespace Backend

/-- A backend whose browsers and tabs have numbers. Closing counts as such also where it fails. -/
def numbered (b : Backend) : Backend where
  State := Logged b.State
  Browser := Numbered b.Browser
  Tab := Numbered b.Tab
  Element := b.Element
  launch := Logged.numbering .launchFailed .launched b.launch
  openTab browser := Logged.numbering (.tabRefused browser.number) (.tabOpened browser.number)
    (b.openTab browser.handle)
  closeBrowser browser := Logged.noting (.browserClosed browser.number)
    (b.closeBrowser browser.handle)
  forwardDiagnostics tab := Logged.noting (.tabUsed tab.number) (b.forwardDiagnostics tab.handle)
  setViewport tab viewport := Logged.noting (.tabUsed tab.number)
    (b.setViewport tab.handle viewport)
  setContent tab page := Logged.noting (.tabUsed tab.number) (b.setContent tab.handle page)
  evaluate tab expression := Logged.noting (.tabUsed tab.number) (b.evaluate tab.handle expression)
  findElement tab selector := Logged.noting (.tabUsed tab.number)
    (b.findElement tab.handle selector)
  boundingBox tab element := Logged.noting (.tabUsed tab.number) (b.boundingBox tab.handle element)
  capture tab request := Logged.noting (.tabUsed tab.number) (b.capture tab.handle request)
  closeTab tab := Logged.noting (.tabClosed tab.number) (b.closeTab tab.handle)

end Backend

/-! ## Without the numbers -/

theorem Reply.map_id (reply : Reply α) : reply.map id = reply := by
  simp only [Reply.map, Except.map_id, id_eq]

namespace Logged

theorem machine_noting (event : Event) (run : σ → Reply α × σ) (s : Logged σ) :
    run s.machine = ((noting event run s).1.map id, (noting event run s).2.machine) := by
  rw [Reply.map_id]
  rfl

theorem machine_numbering (failed : Event) (made : Nat → Event) (run : σ → Reply α × σ)
    (s : Logged σ) :
    run s.machine = ((numbering failed made run s).1.map Numbered.handle,
      (numbering failed made run s).2.machine) := by
  simp only [numbering]
  rcases run s.machine with ⟨⟨delay, result⟩, machine⟩
  cases result <;> rfl

end Logged

/-- A session over a `numbered` backend, as it is over the backend itself. -/
def Session.forget {b : Backend} (s : Session b.numbered) : Session b where
  options := s.options
  machine := s.machine.machine
  browser := s.browser.map Numbered.handle
  clock := s.clock
  trace := s.trace
  files := s.files

namespace Interaction

variable {b : Backend}

/-- Work over numbered browsers goes as work over the backend itself: it leaves the same session,
and its result is the same once the numbers are taken off by `f`. -/
def Mirrors (f : α → β) (work' : Interaction b.numbered ε α) (work : Interaction b ε β) : Prop :=
  ∀ s, work s.forget = ((work' s).1.map f, (work' s).2.forget)

theorem Mirrors.bind {α' β' : Type} {f : α' → α} {g : β' → β}
    {work' : Interaction b.numbered ε α'} {work : Interaction b ε α}
    {next' : α' → Interaction b.numbered ε β'} {next : α → Interaction b ε β}
    (h : Mirrors f work' work) (hnext : ∀ a, Mirrors g (next' a) (next (f a))) :
    Mirrors g (work' >>= next') (work >>= next) := fun s => by
  have hs := h s
  cases hwork : work' s with
  | mk result s' =>
    rw [hwork] at hs
    cases result with
    | ok a =>
      rw [bind_of_ok hwork, bind_of_ok hs]
      exact hnext a s'
    | error e =>
      rw [bind_of_error hwork, bind_of_error hs]
      rfl

end Interaction

namespace Session

open Interaction

variable {b : Backend}

theorem mirrors_settled (result : Except ε α) :
    Mirrors (b := b) id (settled result) (settled result) := fun s => by
  rw [settled, settled, Except.map_id, id_eq]

theorem mirrors_attempt {work' : Rendering b.numbered α} {work : Rendering b α}
    (h : Mirrors id work' work) : Mirrors id (attempt work') (attempt work) := fun s => by
  have hs := h s
  rw [Except.map_id, id_eq] at hs
  unfold attempt
  rw [hs]
  rfl

theorem mirrors_getOptions : Mirrors (b := b) id getOptions getOptions := fun _ => rfl

variable {f : α → β} {call : Call} {run' : Logged b.State → Reply α × Logged b.State}
  {run : b.State → Reply β × b.State} {learn' : α → Answer} {learn : β → Answer}

theorem mirrors_ask (hrun : ∀ m, run m.machine = ((run' m).1.map f, (run' m).2.machine))
    (hlearn : ∀ a, learn (f a) = learn' a) :
    Mirrors (b := b) f (ask call run' learn') (ask call run learn) := fun s => by
  have hs : run s.forget.machine = _ := hrun s.machine
  unfold ask
  rw [hs]
  rcases run' s.machine with ⟨⟨delay, result⟩, machine⟩
  cases result with
  | ok a =>
    simp only [Reply.map, Except.map, hlearn]
    rfl
  | error e => rfl

theorem mirrors_askUntil (deadline : Nat) (expired : RenderError)
    (hrun : ∀ m, run m.machine = ((run' m).1.map f, (run' m).2.machine))
    (hlearn : ∀ a, learn (f a) = learn' a) :
    Mirrors (b := b) f (askUntil deadline expired call run' learn')
      (askUntil deadline expired call run learn) := fun s => by
  have hs : run s.forget.machine = _ := hrun s.machine
  have hask : Mirrors (b := b) f (ask call run' learn') (ask call run learn) :=
    mirrors_ask hrun hlearn
  unfold askUntil
  rw [hs]
  have hclock : s.forget.clock = s.clock := rfl
  simp only [Reply.map, hclock]
  split
  · exact hask s
  · rfl

theorem mirrors_evaluateUntil (deadline : Nat) (expired : RenderError) (tab : b.numbered.Tab)
    (expression : Text) :
    Mirrors id (evaluateUntil deadline expired tab expression)
      (evaluateUntil (b := b) deadline expired tab.handle expression) :=
  mirrors_askUntil deadline expired (Logged.machine_noting _ _) fun _ => rfl

theorem mirrors_poll (deadline : Nat) (expired : RenderError) (tab : b.numbered.Tab)
    (expression : Text) :
    Mirrors id (poll deadline expired tab expression)
      (poll (b := b) deadline expired tab.handle expression) := fun s => by
  have hlook {s s' : Session b.numbered} {result : Except RenderError Json}
      (heval : evaluateUntil deadline expired tab expression s = (result, s')) :
      evaluateUntil (b := b) deadline expired tab.handle expression s.forget =
        (result, s'.forget) := by
    have := mirrors_evaluateUntil deadline expired tab expression s
    rw [heval, Except.map_id] at this
    exact this
  fun_induction Session.poll deadline expired tab expression s with
  | case1 s e s' heval => rw [poll, hlook heval]; rfl
  | case2 s value s' heval htrue =>
    rw [poll, hlook heval]
    exact if_pos htrue
  | case3 s value s' heval htrue hbefore ih =>
    rw [poll, hlook heval]
    exact (if_neg htrue).trans ((dif_pos hbefore).trans ih)
  | case4 s value s' heval htrue hbefore =>
    rw [poll, hlook heval]
    exact (if_neg htrue).trans (dif_neg hbefore)

theorem mirrors_waitUntil (tab : b.numbered.Tab) (expression : Text) (stage : WaitStage)
    (limit : Duration) :
    Mirrors id (waitUntil tab expression stage limit)
      (waitUntil (b := b) tab.handle expression stage limit) := fun s =>
  mirrors_poll _ _ tab expression s

theorem mirrors_setContent (tab : b.numbered.Tab) (page : Text) (limit : Duration) :
    Mirrors id (setContent tab page limit) (setContent (b := b) tab.handle page limit) := fun s =>
  mirrors_askUntil _ _ (Logged.machine_noting _ _) (fun _ => rfl) s

theorem mirrors_ask_noting {event : Event} {call : Call} {run : b.State → Reply α × b.State}
    {learn : α → Answer} :
    Mirrors (b := b) id (ask call (Logged.noting event run) learn) (ask call run learn) :=
  mirrors_ask (Logged.machine_noting event run) fun _ => rfl

theorem mirrors_renderOnTab (tab : b.numbered.Tab) (source : Text) (spec : RenderSpec) :
    Mirrors id (renderOnTab tab source spec) (renderOnTab (b := b) tab.handle source spec) := by
  unfold renderOnTab
  refine .bind mirrors_getOptions fun options => ?_
  -- Both protocols fall into the same three parts: up to the tab's messages, to the report of the
  -- script, and to the picture.
  extract_lets timeouts viewport selector capture' load' _ capture load
  have hcapture (u : Unit) : Mirrors id (capture' u) (capture u) := by
    refine .bind (mirrors_waitUntil tab _ _ _) fun _ => ?_
    refine .bind mirrors_ask_noting fun element => ?_
    cases element with
    | none => exact mirrors_settled _
    | some element =>
      refine .bind mirrors_ask_noting fun box => ?_
      cases box with
      | none => exact mirrors_settled _
      | some box => exact mirrors_ask_noting
  have hload (u : Unit) : Mirrors id (load' u) (load u) := by
    refine .bind mirrors_ask_noting fun _ => ?_
    refine .bind (mirrors_setContent tab _ _) fun _ => ?_
    refine .bind (mirrors_waitUntil tab _ _ _) fun _ => ?_
    refine .bind (mirrors_waitUntil tab _ _ _) fun _ => ?_
    refine .bind mirrors_ask_noting fun failure => ?_
    dsimp only [id_eq]
    cases engineFailure? failure with
    | none => exact hcapture ()
    | some text => exact .bind (mirrors_settled _) hcapture
  dsimp only [id_eq]
  split
  · exact .bind mirrors_ask_noting hload
  · exact hload ()

theorem browser_forget_of_some {s : Session b.numbered} {browser : b.numbered.Browser}
    (h : s.browser = some browser) : s.forget.browser = some browser.handle := by
  rw [forget, h]
  rfl

theorem browser_forget_of_none {s : Session b.numbered} (h : s.browser = none) :
    s.forget.browser = none := by
  rw [forget, h]
  rfl

theorem mirrors_acquire : Mirrors Numbered.handle (acquire (b := b.numbered)) (acquire (b := b)) :=
  fun s => by
  cases hbrowser : s.browser with
  | some browser =>
    rw [acquire_of_some hbrowser, acquire_of_some (browser_forget_of_some hbrowser)]
    rfl
  | none =>
    rw [acquire_of_none hbrowser, acquire_of_none (browser_forget_of_none hbrowser)]
    exact Mirrors.bind (mirrors_ask (Logged.machine_numbering _ _ _) fun _ => rfl)
      (fun _ _ => rfl) s

theorem mirrors_shutdown : Mirrors id (shutdown (b := b.numbered)) (shutdown (b := b)) :=
  fun s => by
  cases hbrowser : s.browser with
  | none =>
    rw [shutdown_of_none hbrowser, shutdown_of_none (browser_forget_of_none hbrowser)]
    rfl
  | some browser =>
    rw [shutdown_of_some hbrowser, shutdown_of_some (browser_forget_of_some hbrowser)]
    exact mirrors_ask_noting { s with browser := none }

theorem mirrors_writeImage (output : Path) (image : ByteArray) :
    Mirrors (b := b) id (writeImage output image) (writeImage output image) := fun s => by
  rw [writeImage, writeImage]
  have hfiles : s.forget.files = s.files := rfl
  rw [hfiles]
  cases s.files.writeBytes output image <;> rfl

/-- `render` does not see the numbers. -/
theorem mirrors_render (source : Text) (output : Path) (spec : RenderSpec) :
    Mirrors (b := b) id (render source output spec) (render source output spec) := by
  refine .bind mirrors_acquire fun browser => ?_
  refine .bind (mirrors_ask (Logged.machine_numbering _ _ _) fun _ => rfl) fun tab => ?_
  refine .bind (mirrors_attempt (mirrors_renderOnTab tab source spec)) fun rendered => ?_
  refine .bind (mirrors_attempt mirrors_ask_noting) fun closed => ?_
  refine .bind (mirrors_settled rendered) fun image => ?_
  exact .bind (mirrors_settled closed) fun _ => mirrors_writeImage output image

end Session
end MermaidPress
