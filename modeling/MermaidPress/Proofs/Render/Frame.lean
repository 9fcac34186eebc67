/-
What an interaction leaves as it is. A frame is a relation of sessions that calls of some kind
and the passing of time do not leave; then no interaction made of such calls leaves it, however it
ends. The protocol of a render makes calls on its tab alone, so it stays in every frame of
those calls; it writes no file. A whole render does not move the current directory.
-/
import MermaidPress.Proofs.FileSystem.Writing
import MermaidPress.Proofs.Render.Interaction

namespace MermaidPress

namespace Interaction

variable {b : Backend} {ε α β : Type} {R : Session b → Session b → Prop}

/-- The session after the work is related to the one before, whatever the work came to. -/
def Within (R : Session b → Session b → Prop) (work : Interaction b ε α) : Prop :=
  ∀ s, R s (work s).2

theorem Within.bind {work : Interaction b ε α} {next : α → Interaction b ε β}
    (htrans : ∀ {s t u}, R s t → R t u → R s u) (h : Within R work)
    (hnext : ∀ a, Within R (next a)) : Within R (work >>= next) := fun s => by
  have hs := h s
  cases hwork : work s with
  | mk result s' =>
    rw [hwork] at hs
    cases result with
    | ok a =>
      rw [bind_of_ok hwork]
      exact htrans hs (hnext a s')
    | error e =>
      rw [bind_of_error hwork]
      exact hs

end Interaction

/-- A call on the page of a tab takes the machine from one state to another. -/
inductive Backend.OnTab (b : Backend) (tab : b.Tab) : Call → b.State → b.State → Prop
  | forwardDiagnostics m : OnTab b tab .forwardDiagnostics m (b.forwardDiagnostics tab m).2
  | setViewport viewport m :
      OnTab b tab (.setViewport viewport) m (b.setViewport tab viewport m).2
  | setContent page m : OnTab b tab (.setContent page) m (b.setContent tab page m).2
  | evaluate expression m : OnTab b tab (.evaluate expression) m (b.evaluate tab expression m).2
  | findElement selector m :
      OnTab b tab (.findElement selector) m (b.findElement tab selector m).2
  | boundingBox element m : OnTab b tab .boundingBox m (b.boundingBox tab element m).2
  | capture request m : OnTab b tab (.capture request) m (b.capture tab request m).2

namespace Session

open Interaction

variable {b : Backend} {ε α : Type}

/-- A relation of sessions that neither calls of a kind nor pauses leave. -/
structure Frame (kind : Call → b.State → b.State → Prop) (R : Session b → Session b → Prop) :
    Prop where
  refl : ∀ s, R s s
  trans : ∀ {s t u}, R s t → R t u → R s u
  call : ∀ s call answer overAt machine, kind call s.machine machine →
    R s (s.record call answer overAt machine)
  pause : ∀ (s : Session b) clock, R s { s with clock }

theorem frame_files (kind : Call → b.State → b.State → Prop) :
    Frame kind fun s s' : Session b => s'.files = s.files where
  refl _ := rfl
  trans h h' := h'.trans h
  call _ _ _ _ _ _ := rfl
  pause _ _ := rfl

namespace Frame

variable {kind : Call → b.State → b.State → Prop} {R : Session b → Session b → Prop} {call : Call}

theorem settled (h : Frame kind R) (result : Except ε α) :
    Within R (Session.settled result : Interaction b ε α) := fun s => h.refl s

theorem attempt (_h : Frame kind R) {work : Rendering b α} (hwork : Within R work) :
    Within R (Session.attempt work) := fun s => hwork s

theorem ask (h : Frame kind R) {run : b.State → Reply α × b.State}
    (hrun : ∀ m, kind call m (run m).2) (learn : α → Answer) :
    Within R (Session.ask call run learn) := fun s =>
  h.call s call _ _ _ (hrun s.machine)

theorem askUntil (h : Frame kind R) {run : b.State → Reply α × b.State}
    (hrun : ∀ m, kind call m (run m).2) (deadline : Nat) (expired : RenderError)
    (learn : α → Answer) :
    Within R (Session.askUntil deadline expired call run learn) := fun s => by
  unfold Session.askUntil
  dsimp only
  split
  · exact h.ask hrun learn s
  · exact h.call s call _ _ _ (hrun s.machine)

variable {tab : b.Tab}

theorem poll (h : Frame (b.OnTab tab) R) (deadline : Nat) (expired : RenderError)
    (expression : Text) : Within R (Session.poll deadline expired tab expression) := fun s => by
  have hask {s s' : Session b} {result : Except RenderError Json}
      (heval : evaluateUntil deadline expired tab expression s = (result, s')) : R s s' := by
    have := h.askUntil (.evaluate expression) deadline expired .value s
    rw [← evaluateUntil, heval] at this
    exact this
  fun_induction Session.poll deadline expired tab expression s with
  | case1 s e s' heval => exact hask heval
  | case2 s value s' heval _ => exact hask heval
  | case3 s value s' heval _ _ ih => exact h.trans (hask heval) (h.trans (h.pause s' _) ih)
  | case4 s value s' heval _ _ => exact h.trans (hask heval) (h.pause s' _)

theorem waitUntil (h : Frame (b.OnTab tab) R) (expression : Text) (stage : WaitStage)
    (limit : Duration) : Within R (Session.waitUntil tab expression stage limit) := fun s =>
  h.poll _ _ expression s

/-- `renderOnTab` stays in every `Frame` of the calls on its tab. -/
theorem renderOnTab (h : Frame (b.OnTab tab) R) (source : Text) (spec : RenderSpec) :
    Within R (Session.renderOnTab tab source spec) := by
  unfold Session.renderOnTab
  refine Within.bind h.trans (fun s => h.refl s) fun options => ?_
  extract_lets timeouts viewport selector capture load
  have hcapture (u : Unit) : Within R (capture u) := by
    refine .bind h.trans (h.waitUntil _ _ _) fun _ => ?_
    refine .bind h.trans (h.ask (.findElement _) _) fun element => ?_
    split
    · exact h.settled _
    · refine .bind h.trans (h.ask (.boundingBox _) _) fun box => ?_
      split
      · exact h.settled _
      · exact h.ask (.capture _) _
  have hload (u : Unit) : Within R (load u) := by
    refine .bind h.trans (h.ask (.setViewport _) _) fun _ => ?_
    refine .bind h.trans (fun s => h.askUntil (.setContent _) _ _ _ s) fun _ => ?_
    refine .bind h.trans (h.waitUntil _ _ _) fun _ => ?_
    refine .bind h.trans (h.waitUntil _ _ _) fun _ => ?_
    refine .bind h.trans (h.ask (.evaluate _) _) fun failure => ?_
    split
    · exact .bind h.trans (h.settled _) hcapture
    · exact hcapture ()
  split
  · exact .bind h.trans (h.ask .forwardDiagnostics _) hload
  · exact hload ()

/-- `acquire` launches a browser at most, and holds it from then on. -/
theorem acquire (h : Frame kind R) (hlaunch : ∀ m, kind .launch m (b.launch m).2)
    (hhold : ∀ browser, Within R (hold browser)) : Within R (Session.acquire (b := b)) := fun s => by
  cases hbrowser : s.browser with
  | some browser =>
    rw [acquire_of_some hbrowser]
    exact h.refl s
  | none =>
    rw [acquire_of_none hbrowser]
    have hlaunched : Within R (Session.ask .launch b.launch (fun _ => .done) >>= hold) :=
      .bind h.trans (h.ask hlaunch _) hhold
    exact hlaunched s

end Frame

theorem files_renderOnTab (tab : b.Tab) (source : Text) (spec : RenderSpec) (s : Session b) :
    (renderOnTab tab source spec s).2.files = s.files :=
  (frame_files (b.OnTab tab)).renderOnTab source spec s

/-! ## The current directory -/

/-- The session sees relative paths from the same directory. -/
def SameDirectory (s s' : Session b) : Prop := s'.files.current = s.files.current

theorem frame_sameDirectory (kind : Call → b.State → b.State → Prop) :
    Frame kind (SameDirectory (b := b)) where
  refl _ := rfl
  trans h h' := h'.trans h
  call _ _ _ _ _ _ := rfl
  pause _ _ := rfl

theorem within_acquire : Within SameDirectory (acquire (b := b)) :=
  (frame_sameDirectory fun _ _ _ => True).acquire (fun _ => trivial) fun _ _ => rfl

theorem within_writeImage (output : Path) (image : ByteArray) :
    Within (SameDirectory (b := b)) (writeImage output image) := fun s => by
  unfold writeImage
  split
  · exact FileSystem.current_of_writeBytes ‹_›
  · rfl

/-- `render` does not move the current directory. -/
theorem within_render (source : Text) (output : Path) (spec : RenderSpec) :
    Within (SameDirectory (b := b)) (render source output spec) := by
  have h := frame_sameDirectory (b := b) fun _ _ _ => True
  refine .bind h.trans within_acquire fun browser => ?_
  refine .bind h.trans (h.ask (fun _ => trivial) _) fun tab => ?_
  refine .bind h.trans
    (h.attempt ((frame_sameDirectory _).renderOnTab source spec)) fun rendered => ?_
  refine .bind h.trans (h.attempt (h.ask (fun _ => trivial) _)) fun closed => ?_
  refine .bind h.trans (h.settled rendered) fun image => ?_
  exact .bind h.trans (h.settled closed) fun _ => within_writeImage output image

end Session
end MermaidPress
