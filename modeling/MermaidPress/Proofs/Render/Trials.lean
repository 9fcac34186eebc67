/-
Which renders fail on a dummy, with a failure that their page reports. A dummy answers at once, so no
limit comes before an answer, and what a render comes to is decided by what the dummy says of the page.
Each call of a render leaves its machine as it is, but for the tally and for the page that is shown, so
the machine is followed through the stages of a render, and what it says is asked for at the end.

A dummy can be told a text to fail on. It is meant to be a text of the diagram, but it is looked for on
the whole page: `failsOnSource_iff` says when the two come to the same.
-/
import MermaidPress.Backend.Dummy
import MermaidPress.Proofs.Render.Loading
import MermaidPress.Proofs.Render.Needles
import MermaidPress.Proofs.Text.Position

namespace MermaidPress

open Interaction

variable {α β : Type} {text needle : Text}

/-! ## Failures that no page reports -/

namespace Session

variable {b : Backend} {work : Rendering b α}

/-- If the work fails, it is not with a failure that a page reports. -/
def Unreported (work : Rendering b α) : Prop := ∀ s text, (work s).1 ≠ .error (.engine text)

theorem Unreported.bind {next : α → Rendering b β} (h : Unreported work)
    (hnext : ∀ a, Unreported (next a)) : Unreported (work >>= next) := fun s text => by
  have hs := h s text
  cases hwork : work s with
  | mk result t =>
    cases result with
    | ok a =>
      rw [bind_of_ok hwork]
      exact hnext a t text
    | error e =>
      rw [bind_of_error hwork]
      rw [hwork] at hs
      exact fun heq => hs (congrArg Except.error (Except.error.inj heq))

theorem unreported_ask {call : Call} {run : b.State → Reply α × b.State} {learn : α → Answer}
    (h : ∀ m text, (run m).1.result ≠ .error (.engine text)) : Unreported (ask call run learn) :=
  fun s text => h s.machine text

theorem Finishes.reports_iff {output : Path} {rendered : Except RenderError ByteArray}
    {files files' : FileSystem} {result : Except RenderError Unit}
    (h : Finishes output rendered (.ok ()) files result files') :
    result = .error (.engine text) ↔ rendered = .error (.engine text) := by
  cases h with
  | notRendered e => simp
  | notWritten => simp
  | written => simp

end Session

namespace Dummy

open Session

variable {s : Session backend} {page : Text} {behavior : Behavior}

/-! ## What a dummy says of a page -/

/-- The page that a tab shows. -/
def State.pageOn (m : State) (tab : ℕ) : Text := m.shown[tab]?.getD []

/-- The dummy has opened the tab. -/
def State.HasOpened (m : State) (tab : ℕ) : Prop := tab < m.shown.length

theorem State.HasOpened.pageOn_setContent {m : State} {tab : ℕ} (h : m.HasOpened tab) (page : Text) :
    (backend.setContent tab page m).2.pageOn tab = page := by
  show ((m.shown.set tab page)[tab]?).getD [] = page
  rw [List.getElem?_set_self h]
  rfl

theorem valueOf_renderSettled : behavior.valueOf page Page.renderSettled =
    .bool (behavior.outcomeOn page ≠ .hang) := by
  have hother : Page.renderSettled ≠ Page.documentReady := by decide
  simp only [Behavior.valueOf, if_neg hother, if_true]

theorem valueOf_renderFailure : behavior.valueOf page Page.renderFailure =
    match behavior.outcomeOn page with
    | .error text => .string text
    | _ => .null := by
  have hother : Page.renderFailure ≠ Page.documentReady := by decide
  have hother' : Page.renderFailure ≠ Page.renderSettled := by decide
  rw [Behavior.valueOf, if_neg hother, if_neg hother']
  exact if_pos rfl

/-- The page reports the failure that it has ended with, if that has any words. -/
theorem engineFailure?_eq_some_iff :
    engineFailure? (behavior.valueOf page Page.renderFailure) = some text ↔
      behavior.outcomeOn page = .error text ∧ text ≠ [] := by
  rw [valueOf_renderFailure]
  cases behavior.outcomeOn page with
  | complete => simp [engineFailure?, Json.isTruthy]
  | hang => simp [engineFailure?, Json.isTruthy]
  | error words =>
    by_cases hwords : words = []
    · subst hwords
      simp only [engineFailure?, Json.isTruthy, Outcome.error.injEq]
      simp
    · have htrue : words.isEmpty = false := by simpa using hwords
      simp only [engineFailure?, Json.isTruthy, htrue, Outcome.error.injEq]
      simp only [Bool.not_false, if_true, Option.some.injEq]
      exact ⟨fun h => ⟨h, h ▸ hwords⟩, And.left⟩

/-- A page fails on a needle that occurs on it, and on no other. -/
theorem outcomeOn_eq_error_iff (hneedle : behavior.failOn = some needle)
    (hcomplete : behavior.outcome = .complete) : behavior.outcomeOn page = .error text ↔
      needle <:+: page ∧ text = "Parse error near ".toList ++ needle := by
  rw [← Text.includes_iff]
  simp only [Behavior.outcomeOn, hneedle, hcomplete]
  cases Text.includes needle page <;> simp [eq_comm]

/-! ## The stages of a render -/

theorem lookedAt_eq (tab : backend.Tab) (expression : Text) (m : backend.State) (n : ℕ) :
    lookedAt tab expression m n = m := by
  induction n with
  | zero => rfl
  | succ n ih =>
    rw [lookedAt_succ, ih]
    rfl

/-- `waitUntil` for a dummy comes to its limit, or to the value that it waits for; and it does where
the value is there from the beginning. -/
theorem exists_waitUntil_eq (tab : backend.Tab) (expression : Text) (stage : WaitStage) (limit : Duration)
    (s : Session backend) : ∃ result t,
      waitUntil tab expression stage limit s = (result, t) ∧
      t.machine = s.machine ∧
      (result = .ok () ∨ result = .error (.timeout stage limit)) ∧
      ((s.machine.behavior.valueOf (s.machine.pageOn tab) expression).isTruthy = true →
        result = .ok ()) := by
  obtain ⟨last, result, time, hends, hwait⟩ :=
    Session.exists_waitUntil_eq tab expression stage limit s
  refine ⟨result, _, hwait, lookedAt_eq tab expression s.machine _, ?_, fun htrue => ?_⟩
  · cases hends with
    | failed _ _ hfailed => cases hfailed
    | granted => exact .inl rfl
    | cutOff => exact .inr rfl
    | lapsed => exact .inr rfl
  · have hgranted : (waitOf tab expression stage limit s.machine).Ends 0 (.ok ()) 0 :=
      .granted .first (Nat.zero_le _) rfl htrue
    exact (hgranted.unique hends).2.1

theorem exists_loadPage_eq (tab : backend.Tab) (page : Text) (limit : Duration) (s : Session backend) :
    ∃ t, loadPage tab page limit s = (.ok (), t) ∧
      t.machine = (backend.setContent tab page s.machine).2 := by
  have hshow : setContent tab page limit s = (.ok (), (ask (.setContent page)
      (backend.setContent tab page) (fun _ => .done) s).2) := if_pos (Nat.le_add_right _ _)
  obtain ⟨result, t, hwait, hmachine, -, hready⟩ := exists_waitUntil_eq tab Page.documentReady
    .pageLoad limit (ask (.setContent page) (backend.setContent tab page) (fun _ => .done) s).2
  obtain rfl := hready rfl
  exact ⟨t, (bind_of_ok hshow).trans hwait, hmachine⟩

theorem unreported_waitUntil (tab : backend.Tab) (expression : Text) (stage : WaitStage) (limit : Duration) :
    Unreported (waitUntil tab expression stage limit) := fun s text h => by
  obtain ⟨result, t, hwait, -, rfl | rfl, -⟩ := exists_waitUntil_eq tab expression stage limit s
  · rw [hwait] at h
    cases h
  · rw [hwait] at h
    cases h

/-- `photograph` comes to a failure that the page reports exactly if the script has ended with
it. -/
theorem photograph_reports_iff (tab : backend.Tab) (spec : RenderSpec) (timeouts : Timeouts)
    (s : Session backend) :
    (photograph tab spec timeouts s).1 = .error (.engine text) ↔
      s.machine.behavior.outcomeOn (s.machine.pageOn tab) = .error text ∧ text ≠ [] := by
  unfold photograph
  extract_lets selector capture
  have hcapture (u : Unit) : Unreported (capture u) := by
    refine .bind (unreported_waitUntil tab _ _ _) fun _ => ?_
    refine .bind (unreported_ask fun m text => nofun) fun element => ?_
    cases element with
    | none => exact fun s text => nofun
    | some element =>
      refine .bind (unreported_ask fun m text => nofun) fun box => ?_
      cases box with
      | none => exact fun s text => nofun
      | some box => exact unreported_ask fun m text => nofun
  obtain ⟨result, t, hwait, hmachine, hresult, hsettled⟩ :=
    exists_waitUntil_eq tab Page.renderSettled .render timeouts.render s
  rcases hresult with rfl | rfl
  · rw [bind_of_ok hwait]
    have heval : evaluate tab Page.renderFailure t =
        (.ok (t.machine.behavior.valueOf (t.machine.pageOn tab) Page.renderFailure), _) := rfl
    rw [bind_of_ok heval, hmachine, ← engineFailure?_eq_some_iff]
    cases engineFailure? (s.machine.behavior.valueOf (s.machine.pageOn tab) Page.renderFailure) with
    | some words =>
      show (Except.error _ = _) ↔ _
      simp
    | none => exact iff_of_false (hcapture () _ text) (by simp)
  · rw [bind_of_error hwait]
    refine iff_of_false (by simp) ?_
    -- a script that has ended with a failure has ended
    rintro ⟨hfailed, -⟩
    have hended := hsettled (by rw [valueOf_renderSettled, hfailed]; rfl)
    cases hended

/-- `renderOnTab` comes to a failure that the page reports exactly if the script ends with it on the
page for the source. -/
theorem renderOnTab_reports_iff {tab : backend.Tab} (hopened : s.machine.HasOpened tab)
    (source : Text) (spec : RenderSpec) (text : Text) :
    (renderOnTab tab source spec s).1 = .error (.engine text) ↔
      s.machine.behavior.outcomeOn (Page.shell source s.options.script) = .error text ∧
        text ≠ [] := by
  have hoptions : getOptions s = (.ok s.options, s) := rfl
  obtain ⟨t, hforward, hbehavior, hopened⟩ : ∃ t, forward tab s.options.verbose s = (.ok (), t) ∧
      t.machine.behavior = s.machine.behavior ∧ t.machine.HasOpened tab := by
    cases s.options.verbose with
    | true => exact ⟨_, rfl, rfl, hopened⟩
    | false => exact ⟨_, rfl, rfl, hopened⟩
  have hresize : resize tab spec t = (.ok (), (resize tab spec t).2) := rfl
  obtain ⟨u, hload, hmachine⟩ := exists_loadPage_eq tab (Page.shell source s.options.script)
    s.options.timeouts.pageLoad (resize tab spec t).2
  have hbehavior : u.machine.behavior = s.machine.behavior := by
    rw [hmachine]
    exact hbehavior
  have hpage : u.machine.pageOn tab = Page.shell source s.options.script := by
    rw [hmachine]
    exact State.HasOpened.pageOn_setContent (m := (resize tab spec t).2.machine) hopened _
  rw [renderOnTab_eq_stages, bind_of_ok hoptions, bind_of_ok hforward, bind_of_ok hresize,
    bind_of_ok hload, photograph_reports_iff, hbehavior, hpage]

/-! ## The whole render -/

/-- The session has a browser, or can start one. -/
def CanStart (s : Session backend) : Prop :=
  s.browser.isSome = true ∨ s.machine.behavior.launchError = none

theorem launch_of_none {m : State} (h : m.behavior.launchError = none) : backend.launch m =
    (.now (), m.count fun t => { t with launches := t.launches + 1 }) := by
  simp only [backend, h]

theorem launch_of_some {m : State} (h : m.behavior.launchError = some text) : backend.launch m =
    ({ result := .error (.launch text) }, m) := by
  simp only [backend, h]

theorem openTab_eq (browser : backend.Browser) (s : Session backend) : ∃ tab t,
    ask .openTab (backend.openTab browser) (fun _ => .done) s = (.ok tab, t) ∧
      t.machine.behavior = s.machine.behavior ∧ t.machine.HasOpened tab := by
  refine ⟨_, _, rfl, rfl, ?_⟩
  show s.machine.shown.length < (s.machine.shown ++ [[]]).length
  rw [List.length_append]
  exact Nat.lt_succ_self _

theorem freshTab_of_canStart (h : CanStart s) : ∃ tab t,
    freshTab s = (.ok tab, t) ∧
      t.machine.behavior = s.machine.behavior ∧ t.machine.HasOpened tab := by
  obtain ⟨browser, u, hacquire, hbehavior⟩ : ∃ browser u, acquire s = (.ok browser, u) ∧
      u.machine.behavior = s.machine.behavior := by
    cases hbrowser : s.browser with
    | some browser => exact ⟨browser, s, acquire_of_some hbrowser, rfl⟩
    | none =>
      have hlaunch : s.machine.behavior.launchError = none := by simpa [CanStart, hbrowser] using h
      have hask : ask .launch backend.launch (fun _ => .done) s =
          (.ok (), (ask .launch backend.launch (fun _ => .done) s).2) :=
        Prod.ext (congrArg (fun launched => launched.1.result) (launch_of_none hlaunch)) rfl
      refine ⟨(), _, (acquire_of_none hbrowser).trans (bind_of_ok hask), ?_⟩
      show (backend.launch s.machine).2.behavior = _
      rw [launch_of_none hlaunch]
      rfl
  obtain ⟨tab, t, hopen, hbehavior', hopened⟩ := openTab_eq browser u
  exact ⟨tab, t, (bind_of_ok hacquire).trans hopen, hbehavior'.trans hbehavior, hopened⟩

theorem freshTab_of_not_canStart (h : ¬ CanStart s) : ∃ cause t,
    freshTab s = (.error (.launch cause), t) := by
  obtain ⟨hbrowser, hlaunch⟩ : s.browser = none ∧ s.machine.behavior.launchError ≠ none := by
    simpa [CanStart] using h
  obtain ⟨cause, hcause⟩ := Option.ne_none_iff_exists'.1 hlaunch
  have hask : ask .launch backend.launch (fun _ => .done) s =
      (.error (.launch cause), (ask .launch backend.launch (fun _ => .done) s).2) :=
    Prod.ext (congrArg (fun launched => launched.1.result) (launch_of_some hcause)) rfl
  exact ⟨cause, _, bind_of_error ((acquire_of_none hbrowser).trans (bind_of_error hask))⟩

theorem options_of_freshTab {result : Except RenderError backend.Tab} {t : Session backend}
    (h : freshTab s = (result, t)) : t.options = s.options := by
  have hopens := opens_freshTab s
  rw [h] at hopens
  exact hopens.options

/-- **Which renders fail as their page reports**: those that get a tab, if the script of the page
ends with a failure that has any words. What else there is to a dummy makes no difference, and
neither do the limits. -/
theorem render_reports_iff (source : Text) (output : Path) (spec : RenderSpec)
    (s : Session backend) : (render source output spec s).1 = .error (.engine text) ↔
      CanStart s ∧
        s.machine.behavior.outcomeOn (Page.shell source s.options.script) = .error text ∧
        text ≠ [] := by
  by_cases hstart : CanStart s
  · obtain ⟨tab, t, hfresh, hbehavior, hopened⟩ := freshTab_of_canStart hstart
    cases hrun : renderOnTab tab source spec t with
    | mk rendered u =>
      obtain ⟨-, -, -, -, -, -, hfinishes⟩ := render_of_tab hfresh hrun output
      have hreports := renderOnTab_reports_iff hopened source spec text
      rw [hrun, hbehavior, options_of_freshTab hfresh] at hreports
      rw [Finishes.reports_iff hfinishes, hreports]
      exact (and_iff_right hstart).symm
  · obtain ⟨cause, t, hfresh⟩ := freshTab_of_not_canStart hstart
    rw [render_of_no_tab hfresh]
    exact iff_of_false (by simp) fun h => hstart h.1

/-! ## A text to fail on -/

/-- The render fails as its page reports. -/
def Reports (s : Session backend) (source : Text) (output : Path) (spec : RenderSpec) : Prop :=
  ∃ text, (render source output spec s).1 = .error (.engine text)

/-- The render `Reports` exactly if its diagram has the needle. -/
def FailsOnSource (s : Session backend) (source : Text) (output : Path) (spec : RenderSpec)
    (needle : Text) : Prop :=
  Reports s source output spec ↔ needle <:+: source

theorem render_fails_iff (hneedle : s.machine.behavior.failOn = some needle)
    (hcomplete : s.machine.behavior.outcome = .complete) (source : Text) (output : Path)
    (spec : RenderSpec) (text : Text) : (render source output spec s).1 = .error (.engine text) ↔
      CanStart s ∧ needle <:+: Page.shell source s.options.script ∧
        text = "Parse error near ".toList ++ needle := by
  rw [render_reports_iff, outcomeOn_eq_error_iff hneedle hcomplete]
  constructor
  · rintro ⟨hstart, hfailed, -⟩
    exact ⟨hstart, hfailed⟩
  · rintro ⟨hstart, hpage, rfl⟩
    exact ⟨hstart, ⟨hpage, rfl⟩, List.append_ne_nil_of_left_ne_nil (by decide) needle⟩

theorem reports_iff (hneedle : s.machine.behavior.failOn = some needle)
    (hcomplete : s.machine.behavior.outcome = .complete) (source : Text) (output : Path)
    (spec : RenderSpec) : Reports s source output spec ↔
      CanStart s ∧ needle <:+: Page.shell source s.options.script := by
  unfold Reports
  simp only [render_fails_iff hneedle hcomplete]
  constructor
  · rintro ⟨text, hstart, hpage, -⟩
    exact ⟨hstart, hpage⟩
  · rintro ⟨hstart, hpage⟩
    exact ⟨_, hstart, hpage, rfl⟩

/-- **A dummy fails on the page, not on the diagram.** The needle is looked for on the whole page,
and `render` fails with it exactly if it is there and there is a browser to show it. So the render
`FailsOnSource` only if that comes to the same. A word may also be in the address of the script, in
the frame of all pages or in an entity, and a text in one line that has a bracket or a quote is not
seen in the diagram at all. -/
theorem failsOnSource_iff (hneedle : s.machine.behavior.failOn = some needle)
    (hcomplete : s.machine.behavior.outcome = .complete) (source : Text) (output : Path)
    (spec : RenderSpec) :
    (∀ text, (render source output spec s).1 = .error (.engine text) ↔
      CanStart s ∧ needle <:+: Page.shell source s.options.script ∧
        text = "Parse error near ".toList ++ needle) ∧
    (FailsOnSource s source output spec needle ↔
      (CanStart s ∧ needle <:+: Page.shell source s.options.script ↔ needle <:+: source)) ∧
    (CanStart s → Page.IsWord needle → (Reports s source output spec ↔
      needle <:+: source ∨ needle <:+: s.options.script ∨ Page.InFrame needle ∨
        Page.InEntity needle source ∨ Page.InEntity needle s.options.script)) ∧
    (CanStart s → '\n' ∉ needle → ∀ c ∈ needle, c = '<' ∨ c = '>' ∨ c = '"' →
      (Reports s source output spec ↔
        needle <:+: Page.head ++ Page.escape s.options.script ++ Page.middle ∨
          needle <:+: Page.foot)) := by
  have hreports := reports_iff hneedle hcomplete source output spec
  refine ⟨render_fails_iff hneedle hcomplete source output spec, ?_, fun hstart hword => ?_,
    fun hstart hline c hmem hc => ?_⟩
  · rw [FailsOnSource, hreports]
  · rw [hreports, and_iff_right hstart, Page.infix_shell_iff_of_word hword]
  · rw [hreports, and_iff_right hstart, Page.infix_shell_iff_of_mark hline hmem hc]

/-- A new session with a dummy that is to fail on a text. -/
def failingOn (needle : Text) : Session backend where
  machine := { behavior := { failOn := some needle } }
  files := ⟨[], []⟩

/-- A word of the diagram fails its render, with the words that say so. -/
theorem render_of_broken :
    let s := failingOn "Broken".toList
    let source := "graph TD\nBroken".toList
    s.machine.behavior.failOn = some "Broken".toList ∧ s.machine.behavior.outcome = .complete ∧
      (render source "a.png".toList {} s).1 =
        .error (.engine "Parse error near Broken".toList) ∧
      FailsOnSource s source "a.png".toList {} "Broken".toList := by
  intro s source
  obtain ⟨hfails, -, hword, -⟩ :=
    failsOnSource_iff (s := s) rfl rfl source "a.png".toList {}
  have hstart : CanStart s := .inr rfl
  have hsource : "Broken".toList <:+: source := Text.includes_iff.1 (by decide)
  have hpage : "Broken".toList <:+: Page.shell source s.options.script :=
    (Page.infix_shell_iff_of_word (by decide)).2 (.inl hsource)
  have hreports : Reports s source "a.png".toList {} :=
    (hword hstart (by decide)).2 (.inl hsource)
  exact ⟨rfl, rfl, (hfails _).2 ⟨hstart, hpage, rfl⟩, iff_of_true hreports hsource⟩

/-- An arrow in the diagram is not seen, and a word that every page has is seen in any diagram. -/
theorem not_failsOnSource_of_arrow :
    ¬ FailsOnSource (failingOn "-->".toList) "A --> B".toList "a.png".toList {} "-->".toList ∧
      ¬ FailsOnSource (failingOn "mermaid".toList) "A".toList "a.png".toList {}
        "mermaid".toList := by
  constructor
  · intro h
    have hline : '\n' ∉ "-->".toList := by decide
    have hmark : '>' ∈ "-->".toList := by decide
    have habsent : ¬ "-->".toList <:+: Page.shell "A --> B".toList defaultScript := by
      rw [Page.infix_shell_iff_of_mark hline hmark (.inr (.inl rfl)), ← Text.includes_iff,
        ← Text.includes_iff]
      decide +kernel
    have hfails := h.2 (Text.includes_iff.1 (by decide))
    exact habsent ((reports_iff (s := failingOn "-->".toList) rfl rfl "A --> B".toList
      "a.png".toList {}).1 hfails).2
  · intro h
    have hpage : "mermaid".toList <:+: Page.shell "A".toList defaultScript :=
      (Page.infix_shell_iff_of_word (by decide)).2 (.inr (.inr (.inl Page.inFrame_mermaid)))
    have hfails := (reports_iff (s := failingOn "mermaid".toList) rfl rfl "A".toList
      "a.png".toList {}).2 ⟨.inr rfl, hpage⟩
    have habsent : ¬ "mermaid".toList <:+: "A".toList := by
      rw [← Text.includes_iff]
      decide
    exact habsent (h.1 hfails)

end Dummy
end MermaidPress
