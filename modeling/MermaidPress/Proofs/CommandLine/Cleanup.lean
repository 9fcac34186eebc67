/-
`CommandLine.run` cleans up. Its input, its configuration and its options are looked at in this
order, and the first of them that is wrong ends it before there is a session. From then on there is
one way out, through the shutdown of the session; so every browser that was launched has been
closed when the program ends, and only the conversion decides how it ends.
-/
import MermaidPress.Backend.Scripted
import MermaidPress.CommandLine.Program
import MermaidPress.Proofs.Convert.Parts
import MermaidPress.Proofs.Render.Lifetimes

namespace MermaidPress

open Interaction

variable {b : Backend}

/-! ## The books of a conversion -/

namespace Session

/-- Where the events so far are a `History`, they are one afterwards, with the browser that is held
then. -/
def KeepsHistory (s s' : Session b.numbered) : Prop :=
  History s.log { browser := s.heldBrowser } → History s'.log { browser := s'.heldBrowser }

theorem within_keepsHistory_render (source : Text) (output : Path) (spec : RenderSpec) :
    Within (KeepsHistory (b := b)) (render source output spec) := fun s h => by
  obtain ⟨events, hlog, hperforms⟩ := run_outcome (.render source output spec) s
  have hlog : (render source output spec s).2.log = s.log ++ events := hlog
  rw [hlog]
  exact h.performs hperforms

theorem keptByParts_keepsHistory : Conversion.KeptByParts (KeepsHistory (b := b)) where
  refl _ := id
  trans h h' := h' ∘ h
  files _ _ := id
  render := within_keepsHistory_render

/-- A session that is shut down has closed all its browsers. -/
theorem history_shutdown {s : Session b.numbered} (h : History s.log { browser := s.heldBrowser }) :
    History s.shutdown.2.log {} := by
  obtain ⟨events, hlog, hperforms⟩ := run_outcome .shutdown s
  have hlog : s.shutdown.2.log = s.log ++ events := hlog
  have hheld : s.shutdown.2.heldBrowser = none := by
    have := isLaunched_shutdown s
    rwa [isLaunched_eq, Option.isSome_eq_false_iff, Option.isNone_iff_eq_none] at this
  have hperforms : SessionCall.shutdown.Performs s.log.length s.heldBrowser events none :=
    hheld ▸ hperforms
  rw [hlog]
  exact h.performs hperforms

theorem files_shutdown (s : Session b) : s.shutdown.2.files = s.files := by
  cases hbrowser : s.browser with
  | none => rw [shutdown_of_none hbrowser]
  | some browser =>
    rw [shutdown_of_some hbrowser]
    rfl

end Session

namespace CommandLine

/-! ## Getting ready -/

section Preparing

variable {fs : FileSystem} {env : Environment} {input : Path} {a : Arguments}

/-- The steps before a conversion. The input is checked first, then the configuration is loaded,
then the options are made; the first step that fails gives the failure. -/
inductive Prepares (fs : FileSystem) (env : Environment) (input : Path) (a : Arguments) :
    Except Failure Job → Prop
  | badInput {failure} : checkInput fs input = .error failure →
      Prepares fs env input a (.error failure)
  | badConfig {cause} : checkInput fs input = .ok () →
      Config.load fs env a.config a.overrides = .error cause →
      Prepares fs env input a (.error (.config cause))
  | badOptions {config failure} : checkInput fs input = .ok () →
      Config.load fs env a.config a.overrides = .ok config →
      conversionOptions fs config a = .error failure → Prepares fs env input a (.error failure)
  | ready {config options} : checkInput fs input = .ok () →
      Config.load fs env a.config a.overrides = .ok config →
      conversionOptions fs config a = .ok options →
      Prepares fs env input a (.ok {
        input, options
        session := config.sessionOptions a.verbose
        browser := browserPath fs env a })

theorem prepares (fs : FileSystem) (env : Environment) (input : Path) (a : Arguments) :
    Prepares fs env input a (prepare fs env input a) := by
  unfold prepare
  cases hinput : checkInput fs input with
  | error failure => exact .badInput hinput
  | ok u =>
    cases hconfig : Config.load fs env a.config a.overrides with
    | error cause => exact .badConfig hinput hconfig
    | ok config =>
      cases hoptions : conversionOptions fs config a with
      | error failure =>
        simp only [Except.mapError, bind, Except.bind, hoptions]
        exact .badOptions hinput hconfig hoptions
      | ok options =>
        simp only [Except.mapError, bind, Except.bind, hoptions]
        exact .ready hinput hconfig hoptions

end Preparing

/-! ## A conversion from beginning to end -/

/-- The session that `Job.run` begins with. -/
def Job.start (job : Job) (fs : FileSystem) (machine : b.State) : Session b where
  options := job.session
  machine := machine
  files := fs

/-- What is said about a conversion in the end. -/
def Job.lastLines (job : Job) : Except ConvertError ConversionResult → List Line
  | .ok converted => report converted job.options
  | .error cause => [failureLine (.conversion cause)]

/-- A conversion goes to its shutdown in every case, and its result is what is reported. -/
theorem Job.run_eq (job : Job) (fs : FileSystem) (machine : b.State) :
    let (result, used) := Conversion.convertFile job.input job.options (job.start fs machine)
    job.run fs machine = {
      lines := openingLine :: job.lastLines result
      failed := !result.isOk
      files := used.files
      machine := used.shutdown.2.machine
      calls := used.shutdown.2.trace } := by
  cases hrun : Conversion.convertFile job.input job.options (job.start fs machine) with
  | mk result used =>
    unfold Job.start at hrun
    unfold Job.run
    dsimp only
    rw [hrun, ← Session.files_shutdown used]
    cases result with
    | ok converted => rfl
    | error cause => rfl

/-- What `run` leaves, without the numbers of the browsers and tabs. -/
def Finish.forget {σ : Type} (finish : Finish (Logged σ)) : Finish σ :=
  { finish with machine := finish.machine.machine }

theorem Job.forget_run (job : Job) (fs : FileSystem) (machine : Logged b.State) :
    (job.run (b := b.numbered) fs machine).forget = job.run (b := b) fs machine.machine := by
  have hconvert := Conversion.mirrors_convertFile (b := b) job.input job.options
    (job.start (b := b.numbered) fs machine)
  have hlogged := job.run_eq (b := b.numbered) fs machine
  have hplain := job.run_eq (b := b) fs machine.machine
  have hstart : (job.start (b := b.numbered) fs machine).forget = job.start fs machine.machine := rfl
  rw [hstart] at hconvert
  rw [hconvert] at hplain
  cases hrun : Conversion.convertFile job.input job.options
      (job.start (b := b.numbered) fs machine) with
  | mk result used =>
    rw [hrun, Except.map_id] at hplain
    rw [hrun] at hlogged
    dsimp only [id_eq] at hplain hlogged
    have hshutdown := congrArg Prod.snd (Session.mirrors_shutdown used)
    rw [hplain, hlogged, hshutdown]
    rfl

theorem Job.history_run (job : Job) (fs : FileSystem) (machine : b.State) :
    History (job.run (b := b.numbered) fs { machine }).machine.log {} := by
  have hconvert := Session.keptByParts_keepsHistory.convertFile job.input job.options
    (job.start (b := b.numbered) fs { machine }) .start
  have hrun := job.run_eq (b := b.numbered) fs { machine }
  rw [hrun]
  exact Session.history_shutdown hconvert

section Run

variable {machine : Option Path → b.State} {fs : FileSystem} {env : Environment} {input : Path}
  {a : Arguments}

theorem run_of_error {failure : Failure} (h : prepare fs env input a = .error failure) :
    run (b := b) machine fs env input a = {
      lines := [failureLine failure]
      failed := true
      files := fs
      machine := machine (browserPath fs env a) } := by
  rw [run, h]

theorem run_of_ok {job : Job} (h : prepare fs env input a = .ok job) :
    run (b := b) machine fs env input a = job.run fs (machine job.browser) := by
  rw [run, h]

end Run

/-- **`run` cleans up**, with any arguments, files, environment and browser. The first step that
fails before the conversion decides the failure; then no call was made and no file was changed.
Otherwise every browser that was launched has been closed once when the program ends. How it ends is
decided by the conversion alone, however the shutdown went: it fails where the conversion did, and
says why. The numbers that browsers are told apart by change nothing else. -/
theorem run_cleans_up (machine : Option Path → b.State) (fs : FileSystem) (env : Environment)
    (input : Path) (a : Arguments) :
    let finish := run (b := b) machine fs env input a
    let numbered :=
      run (b := b.numbered) (fun browser => { machine := machine browser }) fs env input a
    let events := numbered.machine.log
    numbered.forget = finish ∧
      Prepares fs env input a (prepare fs env input a) ∧
      match prepare fs env input a with
      | .error failure =>
        finish = {
          lines := [failureLine failure]
          failed := true
          files := fs
          machine := machine (browserPath fs env a) } ∧
        events = []
      | .ok job =>
        (∀ n, events.count (.browserClosed n) = events.count (.launched n) ∧
          events.count (.launched n) ≤ 1) ∧
        let (result, used) := Conversion.convertFile job.input job.options
          (job.start fs (machine job.browser))
        finish.failed = !result.isOk ∧ finish.lines = openingLine :: job.lastLines result ∧
          finish.files = used.files ∧ finish.calls = used.shutdown.2.trace := by
  intro finish numbered events
  have hprepares := prepares fs env input a
  cases hprepare : prepare fs env input a with
  | error failure =>
    have hfinish : finish = _ := run_of_error hprepare
    have hnumbered : numbered = _ := run_of_error hprepare
    refine ⟨?_, hprepare ▸ hprepares, hfinish, ?_⟩
    · rw [hfinish, hnumbered]
      rfl
    · show numbered.machine.log = []
      rw [hnumbered]
  | ok job =>
    have hfinish : finish = _ := run_of_ok hprepare
    have hnumbered : numbered = _ := run_of_ok hprepare
    have hhistory : History events {} := by
      show History numbered.machine.log {}
      rw [hnumbered]
      exact job.history_run fs (machine job.browser)
    refine ⟨?_, hprepare ▸ hprepares, fun n => ⟨?_, hhistory.count_launched_le_one n⟩, ?_⟩
    · rw [hfinish, hnumbered]
      exact job.forget_run fs _
    · have hbalance := hhistory.count_launched n
      simpa using hbalance.symm
    · have hrun := job.run_eq fs (machine job.browser)
      rw [hfinish, hrun]
      exact ⟨rfl, rfl, rfl, rfl⟩

/-- A browser that cannot be closed is told to, and the document is converted all the same. -/
example :
    let files : FileSystem := {
      current := "/w".toList
      nodes := [(["w".toList], .directory),
        (["w".toList, "a.md".toList], .file "```mermaid\nA\n```".toUTF8)] }
    let script : Scripted.Script := { browsers := [{ close := { failure := some [] } }] }
    let finish := run (b := Scripted.backend.numbered) (fun _ => { machine := { script } }) files
      (fun _ => none) "a.md".toList {}
    finish.failed = false ∧ finish.machine.log =
      [.launched 0, .tabOpened 0 1] ++ List.replicate 9 (.tabUsed 1) ++
        [.tabClosed 1, .browserClosed 0] := by
  decide +kernel

end CommandLine
end MermaidPress
