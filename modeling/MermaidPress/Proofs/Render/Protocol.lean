/-
The protocol of a render, as a table. In each phase a render asks its tab one thing, and the
answer says in which phase it goes on; a failure, or the limit of a wait, ends it. The program of
a render is a nest of such waits and calls, each of which may end the whole; that its calls are a
run through the table is what this file shows, for any browser side. All loops are in one
lemma, `leads_poll`; the rest follows the program from phase to phase.

A run through the table makes its calls in one order, so the calls of a render are the first ones
of that order, and the closing of the tab comes after them, once.
-/
import MermaidPress.Proofs.Render.Frame

namespace MermaidPress

variable {b : Backend} {α β : Type}

/-- How far `renderOnTab` has come. -/
inductive Phase (b : Backend)
  | forwarding
  | sizing
  | loading
  /-- Waits for the page to be loaded; the next two waits are for the script and for the image. -/
  | readying
  | settling
  | reporting
  | processing
  | finding
  | measuring (element : b.Element)
  | capturing (box : Box)
  | ended (result : Except RenderError ByteArray)

/-- What is asked in a phase: the call, how the browser side answers it, what is learnt from an
answer, and where that leads. A wait has a limit. -/
structure Question (b : Backend) where
  Value : Type
  call : Call
  run : b.State → Reply Value × b.State
  learn : Value → Answer
  next : Value → Phase b
  limit? : Option (WaitStage × Duration) := none

/-- A look at the page, which is repeated until the expression counts as true. -/
def Question.look (tab : b.Tab) (expression : Text) (again onward : Phase b) (stage : WaitStage)
    (limit : Duration) : Question b where
  Value := Json
  call := .evaluate expression
  run := b.evaluate tab expression
  learn := .value
  next value := if value.isTruthy then onward else again
  limit? := some (stage, limit)

/-- The failure of a page in words: a text as it is, any other value in JSON. -/
def failureText : Json → Text
  | .string text => text
  | value => value.write

/-- A render, with its tab. -/
structure TabRender (b : Backend) where
  tab : b.Tab
  options : SessionOptions
  source : Text
  spec : RenderSpec

namespace TabRender

variable (r : TabRender b)

/-- The size that the page is given. -/
def viewport : Viewport := { width := 2400, height := 1600, scale := r.spec.scale }

/-- The picture that is asked for: the box of the diagram with ten pixels more on each side, and
the quality for a format that loses detail. -/
def picture (box : Box) : CaptureRequest where
  clip := {
    x := box.x - 10.0
    y := box.y - 10.0
    width := box.width + 2.0 * 10.0
    height := box.height + 2.0 * 10.0 }
  format := r.spec.format
  quality := match r.spec.format with
    | .jpeg => some r.spec.quality
    | .png => none

/-- The protocol: what is asked in each phase, and where each answer leads. -/
def question? : Phase b → Option (Question b)
  | .forwarding => some {
      Value := Unit
      call := .forwardDiagnostics
      run := b.forwardDiagnostics r.tab
      learn := fun _ => .done
      next := fun _ => .sizing }
  | .sizing => some {
      Value := Unit
      call := .setViewport r.viewport
      run := b.setViewport r.tab r.viewport
      learn := fun _ => .done
      next := fun _ => .loading }
  | .loading => some {
      Value := Unit
      call := .setContent (Page.shell r.source r.options.script)
      run := b.setContent r.tab (Page.shell r.source r.options.script)
      learn := fun _ => .done
      next := fun _ => .readying
      limit? := some (.pageLoad, r.options.timeouts.pageLoad) }
  | .readying => some <|
      .look r.tab Page.documentReady .readying .settling .pageLoad r.options.timeouts.pageLoad
  | .settling => some <|
      .look r.tab Page.renderSettled .settling .reporting .render r.options.timeouts.render
  | .reporting => some {
      Value := Json
      call := .evaluate Page.renderFailure
      run := b.evaluate r.tab Page.renderFailure
      learn := .value
      next := fun value =>
        if value.isTruthy then .ended (.error (.engine (failureText value))) else .processing }
  | .processing => some <|
      .look r.tab Page.diagramProcessed .processing .finding .settle r.options.timeouts.settle
  | .finding => some {
      Value := Option b.Element
      call := .findElement Page.diagramSelector
      run := b.findElement r.tab Page.diagramSelector
      learn := fun element => .found element.isSome
      next := fun
        | some element => .measuring element
        | none => .ended (.error .elementNotFound) }
  | .measuring element => some {
      Value := Option Box
      call := .boundingBox
      run := b.boundingBox r.tab element
      learn := fun box => .found box.isSome
      next := fun
        | some box => .capturing box
        | none => .ended (.error .dimensions) }
  | .capturing box => some {
      Value := ByteArray
      call := .capture (r.picture box)
      run := b.capture r.tab (r.picture box)
      learn := fun _ => .done
      next := fun image => .ended (.ok image) }
  | .ended _ => none

/-- The phase that a render begins in. -/
def first : Phase b := if r.options.verbose then .forwarding else .sizing

/-- One call of the protocol, made in a phase with the machine in one state: its entry, and the
phase and the state that it leads to. -/
inductive Moves : Phase b → b.State → Entry → Phase b → b.State → Prop
  | answered {phase question m value madeAt overAt} :
      r.question? phase = some question → (question.run m).1.result = .ok value →
      Moves phase m ⟨question.call, question.learn value, madeAt, overAt⟩ (question.next value)
        (question.run m).2
  | failed {phase question m e madeAt overAt} :
      r.question? phase = some question → (question.run m).1.result = .error e →
      Moves phase m ⟨question.call, .failed e, madeAt, overAt⟩ (.ended (.error e))
        (question.run m).2
  /-- The limit of a wait comes before the answer. -/
  | cutOff {phase question m stage limit madeAt overAt} :
      r.question? phase = some question → question.limit? = some (stage, limit) →
      Moves phase m ⟨question.call, .cutOff, madeAt, overAt⟩ (.ended (.error (.timeout stage limit)))
        (question.run m).2
  /-- The answer leads to another look, and the limit of the wait comes before that. -/
  | lapsed {phase question m value stage limit madeAt overAt} :
      r.question? phase = some question → question.limit? = some (stage, limit) →
      (question.run m).1.result = .ok value → question.next value = phase →
      Moves phase m ⟨question.call, question.learn value, madeAt, overAt⟩
        (.ended (.error (.timeout stage limit))) (question.run m).2

/-- A run through the protocol, with the entries of its calls. -/
inductive Follows : Phase b → b.State → List Entry → Phase b → b.State → Prop
  | nil {phase m} : Follows phase m [] phase m
  | cons {phase phase' phase'' m m' m'' entry entries} :
      r.Moves phase m entry phase' m' → Follows phase' m' entries phase'' m'' →
      Follows phase m (entry :: entries) phase'' m''

variable {r}

theorem Follows.single {phase phase' : Phase b} {m m' : b.State} {entry : Entry}
    (h : r.Moves phase m entry phase' m') : r.Follows phase m [entry] phase' m' := .cons h .nil

theorem Follows.append {phase phase' phase'' : Phase b} {m m' m'' : b.State}
    {entries entries' : List Entry} (h : r.Follows phase m entries phase' m')
    (h' : r.Follows phase' m' entries' phase'' m'') :
    r.Follows phase m (entries ++ entries') phase'' m'' := by
  induction h with
  | nil => exact h'
  | cons hmove _ ih => exact .cons hmove (ih h')

end TabRender

/-! ## Programs that follow the protocol -/

/-- Where the result of some work leads: a failure ends the render. -/
def Phase.after (next : α → Phase b) : Except RenderError α → Phase b
  | .ok a => next a
  | .error e => .ended (.error e)

theorem Phase.after_ended (result : Except RenderError ByteArray) :
    Phase.after (fun image => .ended (.ok image)) result = (.ended result : Phase b) := by
  cases result <;> rfl

namespace TabRender

variable {r : TabRender b} {phase : Phase b}

open Session

/-- Work that is begun in a phase makes the calls of the protocol from there on, and ends where its
result leads. -/
def Leads (r : TabRender b) (phase : Phase b) (work : Rendering b α) (next : α → Phase b) : Prop :=
  ∀ s, ∃ calls, (work s).2.trace = s.trace ++ calls ∧
    r.Follows phase s.machine calls (.after next (work s).1) (work s).2.machine

theorem Leads.bind {work : Rendering b α} {next : α → Phase b} {rest : α → Rendering b β}
    {last : β → Phase b} (h : r.Leads phase work next)
    (hrest : ∀ a, r.Leads (next a) (rest a) last) : r.Leads phase (work >>= rest) last := fun s => by
  obtain ⟨calls, htrace, hcalls⟩ := h s
  cases hwork : work s with
  | mk result t =>
    rw [hwork] at htrace hcalls
    cases result with
    | ok a =>
      obtain ⟨calls', htrace', hcalls'⟩ := hrest a t
      rw [Interaction.bind_of_ok hwork]
      refine ⟨calls ++ calls', ?_, hcalls.append hcalls'⟩
      rw [htrace', htrace, List.append_assoc]
    | error e =>
      rw [Interaction.bind_of_error hwork]
      exact ⟨calls, htrace, hcalls⟩

theorem Leads.withOptions {program : SessionOptions → Rendering b α} {next : α → Phase b}
    {s : Session b} (h : r.Leads phase (program s.options) next) : ∃ calls,
      ((getOptions >>= program) s).2.trace = s.trace ++ calls ∧
        r.Follows phase s.machine calls (.after next ((getOptions >>= program) s).1)
          ((getOptions >>= program) s).2.machine := h s

theorem leads_failed (e : RenderError) (next : α → Phase b) :
    r.Leads (.ended (.error e)) (settled (.error e)) next := fun _ =>
  ⟨[], (List.append_nil _).symm, .nil⟩

theorem leads_ask (phase : Phase b) {question : Question b}
    (h : r.question? phase = some question) :
    r.Leads phase (ask question.call question.run question.learn) question.next := fun s => by
  refine ⟨_, rfl, .single ?_⟩
  unfold ask
  dsimp only
  cases hresult : (question.run s.machine).1.result with
  | ok value => exact .answered h hresult
  | error e => exact .failed h hresult

theorem leads_askUntil (phase : Phase b) {question : Question b} {stage : WaitStage}
    {limit : Duration} (h : r.question? phase = some question) (hlimit : question.limit? = some (stage, limit))
    (deadline : Nat) :
    r.Leads phase
      (askUntil deadline (.timeout stage limit) question.call question.run question.learn)
      question.next := fun s => by
  unfold askUntil
  dsimp only
  split
  · exact leads_ask phase h s
  · exact ⟨_, rfl, .single (.cutOff h hlimit)⟩

theorem leads_evaluateUntil {expression : Text} {onward : Phase b} {stage : WaitStage}
    {limit : Duration}
    (h : r.question? phase = some (.look r.tab expression phase onward stage limit))
    (deadline : Nat) :
    r.Leads phase (evaluateUntil deadline (.timeout stage limit) r.tab expression)
      (Question.look r.tab expression phase onward stage limit).next :=
  leads_askUntil phase h rfl deadline

theorem evaluateUntil_eq_ok {deadline : Nat} {expired : RenderError} {tab : b.Tab}
    {expression : Text} {s s' : Session b} {value : Json}
    (h : evaluateUntil deadline expired tab expression s = (.ok value, s')) :
    (b.evaluate tab expression s.machine).1.result = .ok value ∧ ∃ overAt,
      s' = s.record (.evaluate expression) (.value value) overAt
        (b.evaluate tab expression s.machine).2 := by
  unfold evaluateUntil askUntil at h
  dsimp only at h
  split at h
  · unfold ask at h
    obtain ⟨hresult, rfl⟩ := Prod.mk.inj h
    refine ⟨hresult, s.clock + (b.evaluate tab expression s.machine).1.delay.nanoseconds, ?_⟩
    simp only [hresult]
  · cases h

/-- `poll` looks at the page until the expression counts as true, and not once more. -/
theorem leads_poll {expression : Text} {onward : Phase b} {stage : WaitStage} {limit : Duration}
    (h : r.question? phase = some (.look r.tab expression phase onward stage limit))
    (deadline : Nat) :
    r.Leads phase (poll deadline (.timeout stage limit) r.tab expression) fun _ => onward :=
  fun s => by
  have htrue {value : Json} (hvalue : value.isTruthy = true) :
      (Question.look r.tab expression phase onward stage limit).next value = onward := if_pos hvalue
  have hfalse {value : Json} (hvalue : ¬ value.isTruthy = true) :
      (Question.look r.tab expression phase onward stage limit).next value = phase := if_neg hvalue
  fun_induction Session.poll deadline (.timeout stage limit) r.tab expression s with
  | case1 s e s' heval =>
    have hlook := leads_evaluateUntil h deadline s
    rw [heval] at hlook
    exact hlook
  | case2 s value s' heval hvalue =>
    obtain ⟨hresult, overAt, rfl⟩ := evaluateUntil_eq_ok heval
    exact ⟨_, rfl, .single (htrue hvalue ▸ .answered h hresult)⟩
  | case3 s value s' heval hvalue hbefore ih =>
    obtain ⟨hresult, overAt, rfl⟩ := evaluateUntil_eq_ok heval
    obtain ⟨calls, htrace, hcalls⟩ := ih
    let entry : Entry :=
      { call := .evaluate expression, answer := .value value, madeAt := s.clock, overAt }
    have hmove : r.Moves phase s.machine entry
        ((Question.look r.tab expression phase onward stage limit).next value)
        (b.evaluate r.tab expression s.machine).2 := .answered h hresult
    rw [hfalse hvalue] at hmove
    refine ⟨entry :: calls, ?_, .cons hmove hcalls⟩
    rw [htrace]
    exact List.append_assoc _ _ _
  | case4 s value s' heval hvalue hbefore =>
    obtain ⟨hresult, overAt, rfl⟩ := evaluateUntil_eq_ok heval
    exact ⟨_, rfl, .single (.lapsed h rfl hresult (hfalse hvalue))⟩

theorem leads_waitUntil {expression : Text} {onward : Phase b} {stage : WaitStage}
    {limit : Duration}
    (h : r.question? phase = some (.look r.tab expression phase onward stage limit)) :
    r.Leads phase (waitUntil r.tab expression stage limit) fun _ => onward := fun s =>
  leads_poll h _ s

theorem leads_setContent (r : TabRender b) :
    r.Leads .loading
      (setContent r.tab (Page.shell r.source r.options.script) r.options.timeouts.pageLoad)
      fun _ => .readying := fun s =>
  leads_askUntil .loading rfl rfl _ s

theorem picture_eq (r : TabRender b) (box : Box) : r.picture box =
    { clip := box.expand clipMargin, format := r.spec.format,
      quality := r.spec.effectiveQuality } := by
  unfold picture RenderSpec.effectiveQuality
  cases r.spec.format <;> rfl

theorem engineFailure?_eq (value : Json) :
    engineFailure? value = if value.isTruthy then some (failureText value) else none := by
  unfold engineFailure?
  cases value <;> rfl

/-- **`renderOnTab` follows the protocol**, up to a picture or to a failure. -/
theorem follows_renderOnTab (tab : b.Tab) (source : Text) (spec : RenderSpec) (s : Session b) :
    let r : TabRender b := { tab, options := s.options, source, spec }
    ∃ calls, (renderOnTab tab source spec s).2.trace = s.trace ++ calls ∧
      r.Follows r.first s.machine calls (.ended (renderOnTab tab source spec s).1)
        (renderOnTab tab source spec s).2.machine := by
  intro r
  rw [← Phase.after_ended (b := b)]
  unfold renderOnTab
  refine Leads.withOptions (r := r) ?_
  extract_lets timeouts viewport selector capture load
  have hcapture (u : Unit) : r.Leads .processing (capture u) fun image => .ended (.ok image) := by
    refine .bind (leads_waitUntil rfl) fun _ => ?_
    refine .bind (leads_ask .finding rfl) fun element => ?_
    cases element with
    | none => exact leads_failed _ _
    | some element =>
      refine .bind (leads_ask (.measuring element) rfl) fun box => ?_
      cases box with
      | none => exact leads_failed _ _
      | some box =>
        have hpicture := leads_ask (r := r) (.capturing box) rfl
        rw [picture_eq] at hpicture
        exact hpicture
  have hload (u : Unit) : r.Leads .sizing (load u) fun image => .ended (.ok image) := by
    refine .bind (leads_ask .sizing rfl) fun _ => ?_
    refine .bind (leads_setContent r) fun _ => ?_
    refine .bind (leads_waitUntil rfl) fun _ => ?_
    refine .bind (leads_waitUntil rfl) fun _ => ?_
    refine .bind (leads_ask .reporting rfl) fun failure => ?_
    dsimp only
    rw [engineFailure?_eq]
    cases failure.isTruthy with
    | true => exact .bind (leads_failed _ _) hcapture
    | false => exact hcapture ()
  unfold first
  cases s.options.verbose with
  | true => exact .bind (leads_ask .forwarding rfl) hload
  | false => exact hload ()

end TabRender

/-! ## The order of the calls -/

/-- How often a render that comes to its end looks at the page again in each of its waits, and the
picture it takes. -/
structure Course where
  ready : Nat
  settled : Nat
  processed : Nat
  picture : CaptureRequest

/-- The place of a phase among the ones of a render. -/
def Phase.place : Phase b → Nat
  | forwarding => 0
  | sizing => 1
  | loading => 2
  | readying => 3
  | settling => 4
  | reporting => 5
  | processing => 6
  | finding => 7
  | measuring _ => 8
  | capturing _ => 9
  | ended _ => 10

namespace TabRender

/-- The calls of the phases, in their order. -/
def stages (r : TabRender b) (course : Course) : List (List Call) := [
  [.forwardDiagnostics],
  [.setViewport r.viewport],
  [.setContent (Page.shell r.source r.options.script)],
  List.replicate (course.ready + 1) (.evaluate Page.documentReady),
  List.replicate (course.settled + 1) (.evaluate Page.renderSettled),
  [.evaluate Page.renderFailure],
  List.replicate (course.processed + 1) (.evaluate Page.diagramProcessed),
  [.findElement Page.diagramSelector],
  [.boundingBox],
  [.capture course.picture]]

/-- The calls from a phase on, of a render with this `Course`. -/
def callsFrom (r : TabRender b) (course : Course) (phase : Phase b) : List Call :=
  ((r.stages course).drop phase.place).flatten

/-- The order of the calls on a tab, for a render that comes to its end. -/
def order (r : TabRender b) (course : Course) : List Call :=
  (if r.options.verbose then [.forwardDiagnostics] else []) ++
    [.setViewport r.viewport, .setContent (Page.shell r.source r.options.script)] ++
    List.replicate (course.ready + 1) (.evaluate Page.documentReady) ++
    List.replicate (course.settled + 1) (.evaluate Page.renderSettled) ++
    [.evaluate Page.renderFailure] ++
    List.replicate (course.processed + 1) (.evaluate Page.diagramProcessed) ++
    [.findElement Page.diagramSelector, .boundingBox, .capture course.picture]

variable {r : TabRender b} {phase phase' : Phase b}

theorem callsFrom_first (course : Course) : r.callsFrom course r.first = r.order course := by
  unfold callsFrom first order stages
  cases r.options.verbose <;> simp [Phase.place]

/-- The call of a phase comes first of those from there on, for any render that fails at it. -/
theorem exists_call_prefix {question : Question b} (h : r.question? phase = some question)
    (course : Course) : ∃ course', [question.call] <+: r.callsFrom course' phase := by
  cases phase with
  | capturing box =>
    obtain rfl := Option.some.inj h
    exact ⟨{ course with picture := r.picture box }, by simp [callsFrom, stages, Phase.place]⟩
  | ended result => cases h
  | _ =>
    obtain rfl := Option.some.inj h
    exact ⟨course, by simp [callsFrom, stages, Phase.place, Question.look, List.replicate_succ]⟩

theorem exists_look_prefix {expression : Text} {onward : Phase b} {stage : WaitStage}
    {limit : Duration} {course : Course} (once again : Course)
    (honce : .evaluate expression :: r.callsFrom course onward <+: r.callsFrom once phase)
    (hagain : .evaluate expression :: r.callsFrom course phase <+: r.callsFrom again phase)
    (value : Json) : ∃ course', .evaluate expression :: r.callsFrom course
        ((Question.look r.tab expression phase onward stage limit).next value) <+:
      r.callsFrom course' phase := by
  cases hvalue : value.isTruthy with
  | true => exact ⟨once, by simpa [Question.look, hvalue] using honce⟩
  | false => exact ⟨again, by simpa [Question.look, hvalue] using hagain⟩

/-- An answer leads to the calls that come next, or to the same ones once more. -/
theorem exists_answered_prefix {question : Question b} (h : r.question? phase = some question)
    (value : question.Value) (course : Course) : ∃ course',
      question.call :: r.callsFrom course (question.next value) <+: r.callsFrom course' phase := by
  cases phase with
  | readying =>
    obtain rfl := Option.some.inj h
    exact exists_look_prefix { course with ready := 0 } { course with ready := course.ready + 1 }
      (by simp [callsFrom, stages, Phase.place])
      (by simp [callsFrom, stages, Phase.place, List.replicate_succ]) value
  | settling =>
    obtain rfl := Option.some.inj h
    exact exists_look_prefix { course with settled := 0 }
      { course with settled := course.settled + 1 }
      (by simp [callsFrom, stages, Phase.place])
      (by simp [callsFrom, stages, Phase.place, List.replicate_succ]) value
  | processing =>
    obtain rfl := Option.some.inj h
    exact exists_look_prefix { course with processed := 0 }
      { course with processed := course.processed + 1 }
      (by simp [callsFrom, stages, Phase.place])
      (by simp [callsFrom, stages, Phase.place, List.replicate_succ]) value
  | reporting =>
    obtain rfl := Option.some.inj h
    refine ⟨course, ?_⟩
    cases hvalue : value.isTruthy <;>
      simp [hvalue, callsFrom, stages, Phase.place]
  | finding =>
    obtain rfl := Option.some.inj h
    refine ⟨course, ?_⟩
    cases value <;> simp [callsFrom, stages, Phase.place]
  | measuring element =>
    obtain rfl := Option.some.inj h
    refine ⟨course, ?_⟩
    cases value <;> simp [callsFrom, stages, Phase.place]
  | capturing box =>
    obtain rfl := Option.some.inj h
    refine ⟨{ course with picture := r.picture box }, ?_⟩
    simp [callsFrom, stages, Phase.place]
  | ended result => cases h
  | _ =>
    obtain rfl := Option.some.inj h
    exact ⟨course, by simp [callsFrom, stages, Phase.place]⟩

theorem Moves.exists_prefix {m m' : b.State} {entry : Entry}
    (h : r.Moves phase m entry phase' m') (course : Course) :
    ∃ course', entry.call :: r.callsFrom course phase' <+: r.callsFrom course' phase := by
  cases h with
  | answered hquestion hresult => exact exists_answered_prefix hquestion _ course
  | failed hquestion => exact exists_call_prefix hquestion course
  | cutOff hquestion => exact exists_call_prefix hquestion course
  | lapsed hquestion => exact exists_call_prefix hquestion course

/-- A run makes the calls from its phase on, in the order of `callsFrom`, and may end before all are
made. -/
theorem Follows.exists_prefix {m m' : b.State} {entries : List Entry}
    (h : r.Follows phase m entries phase' m') :
    ∃ course, entries.map Entry.call <+: r.callsFrom course phase := by
  induction h with
  | nil => exact ⟨⟨0, 0, 0, r.picture ⟨0, 0, 0, 0⟩⟩, List.nil_prefix⟩
  | cons hmove _ ih =>
    obtain ⟨course, hcalls⟩ := ih
    obtain ⟨course', hstarts⟩ := hmove.exists_prefix course
    exact ⟨course', ((List.prefix_cons_inj _).2 hcalls).trans hstarts⟩

end TabRender

end MermaidPress
