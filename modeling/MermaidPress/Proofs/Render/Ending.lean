/-
How a `render` ends. It gets a tab, follows its protocol there and closes the tab however that
went; two results are at hand then, that of the protocol and that of the closing, and each may be a
failure. The first one counts before the second, and only where both are none is the picture
written. So a render either has written one picture whole or has changed no file.
-/
import MermaidPress.Proofs.Render.Protocol

namespace MermaidPress

namespace Session

open Interaction

variable {b : Backend} {s t : Session b}

/-! ## A new tab -/

/-- A new tab, in the browser that `acquire` gets. -/
def freshTab : Rendering b b.Tab := do
  let browser ← acquire
  ask .openTab (b.openTab browser) fun _ => .done

/-- From one session to the other there are no calls but those that get a tab. -/
structure Opens (s t : Session b) : Prop where
  options : t.options = s.options
  files : t.files = s.files
  trace : ∃ opening, t.trace = s.trace ++ opening ∧
    ∀ entry ∈ opening, entry.call = .launch ∨ entry.call = .openTab

theorem frame_opens :
    Frame (fun call _ _ => call = .launch ∨ call = .openTab) (Opens (b := b)) where
  refl _ := ⟨rfl, rfl, [], (List.append_nil _).symm, by simp⟩
  trans := by
    rintro s t u ⟨hoptions, hfiles, opening, htrace, hcalls⟩
      ⟨hoptions', hfiles', opening', htrace', hcalls'⟩
    refine ⟨hoptions'.trans hoptions, hfiles'.trans hfiles, opening ++ opening', ?_, ?_⟩
    · rw [htrace', htrace, List.append_assoc]
    · exact List.forall_mem_append.2 ⟨hcalls, hcalls'⟩
  call _ _ _ _ _ hcall := ⟨rfl, rfl, [_], rfl, by simpa using hcall⟩
  pause _ _ := ⟨rfl, rfl, [], (List.append_nil _).symm, by simp⟩

theorem opens_freshTab : Within (Opens (b := b)) freshTab :=
  .bind frame_opens.trans
    (frame_opens.acquire (fun _ => .inl rfl) fun _ _ => ⟨rfl, rfl, [], (List.append_nil _).symm, by simp⟩)
    fun _ => frame_opens.ask (fun _ => .inr rfl) _

/-! ## The end of a render -/

theorem exists_entry_ask {α : Type} (call : Call) (run : b.State → Reply α × b.State)
    (learn : α → Answer) (s : Session b) :
    ∃ entry, (ask call run learn s).2.trace = s.trace ++ [entry] ∧ entry.call = call :=
  ⟨_, rfl, rfl⟩

/-- What `render` does when the tab is closed: the first failure counts, and without one the picture
is written. -/
def finish (output : Path) (rendered : Except RenderError ByteArray)
    (closed : Except RenderError Unit) : Rendering b Unit := do
  let image ← settled rendered
  settled closed
  writeImage output image

theorem exists_files_finish (output : Path) (rendered : Except RenderError ByteArray)
    (closed : Except RenderError Unit) (s : Session b) :
    ∃ files, (finish output rendered closed s).2 = { s with files } := by
  cases rendered with
  | error e => exact ⟨s.files, rfl⟩
  | ok image =>
    cases closed with
    | error e => exact ⟨s.files, rfl⟩
    | ok u =>
      show ∃ files, (writeImage output image s).2 = { s with files }
      unfold writeImage
      split
      · exact ⟨_, rfl⟩
      · exact ⟨s.files, rfl⟩

/-- What `finish` comes to: its result, and the files before and after. -/
inductive Finishes (output : Path) : Except RenderError ByteArray → Except RenderError Unit →
    FileSystem → Except RenderError Unit → FileSystem → Prop
  | notRendered (e : RenderError) (closed : Except RenderError Unit) (files : FileSystem) :
      Finishes output (.error e) closed files (.error e) files
  | notClosed (image : ByteArray) (e : RenderError) (files : FileSystem) :
      Finishes output (.ok image) (.error e) files (.error e) files
  | notWritten {image : ByteArray} {files : FileSystem} {cause : FileSystem.Error}
      (h : files.writeBytes output image = .error cause) :
      Finishes output (.ok image) (.ok ()) files (.error (.unwritable output cause)) files
  | written {image : ByteArray} {files files' : FileSystem}
      (h : files.writeBytes output image = .ok files') :
      Finishes output (.ok image) (.ok ()) files (.ok ()) files'

/-- `finish` writes the picture whole or changes no file, and its failure is the first one. -/
theorem finishes (output : Path) (rendered : Except RenderError ByteArray)
    (closed : Except RenderError Unit) (s : Session b) :
    Finishes output rendered closed s.files (finish output rendered closed s).1
      (finish output rendered closed s).2.files := by
  cases rendered with
  | error e => exact .notRendered e closed s.files
  | ok image =>
    cases closed with
    | error e => exact .notClosed image e s.files
    | ok u =>
      have hwriting : finish output (.ok image) (.ok u) s = writeImage output image s := rfl
      unfold writeImage at hwriting
      rw [hwriting]
      cases hwrite : s.files.writeBytes output image with
      | error cause => exact .notWritten hwrite
      | ok files => exact .written hwrite

theorem render_eq_freshTab (source : Text) (output : Path) (spec : RenderSpec) :
    (render source output spec : Rendering b Unit) = (do
      let tab ← freshTab
      let rendered ← attempt (renderOnTab tab source spec)
      let closed ← attempt (ask .closeTab (b.closeTab tab) fun _ => .done)
      finish output rendered closed) := by
  unfold freshTab
  rw [bind_assoc]
  rfl

theorem render_of_no_tab {e : RenderError} (h : freshTab s = (.error e, t)) (source : Text)
    (output : Path) (spec : RenderSpec) : render source output spec s = (.error e, t) := by
  rw [render_eq_freshTab]
  exact bind_of_error h

/-- A `render` on its tab: the calls of the protocol, and then one that closes the tab; the end
follows from how both went. -/
theorem render_of_tab {tab : b.Tab} {source : Text} {spec : RenderSpec}
    {rendered : Except RenderError ByteArray} {u : Session b} (hfresh : freshTab s = (.ok tab, t))
    (hrun : renderOnTab tab source spec t = (rendered, u)) (output : Path) :
    let r : TabRender b := { tab, options := s.options, source, spec }
    ∃ calls closing,
      (render source output spec s).2.trace = t.trace ++ calls ++ [closing] ∧
        closing.call = .closeTab ∧
        (render source output spec s).2.machine = (b.closeTab tab u.machine).2 ∧
        r.Follows r.first t.machine calls (.ended rendered) u.machine ∧
        Finishes output rendered (b.closeTab tab u.machine).1.result s.files
          (render source output spec s).1 (render source output spec s).2.files := by
  intro r
  have hopens : Opens s t := by
    have := opens_freshTab s
    rwa [hfresh] at this
  obtain ⟨calls, htrace, hcalls⟩ := TabRender.follows_renderOnTab tab source spec t
  have hfiles := files_renderOnTab tab source spec t
  rw [hopens.options, hrun] at hcalls
  rw [hrun] at htrace hfiles
  let close : Rendering b Unit := ask .closeTab (b.closeTab tab) fun _ => .done
  obtain ⟨closing, hclosing, hcall⟩ :
      ∃ closing, (close u).2.trace = u.trace ++ [closing] ∧ closing.call = .closeTab :=
    exists_entry_ask _ _ _ _
  have hrender : render source output spec s =
      finish output rendered (b.closeTab tab u.machine).1.result (close u).2 := by
    rw [render_eq_freshTab, bind_of_ok hfresh]
    have hattempt : attempt (renderOnTab tab source spec) t = (.ok rendered, u) := by
      unfold attempt
      rw [hrun]
    exact bind_of_ok hattempt
  have hfinishes := finishes output rendered (b.closeTab tab u.machine).1.result (close u).2
  obtain ⟨files, hend⟩ :=
    exists_files_finish output rendered (b.closeTab tab u.machine).1.result (close u).2
  have hsame : (close u).2.files = s.files := hfiles.trans hopens.files
  rw [hsame, ← hrender] at hfinishes
  rw [← hrender] at hend
  refine ⟨calls, closing, ?_, hcall, ?_, hcalls, hfinishes⟩
  · rw [hend, ← htrace]
    exact hclosing
  · rw [hend]
    rfl

/-- A render of the source takes this picture, on its `freshTab`. -/
def Captures (s : Session b) (source : Text) (spec : RenderSpec) (image : ByteArray) : Prop :=
  ∃ tab t, freshTab s = (.ok tab, t) ∧ (renderOnTab tab source spec t).1 = .ok image

/-- A `render` that succeeds has written what it captured. -/
theorem render_eq_ok {source : Text} {output : Path} {spec : RenderSpec} {v : Unit}
    (h : render source output spec s = (.ok v, t)) :
    ∃ image, Captures s source spec image ∧ s.files.writeBytes output image = .ok t.files := by
  cases hfresh : freshTab s with
  | mk result t' =>
    cases result with
    | error e =>
      rw [render_of_no_tab hfresh] at h
      cases h
    | ok tab =>
      cases hrun : renderOnTab tab source spec t' with
      | mk rendered u =>
        obtain ⟨_, _, -, -, -, -, hfinishes⟩ := render_of_tab hfresh hrun output
        rw [h] at hfinishes
        generalize (b.closeTab tab u.machine).1.result = closed at hfinishes
        cases hfinishes with
        | @written image _ _ hwrite =>
          exact ⟨image, ⟨tab, t', hfresh, congrArg Prod.fst hrun⟩, hwrite⟩

theorem files_of_render_eq_error {source : Text} {output : Path} {spec : RenderSpec} {e : RenderError}
    (h : render source output spec s = (.error e, t)) : t.files = s.files := by
  have hopens := opens_freshTab s
  cases hfresh : freshTab s with
  | mk result t' =>
    rw [hfresh] at hopens
    cases result with
    | error e =>
      rw [render_of_no_tab hfresh] at h
      exact (Prod.mk.inj h).2 ▸ hopens.files
    | ok tab =>
      cases hrun : renderOnTab tab source spec t' with
      | mk rendered u =>
        obtain ⟨_, _, -, -, -, -, hfinishes⟩ := render_of_tab hfresh hrun output
        rw [h] at hfinishes
        generalize (b.closeTab tab u.machine).1.result = closed at hfinishes
        generalize t.files = files at hfinishes
        cases hfinishes <;> rfl

/-- **The calls of a `render`.** First come those that get a tab. On the tab the render `Follows`
its protocol: its calls there are the first ones in the order of the protocol, each look that does
not count as true is followed by another one or ends the render, and so does every failure. The last
call closes the tab, and a failure on the tab is that of the render. -/
theorem render_follows_protocol (source : Text) (output : Path) (spec : RenderSpec)
    (s : Session b) : ∃ opening : List Entry,
      (∀ entry ∈ opening, entry.call = .launch ∨ entry.call = .openTab) ∧
        match freshTab s with
        | (.error e, t) =>
          render source output spec s = (.error e, t) ∧ t.trace = s.trace ++ opening
        | (.ok tab, t) =>
          let r : TabRender b := { tab, options := s.options, source, spec }
          ∃ calls closing rendered machine,
            (render source output spec s).2.trace = s.trace ++ opening ++ calls ++ [closing] ∧
              r.Follows r.first t.machine calls (.ended rendered) machine ∧
              (∃ course, calls.map Entry.call <+: r.order course) ∧
              closing.call = .closeTab ∧
              (render source output spec s).2.machine = (b.closeTab tab machine).2 ∧
              ∀ e, rendered = .error e → (render source output spec s).1 = .error e := by
  obtain ⟨-, -, opening, htrace, hopening⟩ := opens_freshTab s
  refine ⟨opening, hopening, ?_⟩
  cases hfresh : freshTab s with
  | mk result t =>
    rw [hfresh] at htrace
    cases result with
    | error e => exact ⟨render_of_no_tab hfresh source output spec, htrace⟩
    | ok tab =>
      cases hrun : renderOnTab tab source spec t with
      | mk rendered u =>
        obtain ⟨calls, closing, hend, hclosing, hmachine, hcalls, hfinishes⟩ :=
          render_of_tab hfresh hrun output
        obtain ⟨course, hcourse⟩ := hcalls.exists_prefix
        rw [TabRender.callsFrom_first] at hcourse
        refine ⟨calls, closing, rendered, u.machine, ?_, hcalls, ⟨course, hcourse⟩, hclosing,
          hmachine, ?_⟩
        · rw [← htrace]
          exact hend
        · rintro e rfl
          generalize (render source output spec s).1 = result at hfinishes ⊢
          generalize (render source output spec s).2.files = files at hfinishes
          cases hfinishes
          rfl

/-- **`render` writes its picture whole or changes no file.** -/
theorem render_writes_whole_or_nothing (source : Text) (output : Path) (spec : RenderSpec)
    (s : Session b) :
    let (result, s') := render source output spec s
    match freshTab s with
    | (.error e, _) => result = .error e ∧ s'.files = s.files
    | (.ok tab, t) =>
      let r : TabRender b := { tab, options := s.options, source, spec }
      ∃ calls closing rendered machine,
        s'.trace = t.trace ++ calls ++ [closing] ∧ closing.call = .closeTab ∧
          r.Follows r.first t.machine calls (.ended rendered) machine ∧
          match rendered, (b.closeTab tab machine).1.result with
          | .error e, _ => result = .error e ∧ s'.files = s.files
          | .ok _, .error e => result = .error e ∧ s'.files = s.files
          | .ok image, .ok () =>
            match s.files.writeBytes output image with
            | .error cause => result = .error (.unwritable output cause) ∧ s'.files = s.files
            | .ok files => result = .ok () ∧ s'.files = files ∧ files.readBytes output = .ok image ∧
              ∃ location, s.files.LeadsTo output location ∧
                ∀ other, other ≠ location → files.find? other = s.files.find? other := by
  cases hfresh : freshTab s with
  | mk result t =>
    have hopens := opens_freshTab s
    rw [hfresh] at hopens
    cases result with
    | error e =>
      rw [render_of_no_tab hfresh]
      exact ⟨rfl, hopens.files⟩
    | ok tab =>
      cases hrun : renderOnTab tab source spec t with
      | mk rendered u =>
        obtain ⟨calls, closing, hend, hclosing, -, hcalls, hfinishes⟩ :=
          render_of_tab hfresh hrun output
        generalize render source output spec s = outcome at hend hfinishes ⊢
        obtain ⟨result, s'⟩ := outcome
        refine ⟨calls, closing, rendered, u.machine, hend, hclosing, hcalls, ?_⟩
        generalize (b.closeTab tab u.machine).1.result = closed at hfinishes
        dsimp only at hfinishes ⊢
        generalize s'.files = after at hfinishes ⊢
        cases hfinishes with
        | notRendered e => exact ⟨rfl, rfl⟩
        | notClosed image e => exact ⟨rfl, rfl⟩
        | notWritten hwrite =>
          dsimp only
          rw [hwrite]
          exact ⟨rfl, rfl⟩
        | written hwrite =>
          obtain ⟨location, hleads, -, hput⟩ := FileSystem.writeBytes_eq_ok hwrite
          dsimp only
          rw [hwrite]
          refine ⟨rfl, rfl, FileSystem.readBytes_of_writeBytes hwrite, location, hleads,
            fun other hother => ?_⟩
          rw [hput, FileSystem.find?_put_other s.files hother]

end Session
end MermaidPress
