/-
# The still frame

While no run is running the canvas shows a still frame, and it is the first frame of a new run of
the text in the editor with the assets of the library.

The frame is recorded on the very run that was started and stopped before, so it takes that a setup
begins anew (`Run.setup_anew`) and has a result (`Run.exists_setup`).  It is not recorded while a
run is running, although the text and the assets may change then.  What carries the proof is that
every deed either leaves alone what the frame depends on, or records it, or leaves a run that is
running; and that a run which goes too far is ended as if it had been stopped.
-/
import StageScript.Proofs.Run.Anew
import StageScript.Proofs.Run.Rest
import StageScript.Proofs.Workbench.Deeds

namespace StageScript

/-! ## 1. Settings and assets -/

/-- The scene has these settings and these assets. -/
def Scene.Uses (config : RunConfig) (assets : Library) (s : Scene) : Prop :=
  s.config = config ∧ s.assets = assets

theorem Scene.upheld_uses (config : RunConfig) (assets : Library) :
    Upheld (Uses config assets) where
  perform s line a hs :=
    ⟨(s.perform_frame line a).config.trans hs.1, (s.perform_frame line a).assets.trans hs.2⟩
  listen _ _ hs := hs
  timers _ _ hs := hs
  reset _ _ hs := hs
  inSetup _ _ hs := hs
  aged _ hs := hs
  drawn _ hs := hs
  point _ _ _ hs := hs
  keys _ _ hs := hs
  sounds _ hs := hs

namespace Run

variable {r r' : Run}

theorem isRunning_stop (r : Run) : r.stop.isRunning = false := by
  rw [← Bool.not_eq_true, isRunning_iff]
  exact r.stop_not_running

theorem phase_of_setup (h : r.setup = .ok r') : r'.phase = .running := by
  obtain ⟨r₁, hrun, rfl⟩ := exists_of_setup h
  exact phase_of_carryOut hrun

theorem phase_of_step {dt : Duration} (h : (r.advance dt >>= update) = .ok r') :
    r'.phase = r.phase := by
  cases hadvance : r.advance dt with
  | error o => simp [hadvance, bind, Except.bind] at h
  | ok r₁ =>
    rw [hadvance] at h
    exact (phase_of_update h).trans (phase_of_advance hadvance)

end Run

namespace Workbench

variable {config : RunConfig} {b : Workbench}

/-- The run has the settings, and the assets of the library; and the still frame is recorded with
every picture. -/
structure Consistent (config : RunConfig) (b : Workbench) : Prop where
  uses : b.run.stage.scene.Uses config b.library
  pending : b.preview.pending = []

/-! ## 2. Recording the still frame -/

/-- The still frame is what a new run of the present text, with the assets of the library, paints
first.  Without a seed its numbers are those of some setup. -/
def IsStill (config : RunConfig) (b : Workbench) : Prop :=
  ∃ k r, (Run.fresh (Script.ofText b.source) config b.library k).setup = .ok r
    ∧ b.preview = DrawList.empty.paintAll (r.draw DrawList.empty.ready).1

/-- The workbench is consistent, and while no run is running it has the still frame of its text and
its assets. -/
structure Presents (config : RunConfig) (b : Workbench) : Prop extends Consistent config b where
  still : b.run.isRunning = false → IsStill config b

theorem paintAll_pending (l : DrawList) (ps : List Paint) :
    (l.paintAll ps).pending = l.pending := by
  induction ps generalizing l with
  | nil => rfl
  | cons p ps ih => exact ih (l.paint p)

/-- What a preview of a run records, and the run behind it. -/
theorem previewed_eq {r r' : Run} (h : r.setup = .ok r') (list : DrawList) :
    previewed r list = (list.paintAll (r'.draw list.ready).1, (r'.draw list.ready).2.stop) := by
  rw [previewed, Run.preview_eq, h]
  rfl

/-- No run is running behind a preview. -/
theorem previewed_stopped (r : Run) (list : DrawList) :
    (previewed r list).2.isRunning = false := by
  unfold previewed
  split
  · rename_i paints r' h
    rw [Run.preview_eq] at h
    obtain ⟨r₁, -, heq⟩ := exists_of_map_eq_ok h
    obtain ⟨-, rfl⟩ := Prod.mk.inj heq
    exact Run.isRunning_stop _
  · exact Run.isRunning_stop _

theorem refreshPreview_of_stopped (h : b.run.isRunning = false) :
    b.refreshPreview
      = let x := previewed (b.run.load (Script.ofText b.source)) b.preview.clear
        { b with preview := x.1, run := x.2.takeDiagnostics.2.takeSounds.2 } := by
  unfold refreshPreview
  rw [if_neg (by simp [h])]

theorem refreshPreview_of_running (h : b.run.isRunning = true) : b.refreshPreview = b := if_pos h

theorem isRunning_refreshPreview (b : Workbench) :
    b.refreshPreview.run.isRunning = b.run.isRunning := by
  cases hrunning : b.run.isRunning with
  | true => rw [refreshPreview_of_running hrunning, hrunning]
  | false =>
    have hstopped := previewed_stopped (b.run.load (Script.ofText b.source)) b.preview.clear
    rw [refreshPreview_of_stopped hrunning]
    generalize previewed (b.run.load (Script.ofText b.source)) b.preview.clear = x at hstopped ⊢
    exact hstopped

theorem isRunning_stop (b : Workbench) : b.stop.run.isRunning = false := by
  unfold stop
  rw [isRunning_refreshPreview]
  exact b.run.isRunning_stop

theorem isRunning_new (entropy : Nat → Generator) (settings : Settings) (files : Files) :
    (new entropy settings files).run.isRunning = false := by
  unfold new
  rw [isRunning_refreshPreview]
  rfl

theorem source_refreshPreview (b : Workbench) : b.refreshPreview.source = b.source := by
  cases hrunning : b.run.isRunning with
  | true => rw [refreshPreview_of_running hrunning]
  | false => rw [refreshPreview_of_stopped hrunning, source, source]

theorem source_stop (b : Workbench) : b.stop.source = b.source := by
  unfold stop
  rw [source_refreshPreview]
  rfl

theorem source_edit (b : Workbench) (text : String) : (b.edit text).source = text := by
  unfold edit
  rw [source_refreshPreview]
  exact Editor.text_ofText text

theorem Consistent.uses_load (h : Consistent config b) (script : Script) :
    (b.run.load script).stage.scene.Uses config b.library :=
  (Scene.upheld_uses config b.library).of_stop h.uses

/-- The run that was there takes the text and is set up, and so is a new run beside it that counts
its setups alike.  Both have a result, and but for what waited they are twins. -/
theorem Consistent.exists_setup (h : Consistent config b) :
    ∃ n r f, (b.run.load (Script.ofText b.source)).setup = .ok r
      ∧ (Run.fresh (Script.ofText b.source) config b.library b.run.generation).setup = .ok f
      ∧ Run.Twins n b.run.waiting r f := by
  have huses := h.uses_load (Script.ofText b.source)
  have hscript : (b.run.load (Script.ofText b.source)).script = Script.ofText b.source := rfl
  have hwaiting : (b.run.load (Script.ofText b.source)).waiting = b.run.waiting :=
    b.run.waiting_stop
  have hgeneration : (b.run.load (Script.ofText b.source)).generation = b.run.generation :=
    b.run.generation_stop
  generalize b.run.load (Script.ofText b.source) = r at huses hscript hwaiting hgeneration ⊢
  have hanew : r.anew r.generation
      = Run.fresh (Script.ofText b.source) config b.library b.run.generation := by
    rw [Run.anew, huses.1, huses.2, hscript, hgeneration]
  obtain ⟨r', hsetup, -⟩ := r.exists_setup
  have htwins := Run.setup_anew (r := r) (k := r.generation) fun _ => rfl
  rw [hsetup, hanew, hwaiting] at htwins
  obtain ⟨f, hf, htwin⟩ := htwins.exists_of_ok
  exact ⟨_, r', f, hsetup, hf, htwin⟩

/-- **A recorded frame is the still frame.** -/
theorem Consistent.refreshPreview (h : Consistent config b) :
    Presents config b.refreshPreview := by
  cases hrunning : b.run.isRunning with
  | true =>
    rw [refreshPreview_of_running hrunning]
    exact ⟨h, fun hstopped => absurd hrunning (by simp [hstopped])⟩
  | false =>
    rw [refreshPreview_of_stopped hrunning]
    obtain ⟨n, r, f, hr, hf, htwin⟩ := h.exists_setup
    have hclear : b.preview.clear = DrawList.empty := by
      rw [DrawList.clear, h.pending]
      rfl
    have hload := h.uses_load (Script.ofText b.source)
    have hupheld := Scene.upheld_uses config b.library
    have hended : (r.draw DrawList.empty.ready).2.stop.stage.scene.Uses config b.library :=
      hupheld.of_stop (hupheld.of_draw _ (hupheld.of_setup hr hload))
    rw [hclear, previewed_eq hr, (htwin.draw _).1]
    generalize (r.draw DrawList.empty.ready).2.stop = ended at hended ⊢
    exact ⟨⟨hended, paintAll_pending _ _⟩, fun _ => ⟨_, f, hf, rfl⟩⟩

/-! ## 3. Deeds -/

theorem Presents.drain (h : Presents config b) : Presents config b.drain := by
  rw [drain_eq]
  exact ⟨⟨h.uses, h.pending⟩, h.still⟩

theorem Consistent.stop (h : Consistent config b) : Presents config b.stop := by
  have huses : b.run.stop.stage.scene.Uses config b.library :=
    (Scene.upheld_uses config b.library).of_stop h.uses
  have hstopped : Consistent config ({ b with run := b.run.stop } : Workbench).drain := by
    rw [drain_eq]
    exact ⟨huses, h.pending⟩
  exact hstopped.refreshPreview

theorem Consistent.reload (h : Consistent config b) :
    Presents config b.reloadAssets.refreshPreview := by
  have hreloaded : Consistent config b.reloadAssets := ⟨⟨h.uses.1, rfl⟩, h.pending⟩
  exact hreloaded.refreshPreview

/-- A run that is started is running. -/
theorem isRunning_start (b : Workbench) : b.start.run.isRunning = true := by
  obtain ⟨r, hr, hstart⟩ := b.start_eq
  rw [hstart]
  exact r.isRunning_iff.mpr (Run.phase_of_setup hr)

namespace Presents

/-- The run goes on behind a call in the phase that it was in; and a call that goes too far ends
it. -/
theorem guard (h : Presents config b) (what : String) {x : Except Overflow Run}
    (hleft : Scene.Upheld.Left (Scene.Uses config b.library) x)
    (hphase : ∀ r, x = .ok r → r.phase = b.run.phase) : Presents config (b.guard what x) := by
  cases x with
  | ok r =>
    have hsame : r.isRunning = b.run.isRunning := congrArg (· == .running) (hphase r rfl)
    exact ⟨⟨hleft, h.pending⟩, fun hstopped => h.still (hsame.symm.trans hstopped)⟩
  | error o =>
    let ended : Workbench :=
      { b with
        run := { b.run with stage := o.stage }
        console := b.console
          ++ [Diagnostic.plain .error ("Runtime failure during " ++ what ++ "; run stopped")] }
    have hended : Consistent config ended := ⟨hleft, h.pending⟩
    exact hended.stop

theorem start (h : Presents config b) : Presents config b.start := by
  have hrunning := b.isRunning_start
  obtain ⟨r, hr, hstart⟩ := b.start_eq
  have huses : r.stage.scene.Uses config b.library :=
    (Scene.upheld_uses config b.library).of_setup hr (h.uses_load (Script.ofText b.source))
  refine ⟨?_, fun hstopped => absurd hrunning (by simp [hstopped])⟩
  rw [hstart, drain_eq]
  exact ⟨huses, h.pending⟩

theorem tick (h : Presents config b) : Presents config b.tick := by
  unfold Workbench.tick
  split
  · have hupheld := Scene.upheld_uses config b.library
    have hticked : Presents config { b with lastTick := b.now } :=
      ⟨⟨h.uses, h.pending⟩, h.still⟩
    exact (hticked.guard "update"
      ((hupheld.left_advance _ h.uses).bind fun r hr => hupheld.left_update hr)
      fun r hr => Run.phase_of_step hr).drain
  · exact h

theorem click (h : Presents config b) (x y : Float) : Presents config (b.click x y) := by
  unfold Workbench.click
  split
  · exact (h.guard "click" ((Scene.upheld_uses config b.library).left_dispatch _ h.uses)
      fun _ hr => Run.phase_of_dispatch hr).drain
  · exact h

theorem key (h : Presents config b) (name : String) (down : Bool) :
    Presents config (b.key name down) := by
  obtain ⟨r, hr, hkey⟩ := b.key_eq name down
  have huses : r.stage.scene.Uses config b.library :=
    (Scene.upheld_uses config b.library).of_dispatch hr h.uses
  have hsame : r.isRunning = b.run.isRunning := congrArg (· == .running) (Run.phase_of_dispatch hr)
  rw [hkey]
  cases b.hearsKey name down with
  | true => exact ⟨⟨huses, h.pending⟩, fun hstopped => h.still (hsame.symm.trans hstopped)⟩
  | false => exact ⟨⟨h.uses, h.pending⟩, h.still⟩

theorem paint (h : Presents config b) : Presents config b.paintCanvas.2 := by
  unfold paintCanvas
  split
  · refine ⟨⟨(Scene.upheld_uses config b.library).of_draw _ h.uses, h.pending⟩, fun hstopped => ?_⟩
    have hphase := b.run.phase_draw b.textures.isReady
    exact h.still ((congrArg (· == .running) hphase).symm.trans hstopped)
  · exact h

/-- The editor may be in another state, as long as its text is the same. -/
theorem editor (h : Presents config b) {e : Editor} (he : e.text = b.editor.text) :
    Presents config { b with editor := e } := by
  refine ⟨⟨h.uses, h.pending⟩, fun hstopped => ?_⟩
  obtain ⟨k, r, hr, hpreview⟩ := h.still hstopped
  have hsource : ({ b with editor := e } : Workbench).source = b.source := he
  exact ⟨k, r, hsource ▸ hr, hpreview⟩

theorem changed (h : Presents config b) (e : Editor) :
    Presents config ({ b with editor := e } : Workbench).refreshPreview := by
  have hedited : Consistent config { b with editor := e } := ⟨h.uses, h.pending⟩
  exact hedited.refreshPreview

/-- What a key does in the editor either counts as a change, and the frame is recorded again, or
leaves the text alone. -/
theorem typeKey (h : Presents config b) (kit : Toolkit) (name : String) :
    Presents config (b.typeKey kit name) := by
  have htext : (kit.type name b.editor).2 = false →
      (kit.type name b.editor).1.text = b.editor.text := kit.text_type
  unfold Workbench.typeKey
  generalize kit.type name b.editor = typed at htext ⊢
  obtain ⟨e, changed⟩ := typed
  cases changed with
  | true => exact h.changed e
  | false => exact h.editor (htext rfl)

theorem act (h : Presents config b) (c : Control) : Presents config (b.act c) := by
  cases c with
  | startStop =>
    simp only [Workbench.act]
    split
    · exact h.toConsistent.stop
    · exact h.start
  | reload => exact h.toConsistent.reload
  | editor => exact h
  | canvas => exact h
  | clearConsole => exact ⟨⟨h.uses, h.pending⟩, h.still⟩
  | save =>
    rw [Workbench.act, save_eq]
    exact ⟨⟨h.uses, h.pending⟩, h.still⟩
  | tab t => exact ⟨⟨h.uses, h.pending⟩, h.still⟩

/-- **Whatever happens, the still frame is the one to show.** -/
theorem does (h : Presents config b) (kit : Toolkit) (d : Deed) :
    Presents config (b.does kit d) := by
  cases d with
  | settle => exact ⟨⟨h.uses, h.pending⟩, h.still⟩
  | focus f => exact ⟨⟨h.uses, h.pending⟩, h.still⟩
  | key name down => exact h.key name down
  | tick => exact h.tick
  | touch => exact h.editor (kit.text_touch b.editor)
  | edit text => exact h.changed _
  | type name => exact h.typeKey kit name
  | press c => exact h.act c
  | paint => exact h.paint
  | click x y => exact h.click x y
  | wait time => exact ⟨⟨h.uses, h.pending⟩, h.still⟩
  | files files => exact ⟨⟨h.uses, h.pending⟩, h.still⟩

end Presents

/-! ## 4. Sessions -/

variable (entropy : Nat → Generator)

theorem presents_new (settings : Settings) (files : Files) :
    Presents (runConfig entropy settings) (new entropy settings files) :=
  Consistent.reload ⟨⟨rfl, rfl⟩, rfl⟩

theorem presents_session (kit : Toolkit) (settings : Settings) (files : Files)
    (es : List Episode) :
    Presents (runConfig entropy settings) ((new entropy settings files).session kit es) := by
  rw [session_eq_doAll]
  exact of_doAll kit (fun _ d h => h.does kit d) (presents_new entropy settings files) _

/-- With a seed every new run has the same first frame. -/
theorem IsStill.of_seed {seed : UInt64} (h : IsStill config b) (hseed : config.seed = some seed) :
    ∃ r, ((Run.new (Script.ofText b.source) config).setAssets b.library).setup = .ok r
      ∧ b.preview = DrawList.empty.paintAll (r.draw DrawList.empty.ready).1 := by
  obtain ⟨k, r, hr, hpreview⟩ := h
  have hfresh : (Run.fresh (Script.ofText b.source) config b.library k).anew 0
      = (Run.new (Script.ofText b.source) config).setAssets b.library := rfl
  have hgenerators := Run.generators_anew
    (r := Run.fresh (Script.ofText b.source) config b.library k) hseed 0
  have htwins := Run.setup_anew fun n => congrFun hgenerators (n + 1)
  rw [hr, hfresh] at htwins
  obtain ⟨f, hf, htwin⟩ := htwins.exists_of_ok
  exact ⟨f, hf, hpreview.trans (congrArg _ (htwin.draw _).1)⟩

/-- **Whenever no run is running, the canvas shows what a new run would paint first.**  Take any
toolkit, any settings with a seed, any folder and any session.  If no run is running behind it, the
recording on the canvas is that of a new run of the text that is in the editor by then, with the
assets that are in the library by then: of its setup, which has a result, and the drawing behind
it. -/
theorem preview_is_first_frame (kit : Toolkit) (settings : Settings) (seed : UInt64) (files : Files)
    (es : List Episode) :
    let b := (new entropy { settings with seed := some seed } files).session kit es
    b.run.isRunning = false →
      ∃ r, ((Run.new (Script.ofText b.source)
          { RunConfig.standard entropy with seed := some seed }).setAssets b.library).setup = .ok r
        ∧ b.preview = DrawList.empty.paintAll (r.draw DrawList.empty.ready).1 := by
  intro b hstopped
  have hpresents := presents_session entropy kit { settings with seed := some seed } files es
  exact (hpresents.still hstopped).of_seed rfl

/-- A run is started, its text is replaced while it is running, and it is stopped. -/
def editedRun : List Episode :=
  [.deed (.press .startStop), .deed (.edit "make background red"), .deed (.press .startStop)]

theorem session_editedRun (kit : Toolkit) (hstopped : b.run.isRunning = false) :
    b.session kit editedRun = (b.start.edit "make background red").stop := by
  have hedited : (b.start.edit "make background red").run.isRunning = true :=
    (isRunning_refreshPreview _).trans b.isRunning_start
  simp only [session, editedRun, List.foldl_cons, List.foldl_nil, after, does,
    act_of_stopped hstopped]
  exact act_of_running hedited

theorem preview_is_first_frame_editedRun :
    ∃ b r, b = (new (fun _ => .ofSeed 0) { Settings.standard with seed := some 7 } .empty).session
        .standard editedRun
      ∧ b.run.isRunning = false
      ∧ ((Run.new (Script.ofText "make background red")
          { RunConfig.standard (fun _ => .ofSeed 0) with seed := some 7 }).setAssets
            b.library).setup = .ok r
      ∧ b.preview = DrawList.empty.paintAll (r.draw DrawList.empty.ready).1 := by
  -- a name only: what the first workbench is like takes long to compute, and nothing needs it
  obtain ⟨first, hfirst⟩ :
      ∃ w, w = new (fun _ => .ofSeed 0) { Settings.standard with seed := some 7 } .empty :=
    ⟨_, rfl⟩
  have hsession : first.session .standard editedRun
      = (first.start.edit "make background red").stop :=
    session_editedRun .standard (hfirst ▸ isRunning_new _ _ _)
  have hstopped := isRunning_stop (first.start.edit "make background red")
  have hsource := source_stop (first.start.edit "make background red")
  rw [source_edit, ← hsession] at hsource
  rw [← hsession] at hstopped
  have hfresh := preview_is_first_frame (fun _ => .ofSeed 0) .standard Settings.standard 7 .empty
    editedRun
  simp only [← hfirst] at hfresh
  obtain ⟨r, hr, hpreview⟩ := hfresh hstopped
  rw [hsource] at hr
  exact ⟨first.session .standard editedRun, r, hfirst ▸ rfl, hstopped, hr, hpreview⟩

end Workbench
end StageScript
