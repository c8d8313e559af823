/-
# The account of the console

Beside a workbench an account is kept of what its console and its player should have got.  It has
a run of its own for each run that is started: a new one, which is called whenever the run of the
workbench is, and on which nothing is ever previewed.  What a call of that run reports goes on the
account at once, and so do the warnings of a start and the messages of a save (`Account.follow`).

The workbench has one run for everything.  It is set up, stopped and set up again, and the still
frames are recorded on it.  That its console and its player get what is on the account, in the same
order and each once, is due to two facts: nothing waits in its run between two deeds, so a recording
loses nothing and leaves nothing behind; and a run that was set up cannot be told from a new one
(`Run.Twins`).
-/
import StageScript.Proofs.Workbench.Preview

namespace StageScript

/-! ## 1. Runs in which nothing waits -/

namespace Run

variable {n : Nat} {pending : List Diagnostic} {r f : Run}

/-- The run when all that waits in it was taken. -/
def emptied (r : Run) : Run := r.takeDiagnostics.2.takeSounds.2

theorem Twins.emptied (h : Twins n pending r f) : Twins n [] r.emptied f.emptied :=
  have htaken : Twins n [] r.takeDiagnostics.2 f.takeDiagnostics.2 :=
    h.onStage rfl ⟨h.stage.scene, rfl⟩
  htaken.onScene (fun s => { s with sounds := [] }) (fun _ => rfl) fun _ => rfl

theorem Twins.sounds (h : Twins n pending r f) : r.takeSounds.1 = f.takeSounds.1 :=
  h.stage.same Scene.sounds fun _ => rfl

/-- Nothing waits in the run. -/
structure IsQuiet (r : Run) : Prop where
  waiting : r.waiting = []
  sounds : r.stage.scene.sounds = []

theorem isQuiet_emptied (r : Run) : r.emptied.IsQuiet := ⟨rfl, rfl⟩

theorem IsQuiet.emptied_eq (h : r.IsQuiet) : r.emptied = r := by
  rcases r with ⟨script, ⟨scene, ⟨diagnostics, events⟩⟩, phase, generation⟩
  obtain rfl : diagnostics = #[] := Array.toList_eq_nil_iff.mp h.waiting
  have hsounds : ({ scene with sounds := [] } : Scene) = scene := by
    rw [← h.sounds]
  simp only [emptied, takeDiagnostics, takeSounds, Journal.take, withScene, hsounds]

theorem IsQuiet.stop (h : r.IsQuiet) : r.stop.IsQuiet := by
  refine ⟨r.waiting_stop.trans h.waiting, ?_⟩
  rw [stop_scene]
  rfl

/-- A key reports nothing and plays nothing. -/
theorem IsQuiet.follow (h : r.IsQuiet) (key : String) (down : Bool) :
    (r.follow key down).IsQuiet := ⟨h.waiting, h.sounds⟩

theorem IsQuiet.draw (h : r.IsQuiet) (ready : Ready) : (r.draw ready).2.IsQuiet := by
  unfold Run.draw
  split
  · exact ⟨h.waiting, h.sounds⟩
  · exact h

end Run

namespace Workbench

/-! ## 2. The account -/

/-- What the console and the player should have got. -/
structure Account where
  /-- The run that was started and not stopped since; all that it reported and played is on the
  account. -/
  run : Option Run
  console : List Diagnostic
  played : List Asset

variable (entropy : Nat → Generator) (kit : Toolkit)

namespace Account

/-- The account of a workbench at which nothing has happened. -/
def blank : Account := ⟨none, [], []⟩

/-- Puts on the account what waits in a run. -/
def hear (a : Account) (r : Run) : Account where
  run := some r.emptied
  console := a.console ++ r.takeDiagnostics.1
  played := a.played ++ r.takeSounds.1

/-- The account behind a call of the run that was started. -/
def call (a : Account) (f : Run → Except Overflow Run) : Account :=
  match a.run with
  | none => a
  | some r =>
    match f r with
    | .ok r => a.hear r
    | .error _ => a

/-- The account behind a start: the warnings about the text, if they are wanted, and then what the
setup of a new run reports.  The new run only knows how many setups there were before it. -/
def start (a : Account) (b : Workbench) : Account :=
  let script := Script.ofText b.source
  let warned := if b.settings.warnUnrecognized then warnings script else []
  let a := { a with console := a.console ++ warned }
  match (Run.fresh script (runConfig entropy b.settings) b.library b.run.generation).setup with
  | .ok r => a.hear r
  | .error _ => a

/-- The account behind a deed at a workbench. -/
def follow (b : Workbench) (a : Account) : Deed → Account
  | .key name down =>
    if b.hearsKey name down then a.call fun r => r.dispatch (keyInput name down) else a
  | .tick => a.call fun r => r.advance (.between b.lastTick b.now maxStep) >>= Run.update
  | .click x y => a.call fun r => r.dispatch (.click x y)
  | .paint => { a with run := a.run.map fun r => (r.draw b.textures.isReady).2 }
  | .press .startStop => if a.run.isSome then { a with run := none } else a.start entropy b
  | .press .reload => { a with run := a.run.map fun r => r.setAssets b.reloadAssets.library }
  | .press .save =>
    { a with
      console := a.console
        ++ [saveReport b.scriptFile (b.files.save b.scriptFile b.source.toUTF8).2] }
  | .press .clearConsole => { a with console := [] }
  | _ => a

/-- The account behind deeds in order. -/
def keep (b : Workbench) (a : Account) : List Deed → Account
  | [] => a
  | d :: ds => keep (b.does kit d) (a.follow entropy b d) ds

end Account

/-- No call of the run goes beyond the longest duration in the deed. -/
def Deed.IsCalm (b : Workbench) : Deed → Prop
  | .tick => b.run.isRunning = true →
      ∃ r, (b.run.advance (.between b.lastTick b.now maxStep) >>= Run.update) = .ok r
  | .click x y => b.run.isRunning = true → ∃ r, b.run.dispatch (.click x y) = .ok r
  | _ => True

/-- No call of the run goes beyond the longest duration in any of the deeds. -/
def AllCalm (b : Workbench) : List Deed → Prop
  | [] => True
  | d :: ds => d.IsCalm b ∧ AllCalm (b.does kit d) ds

/-! ## 3. The account is kept -/

/-- The run of the workbench goes along with that of the account, if a run was started, and is not
running otherwise. -/
def GoesAlong (r : Run) : Option Run → Prop
  | none => r.isRunning = false
  | some f => r.isRunning = true ∧ ∃ n, Run.Twins n [] r f

/-- The workbench is as the account has it, and nothing waits in its run. -/
structure Balanced (settings : Settings) (b : Workbench) (a : Account) : Prop where
  settings : b.settings = settings
  console : b.console = a.console
  played : b.played = a.played
  quiet : b.run.IsQuiet
  run : GoesAlong b.run a.run

variable {settings : Settings} {b : Workbench} {a : Account}

theorem drain_of_quiet (h : b.run.IsQuiet) : b.drain = b := by
  have hwaiting : b.run.takeDiagnostics.1 = [] := h.waiting
  have hsounds : b.run.takeSounds.1 = [] := h.sounds
  have hrun : b.run.takeDiagnostics.2.takeSounds.2 = b.run := h.emptied_eq
  rw [drain_eq, hwaiting, hsounds, hrun, List.append_nil, List.append_nil]

namespace Balanced

/-- Either no run is running and the account has none, or a run is running and goes along with that
of the account. -/
theorem cases_run (h : Balanced settings b a) :
    b.run.isRunning = false ∧ a.run = none
      ∨ b.run.isRunning = true ∧ ∃ f n, a.run = some f ∧ Run.Twins n [] b.run f := by
  have hrun := h.run
  cases ha : a.run with
  | none =>
    rw [ha] at hrun
    exact .inl ⟨hrun, rfl⟩
  | some f =>
    rw [ha] at hrun
    obtain ⟨hrunning, n, htwins⟩ := hrun
    exact .inr ⟨hrunning, f, n, rfl, htwins⟩

/-- **What waits in a run goes to the console and to the player**, and it is what waits in the run
of the account. -/
theorem hear (h : Balanced settings b a) {n : Nat} {r f : Run} (hrunning : r.isRunning = true)
    (htwins : Run.Twins n [] r f) :
    Balanced settings ({ b with run := r } : Workbench).drain (a.hear f) := by
  have hwaiting : r.takeDiagnostics.1 = f.takeDiagnostics.1 := htwins.stage.waiting
  rw [drain_eq]
  refine ⟨h.settings, ?_, ?_, r.isQuiet_emptied, hrunning, n, htwins.emptied⟩
  · exact congr (congrArg _ h.console) hwaiting
  · exact congr (congrArg _ h.played) htwins.sounds

/-- A call of the run that is running, if it does not go too far. -/
theorem call (h : Balanced settings b a) (hrunning : b.run.isRunning = true) {n : Nat} {g : Run}
    (ha : a.run = some g) {f : Run → Except Overflow Run} {r : Run} (hr : f b.run = .ok r)
    (hphase : r.phase = b.run.phase) (hmatched : Matched (Run.Twins n []) (f b.run) (f g)) :
    Balanced settings ({ b with run := r } : Workbench).drain (a.call f) := by
  rw [hr] at hmatched
  obtain ⟨g', hg', htwins⟩ := hmatched.exists_of_ok
  have hrunning' : r.isRunning = true := (congrArg (· == .running) hphase).trans hrunning
  simp only [Account.call, ha, hg']
  exact h.hear hrunning' htwins

/-- **A preview leaves the console and the player alone, and nothing of it waits behind it.** -/
theorem refreshPreview (h : Balanced settings b a) : Balanced settings b.refreshPreview a := by
  rcases h.cases_run with ⟨hstopped, ha⟩ | ⟨hrunning, -⟩
  · have hended := previewed_stopped (b.run.load (Script.ofText b.source)) b.preview.clear
    rw [refreshPreview_of_stopped hstopped]
    generalize previewed (b.run.load (Script.ofText b.source)) b.preview.clear = x at hended ⊢
    refine ⟨h.settings, h.console, h.played, x.2.isQuiet_emptied, ?_⟩
    rw [ha]
    exact hended
  · rw [refreshPreview_of_running hrunning]
    exact h

theorem stop (h : Balanced settings b a) : Balanced settings b.stop { a with run := none } := by
  have hquiet : ({ b with run := b.run.stop } : Workbench).run.IsQuiet := h.quiet.stop
  have hended : Balanced settings { b with run := b.run.stop } { a with run := none } :=
    ⟨h.settings, h.console, h.played, hquiet, b.run.isRunning_stop⟩
  unfold Workbench.stop
  rw [drain_of_quiet hquiet]
  exact hended.refreshPreview

/-- **A start.**  The run that was there before is set up like a new one, and nothing waits in it
from before. -/
theorem start (h : Balanced settings b a) (hpresents : Presents (runConfig entropy settings) b) :
    Balanced settings b.start (a.start entropy b) := by
  obtain ⟨n, r, f, hr, hf, htwins⟩ := hpresents.toConsistent.exists_setup
  rw [h.quiet.waiting] at htwins
  rw [← h.settings] at hf
  have hrunning : r.isRunning = true := r.isRunning_iff.mpr (Run.phase_of_setup hr)
  obtain ⟨r', hr', hstart⟩ := b.start_eq
  obtain rfl : r' = r := Except.ok.inj (hr'.symm.trans hr)
  have hwarned : Balanced settings
      { b with
        console := b.console
          ++ if b.settings.warnUnrecognized then warnings (Script.ofText b.source) else []
        lastTick := b.now }
      { a with
        console := a.console
          ++ if b.settings.warnUnrecognized then warnings (Script.ofText b.source) else [] } :=
    ⟨h.settings, congrArg (· ++ _) h.console, h.played, h.quiet, h.run⟩
  rw [hstart]
  simp only [Account.start, hf]
  exact hwarned.hear hrunning htwins

theorem startStop (h : Balanced settings b a)
    (hpresents : Presents (runConfig entropy settings) b) :
    Balanced settings (b.act .startStop) (a.follow entropy b (.press .startStop)) := by
  rcases h.cases_run with ⟨hstopped, ha⟩ | ⟨hrunning, f, n, ha, -⟩
  · rw [act_of_stopped hstopped, Account.follow, ha]
    exact h.start entropy hpresents
  · rw [act_of_running hrunning, Account.follow, ha]
    exact h.stop

theorem tick (h : Balanced settings b a) (hcalm : Deed.IsCalm b .tick) :
    Balanced settings b.tick (a.follow entropy b .tick) := by
  unfold Workbench.tick
  rcases h.cases_run with ⟨hstopped, ha⟩ | ⟨hrunning, f, n, ha, htwins⟩
  · rw [if_neg (by simp [hstopped]), Account.follow, Account.call, ha]
    exact h
  · obtain ⟨r, hr⟩ := hcalm hrunning
    have hticked : Balanced settings { b with lastTick := b.now } a :=
      ⟨h.settings, h.console, h.played, h.quiet, h.run⟩
    simp only [if_pos hrunning, hr, Workbench.guard]
    exact hticked.call hrunning ha hr (Run.phase_of_step hr)
      ((htwins.advance _).bind fun _ _ h₁ => h₁.update)

theorem click (h : Balanced settings b a) {x y : Float} (hcalm : Deed.IsCalm b (.click x y)) :
    Balanced settings (b.click x y) (a.follow entropy b (.click x y)) := by
  unfold Workbench.click
  rcases h.cases_run with ⟨hstopped, ha⟩ | ⟨hrunning, f, n, ha, htwins⟩
  · rw [if_neg (by simp [hstopped]), Account.follow, Account.call, ha]
    exact h
  · obtain ⟨r, hr⟩ := hcalm hrunning
    simp only [if_pos hrunning, hr, Workbench.guard]
    exact h.call hrunning ha hr (Run.phase_of_dispatch hr) (htwins.dispatch (.click x y))

theorem key (h : Balanced settings b a) (name : String) (down : Bool) :
    Balanced settings (b.key name down) (a.follow entropy b (.key name down)) := by
  obtain ⟨r, hr, hkey⟩ := b.key_eq name down
  have hkeys : Balanced settings { b with keysDown := b.keysBehind name down } a :=
    ⟨h.settings, h.console, h.played, h.quiet, h.run⟩
  rw [hkey, Account.follow]
  cases b.hearsKey name down with
  | false => exact hkeys
  | true =>
    have hquiet : r.IsQuiet := by
      obtain rfl := Except.ok.inj ((dispatch_keyInput b.run name down).symm.trans hr)
      exact h.quiet.follow _ _
    have hphase := Run.phase_of_dispatch hr
    rcases h.cases_run with ⟨hstopped, ha⟩ | ⟨hrunning, f, n, ha, htwins⟩
    · rw [if_pos rfl, if_pos rfl, Account.call, ha]
      refine ⟨h.settings, h.console, h.played, hquiet, ?_⟩
      rw [ha]
      exact (congrArg (· == .running) hphase).trans hstopped
    · -- what the run reports is nothing, so it may as well be moved to the console
      have hdrained := hkeys.call (f := fun r => r.dispatch (keyInput name down)) hrunning ha hr
        hphase (htwins.dispatch _)
      rw [drain_of_quiet hquiet] at hdrained
      exact hdrained

theorem paint (h : Balanced settings b a) :
    Balanced settings b.paintCanvas.2 (a.follow entropy b .paint) := by
  unfold paintCanvas
  rcases h.cases_run with ⟨hstopped, ha⟩ | ⟨hrunning, f, n, ha, htwins⟩
  · rw [if_neg (by simp [hstopped])]
    refine ⟨h.settings, h.console, h.played, h.quiet, ?_⟩
    rw [Account.follow, ha]
    exact hstopped
  · have hphase := b.run.phase_draw b.textures.isReady
    rw [if_pos hrunning, Account.follow, ha]
    exact ⟨h.settings, h.console, h.played, h.quiet.draw _,
      (congrArg (· == .running) hphase).trans hrunning, n, (htwins.draw _).2⟩

theorem reload (h : Balanced settings b a) :
    Balanced settings (b.act .reload) (a.follow entropy b (.press .reload)) := by
  have hreloaded : Balanced settings b.reloadAssets (a.follow entropy b (.press .reload)) := by
    refine ⟨h.settings, h.console, h.played, ⟨h.quiet.waiting, h.quiet.sounds⟩, ?_⟩
    rcases h.cases_run with ⟨hstopped, ha⟩ | ⟨hrunning, f, n, ha, htwins⟩
    · rw [Account.follow, ha]
      exact hstopped
    · rw [Account.follow, ha]
      exact ⟨hrunning, n, htwins.onScene
        (fun s => { s with assets := b.reloadAssets.library }) (fun _ => rfl) fun _ => rfl⟩
  exact hreloaded.refreshPreview

theorem changed (h : Balanced settings b a) (e : Editor) :
    Balanced settings ({ b with editor := e } : Workbench).refreshPreview a := by
  have hedited : Balanced settings { b with editor := e } a :=
    ⟨h.settings, h.console, h.played, h.quiet, h.run⟩
  exact hedited.refreshPreview

theorem typeKey (h : Balanced settings b a) (name : String) :
    Balanced settings (b.typeKey kit name) a := by
  unfold Workbench.typeKey
  generalize kit.type name b.editor = typed
  obtain ⟨e, changed⟩ := typed
  cases changed with
  | true => exact h.changed e
  | false => exact ⟨h.settings, h.console, h.played, h.quiet, h.run⟩

theorem act (h : Balanced settings b a) (hpresents : Presents (runConfig entropy settings) b)
    (c : Control) : Balanced settings (b.act c) (a.follow entropy b (.press c)) := by
  cases c with
  | startStop => exact h.startStop entropy hpresents
  | reload => exact h.reload entropy
  | editor => exact h
  | canvas => exact h
  | clearConsole => exact ⟨h.settings, rfl, h.played, h.quiet, h.run⟩
  | save =>
    rw [Workbench.act, save_eq]
    exact ⟨h.settings, congrArg (· ++ _) h.console, h.played, h.quiet, h.run⟩
  | tab t => exact ⟨h.settings, h.console, h.played, h.quiet, h.run⟩

/-- **A deed leaves the workbench as the account has it.** -/
theorem does (h : Balanced settings b a) (hpresents : Presents (runConfig entropy settings) b)
    {d : Deed} (hcalm : d.IsCalm b) :
    Balanced settings (b.does kit d) (a.follow entropy b d) := by
  cases d with
  | settle => exact ⟨h.settings, h.console, h.played, h.quiet, h.run⟩
  | focus f => exact ⟨h.settings, h.console, h.played, h.quiet, h.run⟩
  | key name down => exact h.key entropy name down
  | tick => exact h.tick entropy hcalm
  | touch => exact ⟨h.settings, h.console, h.played, h.quiet, h.run⟩
  | edit text => exact h.changed _
  | type name => exact h.typeKey kit name
  | press c => exact h.act entropy hpresents c
  | paint => exact h.paint entropy
  | click x y => exact h.click entropy hcalm
  | wait time => exact ⟨h.settings, h.console, h.played, h.quiet, h.run⟩
  | files files => exact ⟨h.settings, h.console, h.played, h.quiet, h.run⟩

end Balanced

/-! ## 4. Sessions -/

/-- What every deed keeps, all of them keep, as long as no call goes too far. -/
theorem Balanced.doAll (h : Balanced settings b a)
    (hpresents : Presents (runConfig entropy settings) b) {ds : List Deed}
    (hcalm : AllCalm kit b ds) :
    Balanced settings (b.doAll kit ds) (a.keep entropy kit b ds) := by
  induction ds generalizing b a with
  | nil => exact h
  | cons d ds ih => exact ih (h.does entropy kit hpresents hcalm.1) (hpresents.does kit d) hcalm.2

theorem balanced_new (settings : Settings) (files : Files) :
    Balanced settings (new entropy settings files) .blank :=
  Balanced.reload entropy (a := .blank) ⟨rfl, rfl, rfl, ⟨rfl, rfl⟩, rfl⟩

/-- **The console is as the account has it.**  Take any toolkit, any settings, any folder and any
session in which no call of the run goes beyond the longest duration.  Behind it nothing waits in
the run, neither a diagnostic nor a sound.  The console holds what is on the account, in the same
order and each once: for every run that was started the warnings about its text, if they are wanted,
then what a new run reports that is set up, moved and clicked in its place, and among these the
messages of the saves; all of it since the console was last cleared.  The player was handed what
those new runs played.  A preview is made on none of them, so what it reports and plays went
nowhere. -/
theorem console_is_accounted (settings : Settings) (files : Files) (es : List Episode)
    (hcalm : AllCalm kit (new entropy settings files)
      ((new entropy settings files).sessionDeeds kit es)) :
    let b := (new entropy settings files).session kit es
    let a := Account.blank.keep entropy kit (new entropy settings files)
      ((new entropy settings files).sessionDeeds kit es)
    b.run.waiting = [] ∧ b.run.stage.scene.sounds = [] ∧ b.console = a.console
      ∧ b.played = a.played := by
  have hbalanced :=
    (balanced_new entropy settings files).doAll entropy kit
      (presents_new entropy settings files) hcalm
  rw [← session_eq_doAll] at hbalanced
  exact ⟨hbalanced.quiet.waiting, hbalanced.quiet.sounds, hbalanced.console, hbalanced.played⟩

/-- A run that is clicked, with a save before it is stopped. -/
def clickedRun : List Episode :=
  [.deed (.edit "on click say \"hi\""), .deed (.press .startStop), .deed (.click 1.0 2.0),
    .deed (.press .save), .deed (.press .startStop)]

/-- Right behind a start there is room for every period of the text, so a click has a result. -/
theorem isCalm_click (b : Workbench) (x y : Float) : Deed.IsCalm b.start (.click x y) := by
  obtain ⟨r, hr, hclock⟩ := (b.run.load (Script.ofText b.source)).exists_setup
  have hsetup : r.Traced := (Run.follows_of_setup hr).traced
  have htraced : r.emptied.Traced := hsetup.of_eq rfl rfl rfl
  have hclock' : r.emptied.clock = 0 := hclock
  obtain ⟨r', hr', hstart⟩ := b.start_eq
  obtain rfl : r' = r := Except.ok.inj (hr'.symm.trans hr)
  have hrun : b.start.run = r'.emptied := by
    rw [hstart]
    rfl
  intro _
  rw [hrun]
  exact Run.exists_dispatch_of_room htraced (.click x y) (Run.room_of_clock_eq_zero hclock')

theorem allCalm_clickedRun (hstopped : b.run.isRunning = false) :
    AllCalm kit b (b.sessionDeeds kit clickedRun) := by
  have hclick : Deed.IsCalm ((b.edit "on click say \"hi\"").act .startStop) (.click 1.0 2.0) := by
    have hstopped' : (b.edit "on click say \"hi\"").run.isRunning = false :=
      (isRunning_refreshPreview _).trans hstopped
    rw [act_of_stopped hstopped']
    exact isCalm_click _ 1.0 2.0
  exact ⟨trivial, trivial, hclick, trivial, trivial, trivial⟩

theorem console_is_accounted_clickedRun :
    ∃ first b a, first = new (fun _ => .ofSeed 0) .standard .empty
      ∧ b = first.session .standard clickedRun
      ∧ a = Account.blank.keep (fun _ => .ofSeed 0) .standard first
          (first.sessionDeeds .standard clickedRun)
      ∧ AllCalm .standard first (first.sessionDeeds .standard clickedRun)
      ∧ b.run.waiting = [] ∧ b.run.stage.scene.sounds = [] ∧ b.console = a.console
      ∧ b.played = a.played := by
  have hcalm := allCalm_clickedRun .standard (isRunning_new (fun _ => .ofSeed 0) .standard .empty)
  exact ⟨_, _, _, rfl, rfl, rfl, hcalm,
    console_is_accounted (fun _ => .ofSeed 0) .standard .standard .empty clickedRun hcalm⟩

end Workbench
end StageScript
