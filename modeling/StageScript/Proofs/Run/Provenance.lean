/-
# Whatever happens stems from the script

A run carries out the statements of its script, and later on what those statements left behind:
the commands behind clicks and timers.  Another script may be loaded at any time.  This module
proves that nothing of the old script outlives that, and that nothing is carried out or reported
but what stands in the script in place.

`Follows` says it of a piece of a call, `Accounted` of calls and histories: the events in between
stem from the script, and the diagnostics that were handed over in between or wait at the end are
those that waited at the beginning and those of the events, in this order.  A running run was set
up by the last setup of its history, and no script was loaded since (`exists_last_setup`), so what
`Accounted` says of a history without loads it says of everything since that setup.
-/
import StageScript.Proofs.Run.Rest
import StageScript.Proofs.Stage.Provenance

namespace StageScript
namespace Run

variable {r r' r'' : Run}

/-! ## 1. Pieces of calls -/

/-- What waits on the stage is held by the script of the run. -/
def Traced (r : Run) : Prop := r.stage.scene.Traced r.script

/-- The second run has the script of the first one, which holds what waits on it, and from which
stems what was written in between. -/
structure Follows (r r' : Run) : Prop where
  script : r'.script = r.script
  stage : r.stage.Follows r.script r'.stage

theorem Follows.traced (h : Follows r r') : r'.Traced := by
  rw [Traced, h.script]
  exact h.stage.traced

theorem Follows.trans (h : Follows r r') (h' : Follows r' r'') : Follows r r'' := by
  have hstage := h'.stage
  rw [h.script] at hstage
  exact ⟨h'.script.trans h.script, h.stage.trans hstage⟩

/-- A run with another scene, on which all that waits is traced, and the same journal. -/
theorem Follows.of_scene (hscript : r'.script = r.script)
    (hscene : r'.stage.scene.Traced r.script) (hjournal : r'.stage.journal = r.stage.journal) :
    Follows r r' := by
  refine ⟨hscript, hscene, ?_⟩
  rw [hjournal]
  exact .refl _ _

theorem Traced.follows (h : r.Traced) : Follows r r := .of_scene rfl h rfl

theorem follows_of_carryOut {sts : List Statement}
    (hsts : ∀ st ∈ sts, r.script.Holds st.line st.command) (hr : r.Traced)
    (h : r.carryOut sts = .ok r') : Follows r r' := by
  obtain ⟨stage, hrun, rfl⟩ := exists_of_carryOut h
  exact ⟨rfl, Stage.follows_of_runAll sts hsts hr hrun⟩

theorem follows_begun (r : Run) : Follows r r.begun :=
  ⟨rfl, .of_nil rfl rfl,
    .record (show Event.StemsFrom r.script (.started _ _ _) from trivial)⟩

theorem follows_of_setup (h : r.setup = .ok r') : Follows r r' := by
  obtain ⟨r₁, hrun, rfl⟩ := exists_of_setup h
  have hbegun := r.follows_begun
  have hsts : ∀ st ∈ r.script.setup, r.script.Holds st.line st.command :=
    fun st hst => Script.holds_of_mem (List.mem_of_mem_filter hst)
  have hcarry := hbegun.trans (follows_of_carryOut hsts hbegun.traced hrun)
  exact hcarry.trans (.of_scene rfl (hcarry.traced.of_eq rfl rfl rfl) rfl)

theorem follows_of_update (hr : r.Traced) (h : r.update = .ok r') : Follows r r' := by
  rcases cases_of_update h with ⟨-, hrun⟩ | ⟨-, rfl⟩
  · have hsts : ∀ st ∈ r.script.perFrame, r.script.Holds st.line st.command :=
      fun st hst => Script.holds_of_mem (List.mem_of_mem_filter hst)
    exact follows_of_carryOut hsts hr hrun
  · exact hr.follows

/-- What ticks is what timers carry out, and these the script holds. -/
theorem follows_of_advance {dt : Duration} (hr : r.Traced) (h : r.advance dt = .ok r') :
    Follows r r' := by
  rcases cases_of_advance h with ⟨-, fired, ts, hts, hrun⟩ | ⟨-, rfl⟩
  · obtain ⟨hfired, hdrawn⟩ := Timers.drawnFrom_of_advance hts
    have haged : r.stage.scene.ageOverlay.Traced r.script := hr.of_eq rfl rfl rfl
    have hmoved : Follows r (r.aged.withTimers ts) :=
      .of_scene rfl (haged.withTimers hdrawn) rfl
    refine hmoved.trans (follows_of_carryOut ?_ hmoved.traced hrun)
    intro st hst
    obtain ⟨t, ht, rfl⟩ := hfired st hst
    obtain ⟨seconds, hholds, -⟩ := hr.timers t ht
    exact hholds.behind
  · exact hr.follows

theorem follows_draw (hr : r.Traced) (ready : Ready) : Follows r (r.draw ready).2 := by
  unfold draw
  split
  · exact .of_scene rfl (hr.of_eq rfl rfl rfl) rfl
  · exact hr.follows

theorem follows_of_dispatch {i : Input} (hr : r.Traced) (h : r.dispatch i = .ok r') :
    Follows r r' := by
  cases i with
  | keyDown key =>
    obtain rfl := Except.ok.inj h
    exact .of_scene rfl (hr.of_eq rfl rfl rfl) rfl
  | keyUp key =>
    obtain rfl := Except.ok.inj h
    exact .of_scene rfl (hr.of_eq rfl rfl rfl) rfl
  | click x y =>
    rcases cases_of_click h with ⟨-, hrun⟩ | ⟨-, rfl⟩
    · have hpointed : Follows r (r.pointed x y) := .of_scene rfl (hr.of_eq rfl rfl rfl) rfl
      have hclicks : ∀ st ∈ r.stage.scene.clicks, r.script.Holds st.line st.command :=
        fun st hst => (hr.clicks st hst).behind
      exact hpointed.trans (follows_of_carryOut hclicks hpointed.traced hrun)
    · exact hr.follows

theorem journal_stop (r : Run) :
    r.stop.stage.journal
      = if r.isRunning then r.stage.journal.record (.stopped r.generation)
        else r.stage.journal := by
  simp only [stop]
  split <;> split <;> rfl

/-- A stop leaves nothing that waits, so it does not matter which script held it. -/
theorem stop_stage_follows (r : Run) (script : Script) : r.stage.Follows script r.stop.stage := by
  constructor
  · rw [r.stop_scene]
    exact .of_nil rfl rfl
  · have hstopped : Event.StemsFrom script (.stopped r.generation) := trivial
    rw [r.journal_stop]
    split
    · exact .record hstopped
    · exact .refl _ _

theorem follows_stop (r : Run) : Follows r r.stop := ⟨r.script_stop, r.stop_stage_follows r.script⟩

/-! ## 2. Calls -/

/-- From the first run to the second one everything stems from the script of the second: the
events in between, and the diagnostics that were handed over by the answers in between or wait at
the end, apart from those that waited at the beginning. -/
def Accounted (r : Run) (as : List Answer) (r' : Run) : Prop :=
  ∃ notes : List Event,
    r'.stage.journal.events.toList = r.stage.journal.events.toList ++ notes ∧
    as.flatMap Answer.reported ++ r'.waiting = r.waiting ++ notes.filterMap Event.report? ∧
    ∀ e ∈ notes, e.StemsFrom r'.script

theorem Accounted.refl (r : Run) : Accounted r [] r :=
  ⟨[], (List.append_nil _).symm, (List.append_nil _).symm, fun _ h => absurd h List.not_mem_nil⟩

theorem Accounted.trans {as as' : List Answer} (h : Accounted r as r')
    (hscript : r''.script = r'.script) (h' : Accounted r' as' r'') :
    Accounted r (as ++ as') r'' := by
  obtain ⟨notes, hevents, hwaiting, hstem⟩ := h
  obtain ⟨notes', hevents', hwaiting', hstem'⟩ := h'
  refine ⟨notes ++ notes', ?_, ?_, fun e he => ?_⟩
  · rw [hevents', hevents, List.append_assoc]
  · calc (as ++ as').flatMap Answer.reported ++ r''.waiting
        = as.flatMap Answer.reported ++ (as'.flatMap Answer.reported ++ r''.waiting) := by
          rw [List.flatMap_append, List.append_assoc]
      _ = (as.flatMap Answer.reported ++ r'.waiting) ++ notes'.filterMap Event.report? := by
          rw [hwaiting', List.append_assoc]
      _ = r.waiting ++ (notes ++ notes').filterMap Event.report? := by
          rw [hwaiting, List.filterMap_append, List.append_assoc]
  · rcases List.mem_append.mp he with he | he
    · rw [hscript]
      exact hstem e he
    · exact hstem' e he

/-- An answer that hands over no diagnostics. -/
theorem Accounted.of_stage {a : Answer} (ha : a.reported = [])
    (h : r.stage.Follows r'.script r'.stage) : Accounted r [a] r' := by
  obtain ⟨notes, hnotes, hstem⟩ := h.journal
  refine ⟨notes, ?_, ?_, hstem⟩
  · rw [hnotes, Journal.recordAll_events]
  · rw [List.flatMap_singleton, ha, waiting, hnotes, Journal.recordAll_diagnostics]
    rfl

theorem Follows.accounted (h : Follows r r') {a : Answer} (ha : a.reported = []) :
    Accounted r [a] r' := by
  have hstage := h.stage
  rw [← h.script] at hstage
  exact .of_stage ha hstage

/-- The call takes another script. -/
def Call.loads : Call → Bool
  | load _ => true
  | _ => false

/-- What waits on the second run is traced, and all that happened in between is accounted for. -/
structure Sourced (r : Run) (as : List Answer) (r' : Run) : Prop where
  traced : r'.Traced
  accounted : Accounted r as r'

theorem Follows.sourced (h : Follows r r') {a : Answer} (ha : a.reported = []) :
    r'.script = r.script ∧ Sourced r [a] r' := ⟨h.script, h.traced, h.accounted ha⟩

/-- **A call that loads nothing keeps the script, and all it does stems from it.** -/
theorem sourced_of_called_same {c : Call} {a : Answer} (h : Called r c a r') (hr : r.Traced)
    (hc : c.loads = false) : r'.script = r.script ∧ Sourced r [a] r' := by
  cases h with
  | setup h => exact (follows_of_setup h).sourced rfl
  | update h => exact (follows_of_update hr h).sourced rfl
  | advance h => exact (follows_of_advance hr h).sourced rfl
  | draw ready => exact (follows_draw hr ready).sourced rfl
  | frame ready ha hu =>
    have hadvance := follows_of_advance hr ha
    have hupdate := hadvance.trans (follows_of_update hadvance.traced hu)
    exact (hupdate.trans (follows_draw hupdate.traced ready)).sourced rfl
  | preview ready h =>
    have hsetup := follows_of_setup h
    have hdraw := hsetup.trans (follows_draw hsetup.traced ready)
    exact (hdraw.trans (follows_stop _)).sourced rfl
  | stop => exact r.follows_stop.sourced rfl
  | load script => simp [Call.loads] at hc
  | setAssets assets =>
    have hassets : Follows r (r.setAssets assets) := .of_scene rfl (hr.of_eq rfl rfl rfl) rfl
    exact hassets.sourced rfl
  | input h => exact (follows_of_dispatch hr h).sourced rfl
  | takeDiagnostics =>
    -- nothing happens, but what waited is handed over
    refine ⟨rfl, hr, [], (List.append_nil _).symm, ?_, fun _ h => absurd h List.not_mem_nil⟩
    rw [List.flatMap_singleton]
    rfl
  | takeSounds =>
    have hsounds : Follows r r.takeSounds.2 := .of_scene rfl (hr.of_eq rfl rfl rfl) rfl
    exact hsounds.sourced rfl

/-- A load does nothing that could stem from any script, and nothing waits behind it. -/
theorem sourced_of_called {c : Call} {a : Answer} (h : Called r c a r') (hr : r.Traced) :
    Sourced r [a] r' := by
  cases hc : c.loads with
  | false => exact (sourced_of_called_same h hr hc).2
  | true =>
    cases h with
    | load script =>
      have hstop : r.stage.Follows script (r.load script).stage := r.stop_stage_follows script
      exact ⟨hstop.traced, .of_stage rfl hstop⟩
    | _ => simp [Call.loads] at hc

/-! ## 3. Histories -/

/-- **In every state that a run reaches, all that waits is held by the script in place.** -/
theorem traced_of_calls {script : Script} {config : RunConfig} {cs : List Call}
    {as : List Answer} (h : (Run.new script config).calls cs = .ok (as, r)) : r.Traced :=
  of_calls (P := Traced) (fun hc hr => (sourced_of_called hc hr).traced) cs h (.of_nil rfl rfl)

/-- **A history without loads keeps the script, and all it does stems from it.** -/
theorem sourced_of_calls : ∀ (cs : List Call) {r r' : Run} {as : List Answer},
    r.calls cs = .ok (as, r') → r.Traced → (∀ c ∈ cs, c.loads = false) →
    r'.script = r.script ∧ Sourced r as r'
  | [], r, r', as, h, hr, _ => by
    obtain ⟨rfl, rfl⟩ := Prod.mk.inj (Except.ok.inj h)
    exact ⟨rfl, hr, .refl r⟩
  | c :: cs, r, r', as, h, hr, hcs => by
    rw [List.forall_mem_cons] at hcs
    obtain ⟨a, r₁, as₁, hc, hrest, rfl⟩ := exists_of_calls_cons h
    obtain ⟨hscript₁, hfirst⟩ := sourced_of_called_same (called_of_call hc) hr hcs.1
    obtain ⟨hscript, hlater⟩ := sourced_of_calls cs hrest hfirst.traced hcs.2
    exact ⟨hscript.trans hscript₁, hlater.traced, hfirst.accounted.trans hscript hlater.accounted⟩

/-- The first call may be a load. -/
theorem accounted_of_calls_cons {c : Call} {cs : List Call} {as : List Answer}
    (h : r.calls (c :: cs) = .ok (as, r')) (hr : r.Traced) (hcs : ∀ c ∈ cs, c.loads = false) :
    Accounted r as r' := by
  obtain ⟨a, r₁, as₁, hc, hrest, rfl⟩ := exists_of_calls_cons h
  have hfirst := sourced_of_called (called_of_call hc) hr
  obtain ⟨hscript, hlater⟩ := sourced_of_calls cs hrest hfirst.traced hcs
  exact hfirst.accounted.trans hscript hlater.accounted

/-- A part of a history behind which no script is loaded but by its first call. -/
theorem accounted_since {script : Script} {config : RunConfig} {before later : List Call}
    {c : Call} {as : List Answer}
    (h : (Run.new script config).calls (before ++ c :: later) = .ok (as, r))
    (hlater : ∀ c ∈ later, c.loads = false) :
    ∃ as₀ r₀ since, (Run.new script config).calls before = .ok (as₀, r₀) ∧ as = as₀ ++ since ∧
      Accounted r₀ since r := by
  obtain ⟨as₀, r₀, since, hbefore, hsince, rfl, -⟩ := exists_of_calls_append before h
  exact ⟨as₀, r₀, since, hbefore, rfl,
    accounted_of_calls_cons hsince (traced_of_calls hbefore) hlater⟩

/-! ## 4. The last setup -/

theorem phase_of_update (h : r.update = .ok r') : r'.phase = r.phase := by
  rcases cases_of_update h with ⟨-, hrun⟩ | ⟨-, rfl⟩
  · exact phase_of_carryOut hrun
  · rfl

theorem phase_of_advance {dt : Duration} (h : r.advance dt = .ok r') : r'.phase = r.phase := by
  rcases cases_of_advance h with ⟨-, fired, ts, -, hrun⟩ | ⟨-, rfl⟩
  · have hmoved := phase_of_carryOut hrun
    exact hmoved
  · rfl

theorem phase_draw (r : Run) (ready : Ready) : (r.draw ready).2.phase = r.phase := by
  unfold draw
  split <;> rfl

theorem phase_of_dispatch {i : Input} (h : r.dispatch i = .ok r') : r'.phase = r.phase := by
  cases i with
  | keyDown key =>
    obtain rfl := Except.ok.inj h
    rfl
  | keyUp key =>
    obtain rfl := Except.ok.inj h
    rfl
  | click x y =>
    rcases cases_of_click h with ⟨-, hrun⟩ | ⟨-, rfl⟩
    · have hpointed := phase_of_carryOut hrun
      exact hpointed
    · rfl

/-- The only way into `running` is a setup, and a run that goes on running neither begins anew
nor takes another script. -/
theorem cases_of_running {c : Call} {a : Answer} (h : Called r c a r')
    (hphase : r'.phase = .running) :
    c = .setup ∨ (r.phase = .running ∧ c.begins = false ∧ c.loads = false) := by
  cases h with
  | setup h => exact .inl rfl
  | update h => exact .inr ⟨(phase_of_update h).symm.trans hphase, rfl, rfl⟩
  | advance h => exact .inr ⟨(phase_of_advance h).symm.trans hphase, rfl, rfl⟩
  | draw ready => exact .inr ⟨(r.phase_draw ready).symm.trans hphase, rfl, rfl⟩
  | @frame dt r₁ r₂ ready ha hu =>
    have hupdate := (r₂.phase_draw ready).trans (phase_of_update hu)
    exact .inr ⟨(hupdate.trans (phase_of_advance ha)).symm.trans hphase, rfl, rfl⟩
  | preview ready h => exact absurd hphase (stop_not_running _)
  | stop => exact absurd hphase r.stop_not_running
  | load script => exact absurd hphase r.stop_not_running
  | setAssets assets => exact .inr ⟨hphase, rfl, rfl⟩
  | input h => exact .inr ⟨(phase_of_dispatch h).symm.trans hphase, rfl, rfl⟩
  | takeDiagnostics => exact .inr ⟨hphase, rfl, rfl⟩
  | takeSounds => exact .inr ⟨hphase, rfl, rfl⟩

/-- A running run was set up in its history, and has neither begun anew nor taken another script
since; or it was running before, and has done neither. -/
theorem exists_last_setup : ∀ (cs : List Call) {r r' : Run} {as : List Answer},
    r.calls cs = .ok (as, r') → r'.phase = .running →
    (∃ before later, cs = before ++ .setup :: later ∧
        ∀ c ∈ later, c.begins = false ∧ c.loads = false) ∨
      (r.phase = .running ∧ ∀ c ∈ cs, c.begins = false ∧ c.loads = false)
  | [], r, r', as, h, hphase => by
    obtain ⟨-, rfl⟩ := Prod.mk.inj (Except.ok.inj h)
    exact .inr ⟨hphase, fun _ h => absurd h List.not_mem_nil⟩
  | c :: cs, r, r', as, h, hphase => by
    obtain ⟨a, r₁, as₁, hc, hrest, -⟩ := exists_of_calls_cons h
    rcases exists_last_setup cs hrest hphase with ⟨before, later, rfl, hlater⟩ | ⟨hphase₁, hcs⟩
    · exact .inl ⟨c :: before, later, rfl, hlater⟩
    · rcases cases_of_running (called_of_call hc) hphase₁ with rfl | ⟨hphase₀, hquiet⟩
      · exact .inl ⟨[], cs, rfl, hcs⟩
      · exact .inr ⟨hphase₀, List.forall_mem_cons.mpr ⟨hquiet, hcs⟩⟩

/-! ## 5. The script behind every run -/

/-- **Whatever waits, is carried out or reported stems from the script in place.**  In every state
that a run reaches, each timer and each listener carries a line and a command such that the script
in place has, on that line, a statement in which the command stands behind `every` or behind
`on click`, at any depth; and the period of the timer is the one asked for there.  If the run is
running, its history has a last setup, and since then all commands that were carried out are
commands of the script, and all diagnostics that were reported, whether they were handed over or
still wait, carry the line of a statement of the script.  And since a script was loaded, as long as
it is in place, the same holds: no command of the script before is carried out any more. -/
theorem all_stems_from_script {script : Script} {config : RunConfig} {cs : List Call}
    {as : List Answer} (h : (Run.new script config).calls cs = .ok (as, r)) :
    r.stage.scene.Traced r.script ∧
    (r.phase = .running →
      ∃ before later as₀ r₀ since, cs = before ++ .setup :: later ∧
        (∀ c ∈ later, c.begins = false ∧ c.loads = false) ∧
        (Run.new script config).calls before = .ok (as₀, r₀) ∧ as = as₀ ++ since ∧
        Accounted r₀ since r) ∧
    ∀ before later loaded, cs = before ++ .load loaded :: later →
      (∀ c ∈ later, c.loads = false) →
      r.script = loaded ∧
      ∃ as₀ r₀ since, (Run.new script config).calls before = .ok (as₀, r₀) ∧
        as = as₀ ++ since ∧ Accounted r₀ since r := by
  refine ⟨traced_of_calls h, fun hphase => ?_, fun before later loaded hcs hlater => ?_⟩
  · rcases exists_last_setup cs h hphase with ⟨before, later, rfl, hlater⟩ | ⟨hready, -⟩
    · obtain ⟨as₀, r₀, since, hbefore, has, haccounted⟩ :=
        accounted_since h fun c hc => (hlater c hc).2
      exact ⟨before, later, as₀, r₀, since, rfl, hlater, hbefore, has, haccounted⟩
    · simp [Run.new] at hready
  · subst hcs
    refine ⟨?_, accounted_since h hlater⟩
    obtain ⟨as₀, r₀, since, hbefore, hsince, -, -⟩ := exists_of_calls_append before h
    obtain ⟨a, r₁, as₁, hload, hrest, -⟩ := exists_of_calls_cons hsince
    obtain ⟨-, rfl⟩ := Prod.mk.inj (Except.ok.inj hload)
    have hr₁ : (r₀.load loaded).Traced :=
      (r₀.stop_stage_follows loaded).traced
    exact (sourced_of_calls later hrest hr₁ hlater).1

/-- A script whose key lets a click set a timer. -/
def nestedScript : Script :=
  ⟨[⟨2, .on (.key "a") (.on .click (.on (.every 1.0) (.act (.say "tick"))))⟩], []⟩

/-- A click on the lively script reports on its line 2.  Then another script is loaded, the key
makes it listen, a click sets its timer, and the timer ticks. -/
theorem all_stems_from_script_nestedScript :
    ∃ as r,
      (Run.new livelyScript (.seeded 0)).calls
          ([.setup, .input (.click 1.0 2.0)] ++ .load nestedScript ::
            [.setup, .input (.keyDown "a"), .update, .input (.click 1.0 2.0),
              .advance (.ofMillis 1500)]) = .ok (as, r) ∧
        r.phase = .running ∧ r.stage.scene.timers.timers.length = 1 ∧
        r.stage.scene.clicks.length = 1 ∧ r.waiting.length = 2 ∧
        r.script = nestedScript ∧ r.stage.scene.Traced r.script ∧
        (∃ as₀ r₀ since,
          (Run.new livelyScript (.seeded 0)).calls [.setup, .input (.click 1.0 2.0)]
              = .ok (as₀, r₀) ∧
            as = as₀ ++ since ∧ Accounted r₀ since r) ∧
        ∃ before as₀ r₀ since, (Run.new livelyScript (.seeded 0)).calls before = .ok (as₀, r₀) ∧
          as = as₀ ++ since ∧ Accounted r₀ since r := by
  have hrun : (Run.new livelyScript (.seeded 0)).endsIn
      ([.setup, .input (.click 1.0 2.0)] ++ .load nestedScript ::
        [.setup, .input (.keyDown "a"), .update, .input (.click 1.0 2.0),
          .advance (.ofMillis 1500)])
      (fun r => r.phase == .running && r.stage.scene.timers.timers.length == 1 &&
        r.stage.scene.clicks.length == 1 && r.waiting.length == 2) = true := by decide +kernel
  obtain ⟨as, r, hcalls, htest⟩ := exists_of_endsIn hrun
  simp only [Bool.and_eq_true, beq_iff_eq] at htest
  obtain ⟨⟨⟨hphase, htimers⟩, hclicks⟩, hwaiting⟩ := htest
  obtain ⟨htraced, hsetup, hload⟩ := all_stems_from_script hcalls
  obtain ⟨before, later, as₀, r₀, since, -, -, hbefore, has, haccounted⟩ := hsetup hphase
  obtain ⟨hscript, hsince⟩ := hload _ _ nestedScript rfl (by simp [Call.loads])
  exact ⟨as, r, hcalls, hphase, htimers, hclicks, hwaiting, hscript, htraced, hsince, before, as₀,
    r₀, since, hbefore, has, haccounted⟩

end Run
end StageScript
