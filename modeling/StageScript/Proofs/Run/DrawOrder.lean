/-
# The order of the entities

A drawing paints the entities above everything else.  Which entities, and in which order, is told
by the edits since the last setup: a log that a setup begins anew, that every statement carried
out later continues, in a step of the clock, in an update or on a click, and that a stop empties
(`Run.told`, `Run.edits`).

**The law.**  The entities are painted in the order in which their names were first declared
since the setup, each once and with its latest values, and a picture only if the surface has it
ready.

The scene is as the log tells (`Run.Told`), call by call, because statements keep it so.  What
lies below the entities is no entity: backgrounds, circles and lines.
-/
import StageScript.Proofs.Run.Provenance
import StageScript.Proofs.Stage.Edits
import StageScript.Proofs.Stage.Strokes

namespace StageScript

/-! ## 1. What lies below the entities -/

/-- The stroke is one of an entity. -/
def Paint.isOfEntity : Paint → Bool
  | rect _ _ _ _ _ _ | image _ _ _ _ _ | text _ _ _ _ _ _ => true
  | background _ | circle _ _ _ _ | line _ _ _ _ _ _ => false

namespace Scene

/-- The strokes that are kept are those of no entity. -/
structure Grounded (s : Scene) : Prop where
  backdrop : ∀ p ∈ s.backdrop, p.isOfEntity = false
  overlay : ∀ p ∈ s.overlay, p.isOfEntity = false
  carried : ∀ p ∈ s.carried, p.isOfEntity = false

theorem isOfEntity_of_stroke? {s : Scene} {line : Nat} {a : Action} {p : Paint}
    (h : p ∈ (s.stroke? line a).toList) : p.isOfEntity = false := by
  rw [Option.mem_toList] at h
  cases a <;> simp only [stroke?, Option.some.injEq, reduceCtorEq] at h
  all_goals
    subst h
    rfl

theorem Grounded.inked {s s' : Scene} {ps : List Paint} (h : s.Grounded) (hink : Inked s ps s')
    (hps : ∀ p ∈ ps, p.isOfEntity = false) : s'.Grounded := by
  refine ⟨?_, ?_, ?_⟩
  · rw [hink.backdrop]
    refine List.forall_mem_append.mpr ⟨h.backdrop, ?_⟩
    split
    · exact hps
    · exact List.forall_mem_nil _
  · rw [hink.overlay]
    refine List.forall_mem_append.mpr ⟨h.overlay, ?_⟩
    split
    · exact List.forall_mem_nil _
    · exact hps
  · rw [hink.carried]
    exact h.carried

theorem grounded_initial (config : RunConfig) (g : Generator) : (initial config g).Grounded :=
  ⟨List.forall_mem_nil _, List.forall_mem_nil _, List.forall_mem_nil _⟩

/-- No call puts the stroke of an entity among those that are kept. -/
theorem stable_grounded : Stable Grounded where
  perform s line a h := h.inked (s.perform_inked line a) fun _ hp => isOfEntity_of_stroke? hp
  listen _ _ h := ⟨h.backdrop, h.overlay, h.carried⟩
  timers _ _ h := ⟨h.backdrop, h.overlay, h.carried⟩
  reset s g _ := ⟨(grounded_initial s.config g).backdrop, (grounded_initial s.config g).overlay,
    (grounded_initial s.config g).carried⟩
  inSetup _ _ h := ⟨h.backdrop, h.overlay, h.carried⟩
  aged _ h := ⟨h.backdrop, List.forall_mem_nil _, h.overlay⟩
  drawn _ h := ⟨h.backdrop, List.forall_mem_nil _, List.forall_mem_nil _⟩
  point _ _ _ h := ⟨h.backdrop, h.overlay, h.carried⟩
  keys _ _ h := ⟨h.backdrop, h.overlay, h.carried⟩
  sounds _ h := ⟨h.backdrop, h.overlay, h.carried⟩
  assets _ _ h := ⟨h.backdrop, h.overlay, h.carried⟩

/-- What is painted below the entities. -/
def ground (s : Scene) : List Paint :=
  (s.background.map Paint.background).toList ++ s.backdrop ++ s.carried ++ s.overlay

theorem Grounded.ground {s : Scene} (h : s.Grounded) : ∀ p ∈ s.ground, p.isOfEntity = false := by
  have hbackground : ∀ p ∈ (s.background.map Paint.background).toList, p.isOfEntity = false := by
    intro p hp
    obtain ⟨c, -, rfl⟩ := Option.map_eq_some_iff.mp (Option.mem_toList.mp hp)
    rfl
  simp only [Scene.ground, List.forall_mem_append]
  exact ⟨⟨⟨hbackground, h.backdrop⟩, h.carried⟩, h.overlay⟩

end Scene

/-! ## 2. The log of a run -/

namespace Run

open Edit (Tells)

/-- The edits of an update. -/
def updateEdits (r : Run) : List Edit :=
  if r.isRunning then r.stage.edits r.script.perFrame else []

/-- The edits of a step of the clock. -/
def advanceEdits (r : Run) (dt : Duration) : List Edit :=
  if r.isRunning then
    match r.stage.scene.timers.advance dt with
    | .error _ => []
    | .ok (fired, timers) => (r.aged.withTimers timers).stage.edits fired
  else []

/-- The edits of what the person at the host does. -/
def inputEdits (r : Run) : Input → List Edit
  | .click x y => if r.isRunning then (r.pointed x y).stage.edits r.stage.scene.clicks else []
  | .keyDown _ | .keyUp _ => []

/-- The log when a call paints, or when it is over if it paints nothing. -/
def told (r : Run) (log : List Edit) : Call → List Edit
  | .setup | .preview _ => r.begun.stage.edits r.script.setup
  | .update => log ++ r.updateEdits
  | .advance dt => log ++ r.advanceEdits dt
  | .frame dt _ =>
    log ++ r.advanceEdits dt ++
      match r.advance dt with
      | .ok r => r.updateEdits
      | .error _ => []
  | .input i => log ++ r.inputEdits i
  | .stop | .load _ => []
  | .draw _ | .setAssets _ | .takeDiagnostics | .takeSounds => log

/-- The log behind a call; a preview stops the run when it has painted. -/
def toldBehind (r : Run) (log : List Edit) : Call → List Edit
  | .preview _ => []
  | c => r.told log c

/-- The log behind calls. -/
def edits (r : Run) (log : List Edit) : List Call → List Edit
  | [] => log
  | c :: cs =>
    match r.call c with
    | .ok (_, r') => r'.edits (r.toldBehind log c) cs
    | .error _ => log

/-! ## 3. The entities follow the log -/

/-- The entities of a run are as the log tells, and without a run there is nothing to tell. -/
structure Told (log : List Edit) (r : Run) : Prop where
  entities : Tells log r.stage.scene.entities
  rest : r.phase ≠ .running → log = []

variable {r r' : Run} {log : List Edit}

theorem told_new (script : Script) (config : RunConfig) : Told [] (new script config) :=
  ⟨.nil, fun _ => rfl⟩

theorem told_stop (r : Run) : Told [] r.stop := by
  refine ⟨?_, fun _ => rfl⟩
  rw [r.stop_scene]
  exact .nil

theorem told_of_setup (h : r.setup = .ok r') :
    Told (r.begun.stage.edits r.script.setup) r' := by
  obtain ⟨r₁, hrun, rfl⟩ := exists_of_setup h
  obtain ⟨stage, hstage, rfl⟩ := exists_of_carryOut hrun
  have hbegun : Tells [] r.begun.stage.scene.entities := .nil
  refine ⟨Stage.tells_of_runAll _ hstage hbegun, fun hrest => ?_⟩
  exact absurd rfl hrest

namespace Told

/-- Statements continue the log of a run that is running. -/
theorem carryOut (h : Tells log r.stage.scene.entities) (hphase : r.phase = .running)
    {sts : List Statement} (hrun : r.carryOut sts = .ok r') :
    Told (log ++ r.stage.edits sts) r' := by
  obtain ⟨stage, hstage, rfl⟩ := exists_of_carryOut hrun
  exact ⟨Stage.tells_of_runAll _ hstage h, fun hrest => absurd hphase hrest⟩

theorem update (h : Told log r) (hu : r.update = .ok r') : Told (log ++ r.updateEdits) r' := by
  rcases cases_of_update hu with ⟨hphase, hrun⟩ | ⟨hphase, rfl⟩
  · rw [updateEdits, if_pos (r.isRunning_iff.mpr hphase)]
    exact carryOut h.entities hphase hrun
  · rw [updateEdits, if_neg (mt r'.isRunning_iff.mp hphase), List.append_nil]
    exact h

theorem advance (h : Told log r) {dt : Duration} (ha : r.advance dt = .ok r') :
    Told (log ++ r.advanceEdits dt) r' := by
  rcases cases_of_advance ha with ⟨hphase, fired, ts, hts, hrun⟩ | ⟨hphase, rfl⟩
  · rw [advanceEdits, if_pos (r.isRunning_iff.mpr hphase), hts]
    exact carryOut (r := r.aged.withTimers ts) h.entities hphase hrun
  · rw [advanceEdits, if_neg (mt r'.isRunning_iff.mp hphase), List.append_nil]
    exact h

theorem input (h : Told log r) {i : Input} (hi : r.dispatch i = .ok r') :
    Told (log ++ r.inputEdits i) r' := by
  cases i with
  | keyDown key =>
    obtain rfl := Except.ok.inj hi
    rw [inputEdits, List.append_nil]
    exact ⟨h.entities, h.rest⟩
  | keyUp key =>
    obtain rfl := Except.ok.inj hi
    rw [inputEdits, List.append_nil]
    exact ⟨h.entities, h.rest⟩
  | click x y =>
    rcases cases_of_click hi with ⟨hphase, hrun⟩ | ⟨hphase, rfl⟩
    · rw [inputEdits, if_pos (r.isRunning_iff.mpr hphase)]
      exact carryOut (r := r.pointed x y) h.entities hphase hrun
    · rw [inputEdits, if_neg (mt r'.isRunning_iff.mp hphase), List.append_nil]
      exact h

theorem draw (h : Told log r) (ready : Ready) : Told log (r.draw ready).2 := by
  have hentities : (r.draw ready).2.stage.scene.entities = r.stage.scene.entities := by
    unfold Run.draw
    split <;> rfl
  refine ⟨hentities.symm ▸ h.entities, ?_⟩
  rw [r.phase_draw]
  exact h.rest

theorem frame (h : Told log r) {dt : Duration} {r₁ r₂ : Run} (ready : Ready)
    (ha : r.advance dt = .ok r₁) (hu : r₁.update = .ok r₂) :
    Told (r.told log (.frame dt ready)) r₂ := by
  simp only [told, ha]
  exact (h.advance ha).update hu

/-- **Every call keeps the entities in step with the log.** -/
theorem call (h : Told log r) {c : Call} {a : Answer} (hc : Called r c a r') :
    Told (r.toldBehind log c) r' := by
  cases hc with
  | setup hsetup => exact told_of_setup hsetup
  | update hu => exact h.update hu
  | advance ha => exact h.advance ha
  | draw ready => exact h.draw ready
  | frame ready ha hu => exact (h.frame ready ha hu).draw ready
  | preview ready hsetup => exact told_stop _
  | stop => exact told_stop r
  | load script => exact ⟨(told_stop r).entities, fun _ => rfl⟩
  | setAssets _ | takeDiagnostics | takeSounds => exact ⟨h.entities, h.rest⟩
  | input hi => exact h.input hi

theorem calls : ∀ (cs : List Call) {log : List Edit} {r r' : Run} {as : List Answer},
    Told log r → r.calls cs = .ok (as, r') → Told (r.edits log cs) r'
  | [], log, r, r', _, h, hcs => by
    obtain ⟨-, rfl⟩ := Prod.mk.inj (Except.ok.inj hcs)
    exact h
  | c :: cs, log, r, r', _, h, hcs => by
    obtain ⟨a, r₁, as₁, hc, hrest, -⟩ := exists_of_calls_cons hcs
    simp only [edits, hc]
    exact calls cs (h.call (called_of_call hc)) hrest

end Told

/-! ## 4. What a call paints of the entities -/

/-- The surface that a call paints on. -/
def Call.ready? : Call → Option Ready
  | .draw ready | .frame _ ready | .preview ready => some ready
  | _ => none

/-- A painting that the log accounts for: below the entities nothing of an entity, and above it
one stroke for each entity that is shown, in the order of the first declarations. -/
def Ordered (log : List Edit) (ready : Ready) (ps : List Paint) : Prop :=
  ∃ (below : List Paint) (entries : List (String × Entity)),
    ps = below ++ (entries.filter (·.2.isShown ready)).map (·.2.stroke) ∧
    (∀ p ∈ below, p.isOfEntity = false) ∧
    entries.map Prod.fst = Edit.firstDeclared log ∧ (entries.map Prod.fst).Nodup ∧
    ∀ p ∈ entries, Edit.Latest log p.1 p.2

theorem Told.ordered (h : Told log r) (hground : r.stage.scene.Grounded) (ready : Ready) :
    Ordered log ready (r.draw ready).1 := by
  unfold Run.draw
  split
  · refine ⟨r.stage.scene.ground, r.stage.scene.entities.entries, ?_, hground.ground,
      h.entities.names, h.entities.nodup, fun p hp => h.entities.latest_of_mem hp⟩
    rw [← Entities.paint_eq]
    rfl
  · rename_i hrunning
    obtain rfl := h.rest (mt r.isRunning_iff.mpr hrunning)
    exact ⟨[], [], rfl, List.forall_mem_nil _, rfl, List.nodup_nil, List.forall_mem_nil _⟩

theorem Told.ordered_of_called (h : Told log r) (hground : r.stage.scene.Grounded) {c : Call}
    {a : Answer} {ready : Ready} (hready : c.ready? = some ready) (hc : Called r c a r') :
    ∃ ps, a = .painted ps ∧ Ordered (r.told log c) ready ps := by
  have hstable := Scene.stable_grounded
  cases hc with
  | draw ready' =>
    obtain rfl : ready' = ready := Option.some.inj hready
    exact ⟨_, rfl, h.ordered hground ready'⟩
  | frame ready' ha hu =>
    obtain rfl : ready' = ready := Option.some.inj hready
    have hground₂ := hstable.of_update hu (hstable.of_advance ha hground)
    exact ⟨_, rfl, (h.frame ready' ha hu).ordered hground₂ ready'⟩
  | preview ready' hsetup =>
    obtain rfl : ready' = ready := Option.some.inj hready
    exact ⟨_, rfl, (told_of_setup hsetup).ordered (hstable.of_setup hsetup hground) ready'⟩
  | _ => simp [Call.ready?] at hready

/-- **Entities are painted in the order of their first declarations.**  Take any calls of a run
and behind them one that paints: a drawing, a frame or a preview.  It hands back a painting whose
upper part has one stroke for each name that was declared since the last setup, in the order of
the first declarations: the stroke of the entity as it was last declared and changed since.  Only
pictures that the surface has not ready are left out. -/
theorem entities_are_painted_in_order {script : Script} {config : RunConfig} {cs : List Call}
    {as : List Answer} {c : Call} {ready : Ready} {a : Answer}
    (h : (Run.new script config).calls cs = .ok (as, r)) (hready : c.ready? = some ready)
    (hc : r.call c = .ok (a, r')) :
    ∃ ps, a = .painted ps ∧
      Ordered (r.told ((Run.new script config).edits [] cs) c) ready ps := by
  have htold := (told_new script config).calls cs h
  have hground : r.stage.scene.Grounded :=
    Scene.stable_grounded.of_calls h (Scene.grounded_initial config _)
  exact htold.ordered_of_called hground hready (called_of_call hc)

/-- The names "box", "sky" and "sign": a picture that is missing in the setup and comes with a
click, and a box that a click turns into a label. -/
def signScript : Script :=
  let at1 : Point := ⟨.number 1.0, .number 1.0⟩
  let sky : Action := .declare "sky" (.image "sky.image" at1 (.number 2.0) (.number 2.0))
  let label (name : String) : Action := .declare name (.text "hi" at1 (.number 9.0) "#fff" "mono")
  ⟨[⟨1, .act (.declare "box" (.box (.number 1.0) (.number 1.0) (.number 2.0) (.number 2.0)))⟩,
    ⟨2, .act sky⟩, ⟨3, .act (label "sign")⟩, ⟨4, .act (.rotate "box" 45.0)⟩,
    ⟨5, .on .click (.act sky)⟩, ⟨6, .on .click (.act (label "box"))⟩,
    ⟨7, .on .click (.act (.setProperty "box" "x" (.number ⟨"7", .ok (.number 7.0)⟩)))⟩], []⟩

/-- The picture arrives between the setup and a click. -/
def signCalls : List Call :=
  [.setup, .setAssets ⟨[⟨"sky", "image/png", .empty⟩]⟩, .input (.click 1.0 1.0)]

theorem entities_are_painted_in_order_signScript :
    ∃ as r r' ps, (Run.new signScript (.seeded 0)).calls signCalls = .ok (as, r) ∧
      r.call (.draw fun _ => false) = .ok (.painted ps, r') ∧ ps.length = 2 ∧
      Edit.firstDeclared ((Run.new signScript (.seeded 0)).edits [] signCalls)
        = ["box", "sign", "sky"] ∧
      Ordered ((Run.new signScript (.seeded 0)).edits [] signCalls) (fun _ => false) ps := by
  have hrun : (match (Run.new signScript (.seeded 0)).calls signCalls with
      | .error _ => false
      | .ok (_, r) => (r.draw fun _ => false).1.length == 2 &&
        Edit.firstDeclared ((Run.new signScript (.seeded 0)).edits [] signCalls)
          == ["box", "sign", "sky"]) = true := by decide +kernel
  split at hrun
  · simp at hrun
  · rename_i as r hcalls
    simp only [Bool.and_eq_true, beq_iff_eq] at hrun
    obtain ⟨hlength, hnames⟩ := hrun
    obtain ⟨ps, hps, hordered⟩ :=
      entities_are_painted_in_order hcalls (c := .draw fun _ => false) rfl rfl
    obtain rfl := Answer.painted.inj hps
    exact ⟨as, r, _, _, hcalls, rfl, hlength, hnames, hordered⟩

end Run
end StageScript
