/-
# The recorded first frame

A preview records the first frame of a run, and the run is stopped before anyone sees it.  When the
recording is painted later, it paints what a setup and a drawing would have painted on the same
surface (`recording_replays_as_painted`), be it by the run as it was, by a new one, or by the one
that was stopped.

Two invariants carry this.  Strokes that are kept are no pictures (`Scene.Grounded`), so they are
painted whatever pictures are ready.  And behind a setup the picture of every entity is the one
that the library has under its name (`Scene.Illustrated`), so a name stands for one picture.
-/
import StageScript.Proofs.Canvas.Recording
import StageScript.Proofs.Run.Anew
import StageScript.Proofs.Run.DrawOrder
import StageScript.Proofs.Run.Overflow

namespace StageScript

/-! ## 1. Pictures of entities -/

namespace Scene

variable {s : Scene} {library : Library} {line : Nat} {name : String}

/-- An asset is found under its own name. -/
theorem find?_of_findAsset {use : AssetUse} {path : String} {a : Asset}
    (h : s.findAsset use path = .ok a) : s.assets.find? a.name = some a := by
  simp only [findAsset] at h
  split at h
  · split at h
    · rename_i b hfind
      split at h
      · obtain rfl := Except.ok.inj h
        have hname := hfind
        rw [Library.find?] at hname
        rwa [Paint.name_of_find? hname]
      · simp at h
    · simp at h
  · simp at h

/-- A change of an entity leaves it its picture. -/
theorem asset?_of_apply {a : Alteration} {e e' : Entity} (h : a.apply e = .ok e') :
    e'.asset? = e.asset? := by
  have honto : a.onto e = e' := by rw [Alteration.onto, h]
  rw [← honto]
  exact (Entity.views_onto e a).2.2.2.2

/-- The scene has these assets, and the pictures of its entities are among them. -/
structure Illustrated (library : Library) (s : Scene) : Prop where
  assets : s.assets = library
  pictures : ∀ p ∈ s.entities.entries, ∀ a, p.2.asset? = some a → library.find? a.name = some a

namespace Illustrated

theorem of_entities {s' : Scene} (h : s.Illustrated library) (hassets : s'.assets = s.assets)
    (hentities : s'.entities = s.entities) : s'.Illustrated library := by
  refine ⟨hassets.trans h.assets, ?_⟩
  rw [hentities]
  exact h.pictures

theorem declareEntity (h : s.Illustrated library) (name : String) {e : Entity}
    (he : ∀ a, e.asset? = some a → library.find? a.name = some a) (notes : List Event) :
    (s.declareEntity name e notes).scene.Illustrated library := by
  refine ⟨h.assets, fun p hp => ?_⟩
  rcases Entities.mem_insert hp with rfl | hp
  · exact he
  · exact h.pictures p hp

theorem declare (h : s.Illustrated library) (name : String) (d : Declaration) :
    (s.declare line name d).scene.Illustrated library := by
  cases d with
  | box x y w h' => exact h.declareEntity name (fun a ha => by simp [Entity.asset?] at ha) _
  | image path position w h' =>
    simp only [Scene.declare]
    cases hfind : s.findAsset .picture path with
    | error c => exact h
    | ok asset =>
      refine h.declareEntity name (fun a ha => ?_) _
      obtain rfl : asset = a := Option.some.inj ha
      rw [← h.assets]
      exact find?_of_findAsset hfind
  | text text position size color font =>
    exact h.declareEntity name (fun a ha => by simp [Entity.asset?] at ha) _
  | random range => exact h.of_entities rfl rfl
  | number e => exact h.of_entities rfl rfl

theorem alter (h : s.Illustrated library) (name : String)
    {f : Entity → Except PropertyError Entity}
    (hf : ∀ e e', f e = .ok e' → e'.asset? = e.asset?) : (s.alter name f).Illustrated library := by
  rcases s.cases_alter name f with ⟨e, e', hget, he', halter⟩ | ⟨-, halter⟩
  · rw [halter]
    refine ⟨h.assets, fun p hp => ?_⟩
    rcases Entities.mem_replace hp with rfl | hp
    · rw [hf e e' he']
      exact h.pictures _ (Entities.mem_of_get? hget)
    · exact h.pictures p hp
  · rw [halter]
    exact h

/-- **An action takes pictures from the library alone.** -/
theorem perform (h : s.Illustrated library) (line : Nat) (a : Action) :
    (s.perform line a).scene.Illustrated library := by
  have hassets := (s.perform_frame line a).assets
  cases a with
  | declare name d => exact h.declare name d
  | setProperty name property v =>
    simp only [Scene.perform, setProperty_scene]
    refine h.alter name fun e e' he' => ?_
    rw [withProperty_fst] at he'
    split at he'
    · exact asset?_of_apply he'
    · simp at he'
  | rotate name degrees =>
    rw [rotate_scene]
    exact h.alter name fun e e' he' => asset?_of_apply (a := .turn degrees) he'
  | drawCircle center radius => exact h.of_entities hassets (s.addStroke_entities _)
  | drawLine start finish width => exact h.of_entities hassets (s.addStroke_entities _)
  | say | setColor | setBackground | random => exact h.of_entities hassets rfl
  | playSound path =>
    refine h.of_entities hassets ?_
    simp only [Scene.perform]
    split <;> rfl
  | assign name source =>
    refine h.of_entities hassets ?_
    simp only [Scene.perform]
    split <;> rfl
  | add name amount =>
    refine h.of_entities hassets ?_
    simp only [Scene.perform]
    split <;> rfl

end Illustrated

/-- As long as the library stays the same, every call takes pictures from it alone. -/
theorem upheld_illustrated (library : Library) : Upheld (Illustrated library) where
  perform _ line a h := h.perform line a
  listen _ _ h := h.of_entities rfl rfl
  timers _ _ h := h.of_entities rfl rfl
  reset _ _ h := ⟨h.assets, List.forall_mem_nil _⟩
  inSetup _ _ h := h.of_entities rfl rfl
  aged _ h := h.of_entities rfl rfl
  drawn _ h := h.of_entities rfl rfl
  point _ _ _ h := h.of_entities rfl rfl
  keys _ _ h := h.of_entities rfl rfl
  sounds _ h := h.of_entities rfl rfl

/-! ## 2. Drawings and recordings -/

open Paint (isPaintable Agree)

theorem picture?_of_isOfEntity {p : Paint} (h : p.isOfEntity = false) : p.picture? = none := by
  cases p <;> first | rfl | simp [Paint.isOfEntity] at h

theorem picture?_stroke (e : Entity) : e.stroke.picture? = e.asset? := by
  cases e <;> rfl

theorem isPaintable_stroke (ready : Ready) (e : Entity) :
    isPaintable ready e.stroke = e.isShown ready := by
  cases e <;> rfl

theorem painted_eq (s : Scene) (ready : Ready) :
    s.painted ready = s.ground ++ s.entities.paint ready := rfl

/-- A drawing leaves out the pictures that are not ready. -/
theorem painted_eq_filter (hground : s.Grounded) (ready : Ready) :
    s.painted ready = (s.painted .always).filter (isPaintable ready) := by
  have hkept : s.ground.filter (isPaintable ready) = s.ground := by
    rw [List.filter_eq_self]
    intro p hp
    rw [isPaintable, picture?_of_isOfEntity (hground.ground p hp)]
    rfl
  have hall : s.entities.entries.filter (·.2.isShown .always) = s.entities.entries := by
    rw [List.filter_eq_self]
    intro p _
    rw [← isPaintable_stroke, Paint.isPaintable_always]
  rw [painted_eq, painted_eq, List.filter_append, hkept, Entities.paint_eq, Entities.paint_eq, hall,
    List.filter_map]
  refine congrArg (fun es => s.ground ++ List.map _ es) (List.filter_congr fun p _ => ?_)
  exact (isPaintable_stroke ready p.2).symm

/-- In a drawing a name stands for one picture. -/
theorem Illustrated.agree (h : s.Illustrated library) (hground : s.Grounded) :
    Agree (s.painted .always) := by
  have hfind (a : Asset) (ha : a ∈ Paint.pictures (s.painted .always)) :
      library.find? a.name = some a := by
    obtain ⟨p, hp, hpicture⟩ := List.mem_filterMap.mp ha
    rw [painted_eq, List.mem_append, Entities.paint_eq] at hp
    rcases hp with hp | hp
    · rw [picture?_of_isOfEntity (hground.ground p hp)] at hpicture
      simp at hpicture
    · obtain ⟨q, hq, rfl⟩ := List.mem_map.mp hp
      rw [picture?_stroke] at hpicture
      exact h.pictures q (List.mem_of_mem_filter hq) a hpicture
  intro a ha b hb hname
  have hsame := hfind a ha
  rw [hname, hfind b hb] at hsame
  exact (Option.some.inj hsame).symm

/-- **A recorded drawing paints what the drawing would have painted.** -/
theorem Illustrated.replay (h : s.Illustrated library) (hground : s.Grounded) (ready : Ready) :
    (DrawList.empty.paintAll (s.painted .always)).replay ready = s.painted ready := by
  rw [DrawList.replay_of_agree (h.agree hground), ← painted_eq_filter hground]

end Scene

/-! ## 3. Previews -/

namespace Run

variable {r r' : Run} {script : Script} {config : RunConfig}

/-- Behind a setup the scene has nothing but what the setup put there. -/
theorem grounded_of_setup (h : r.setup = .ok r') : r'.stage.scene.Grounded := by
  obtain ⟨r₁, hcarry, rfl⟩ := exists_of_setup h
  have hbegun : r.begun.stage.scene.Grounded :=
    ⟨List.forall_mem_nil _, List.forall_mem_nil _, List.forall_mem_nil _⟩
  exact Scene.stable_grounded.inSetup _ false (Scene.stable_grounded.of_carryOut hcarry hbegun)

theorem illustrated_of_setup (h : r.setup = .ok r') :
    r'.stage.scene.Illustrated r.stage.scene.assets := by
  obtain ⟨r₁, hcarry, rfl⟩ := exists_of_setup h
  have hbegun : r.begun.stage.scene.Illustrated r.stage.scene.assets :=
    ⟨rfl, List.forall_mem_nil _⟩
  have hupheld := Scene.upheld_illustrated r.stage.scene.assets
  exact hupheld.inSetup _ false (hupheld.of_carryOut hcarry hbegun)

/-- The first frame, recorded and painted later. -/
theorem replay_of_setup (h : r.setup = .ok r') (ready : Ready) :
    (DrawList.empty.paintAll (r'.draw .always).1).replay ready = (r'.draw ready).1 := by
  have hrunning : r'.isRunning = true := by
    obtain ⟨r₁, hcarry, rfl⟩ := exists_of_setup h
    exact (isRunning_iff _).mpr (phase_of_carryOut hcarry)
  simp only [draw, if_pos hrunning]
  exact (illustrated_of_setup h).replay (grounded_of_setup h) ready

/-- Two runs with the same script, the same settings with a seed, and the same assets have the same
first frame. -/
theorem exists_same_frame {q : Run} {seed : UInt64} (hseed : r.stage.scene.config.seed = some seed)
    (hanew : q.anew 0 = r.anew 0) (h : r.setup = .ok r') :
    ∃ q', q.setup = .ok q' ∧ ∀ ready, (q'.draw ready).1 = (r'.draw ready).1 := by
  have htwins (p : Run) (hp : p.anew 0 = r.anew 0) :
      Matched (Twins p.stage.scene.timers.nextId p.waiting) p.setup (r.anew 0).setup := by
    have hconfig : (p.anew 0).stage.scene.config = (r.anew 0).stage.scene.config := by rw [hp]
    have hseed' : p.stage.scene.config.seed = some seed :=
      (congrArg RunConfig.seed hconfig).trans hseed
    rw [← hp]
    exact setup_anew fun n => congrFun (generators_anew hseed' 0) (n + 1)
  obtain ⟨q', hq', -⟩ := q.exists_setup
  have hr := htwins r rfl
  have hq := htwins q hanew
  rw [h] at hr
  rw [hq'] at hq
  obtain ⟨f, hf, hrf⟩ := hr.exists_of_ok
  obtain ⟨f', hf', hqf⟩ := hq.exists_of_ok
  obtain rfl : f = f' := Except.ok.inj (hf.symm.trans hf')
  exact ⟨q', hq', fun ready => (hqf.draw ready).1.trans (hrf.draw ready).1.symm⟩

/-- A preview leaves the script, the settings and the assets as they were. -/
theorem anew_of_preview (h : r.setup = .ok r') (ready : Ready) (k : Nat) :
    (r'.draw ready).2.stop.anew k = r.anew k := by
  have hsetup := follows_of_setup h
  have hdraw := hsetup.trans (follows_draw hsetup.traced ready)
  have hscript := (hdraw.trans (follows_stop _)).script
  have hconfig : (r'.draw ready).2.stop.stage.scene.config = r.stage.scene.config := by
    have hstable := Scene.stable_config r.stage.scene.config
    exact hstable.of_stop (hstable.of_draw ready (hstable.of_setup h rfl))
  have hassets : (r'.draw ready).2.stop.stage.scene.assets = r.stage.scene.assets := by
    have hupheld := Scene.upheld_illustrated r.stage.scene.assets
    exact (hupheld.of_stop (hupheld.of_draw ready (illustrated_of_setup h))).assets
  rw [anew, hscript, hconfig, hassets, anew]

/-- **A recorded first frame is painted as it would have been painted directly.**  Take any run, and
record a preview of it on an empty recording.  Painted on a surface, the recording makes the strokes
that a setup and a drawing on that surface make, whatever pictures are ready there: those of the
same run, of a new run with the same script and assets, and of the run that the preview has stopped.
And painted on an empty recording, any recording comes out again. -/
theorem recording_replays_as_painted {seed : UInt64} {history : List Call} {before : List Answer}
    (h : (Run.new script { config with seed := some seed }).calls history = .ok (before, r)) :
    (∃ ps stopped, r.preview DrawList.empty.ready = .ok (ps, stopped)
        ∧ ∀ q ∈ [r, r.anew 0, stopped], ∃ q', q.setup = .ok q'
          ∧ ∀ ready, (DrawList.empty.paintAll ps).replay ready = (q'.draw ready).1)
      ∧ ∀ l, DrawList.Recorded l →
          DrawList.empty.paintAll (l.replay DrawList.empty.ready) = { l with pending := [] } := by
  refine ⟨?_, fun l hl => hl.paintAll_replay⟩
  have hseed : r.stage.scene.config.seed = some seed := congrArg RunConfig.seed (config_of_calls h)
  obtain ⟨r', hsetup, -⟩ := r.exists_setup
  refine ⟨_, _, by rw [preview_eq, hsetup]; rfl, ?_⟩
  have hframe (q : Run) (hanew : q.anew 0 = r.anew 0) : ∃ q', q.setup = .ok q' ∧ ∀ ready,
        (DrawList.empty.paintAll (r'.draw DrawList.empty.ready).1).replay ready
          = (q'.draw ready).1 := by
    obtain ⟨q', hq', hsame⟩ := exists_same_frame hseed hanew hsetup
    exact ⟨q', hq', fun ready => (replay_of_setup hsetup ready).trans (hsame ready).symm⟩
  simp only [List.forall_mem_cons]
  exact ⟨hframe r rfl, hframe (r.anew 0) rfl, hframe _ (anew_of_preview hsetup _ 0),
    List.forall_mem_nil _⟩

/-- A script with a picture, a box above it and a circle below both. -/
def framedScript : Script :=
  let origin : Point := ⟨.number 0.0, .number 0.0⟩
  ⟨[⟨1, .act (.declare "sky" (.image "sky.image" origin (.number 8.0) (.number 6.0)))⟩,
    ⟨2, .act (.declare "box" (.box (.number 1.0) (.number 1.0) (.number 2.0) (.number 2.0)))⟩,
    ⟨3, .act (.drawCircle origin (.number 3.0))⟩], []⟩

/-- The picture is recorded, and left out where it is not ready. -/
theorem recording_replays_as_painted_framedScript :
    ∃ before r ps stopped again,
      (Run.new framedScript (.seeded 7)).calls
          [.setAssets ⟨[⟨"sky", "image/png", .empty⟩]⟩] = .ok (before, r)
        ∧ r.preview DrawList.empty.ready = .ok (ps, stopped) ∧ stopped.setup = .ok again
        ∧ ps.length = 3 ∧ (again.draw fun _ => false).1.length = 2
        ∧ ∀ ready, (DrawList.empty.paintAll ps).replay ready = (again.draw ready).1 := by
  have hrun : (Run.new framedScript (.seeded 7)).endsIn
      [.setAssets ⟨[⟨"sky", "image/png", .empty⟩]⟩] (fun r =>
        passes (r.preview DrawList.empty.ready) fun x => x.1.length == 3
          && ((DrawList.empty.paintAll x.1).replay fun _ => false).length == 2) = true := by
    decide +kernel
  obtain ⟨before, r, hcalls, htest⟩ := exists_of_endsIn hrun
  obtain ⟨⟨ps, stopped, hpreview, hframes⟩, -⟩ := recording_replays_as_painted hcalls
  obtain ⟨again, hagain, hsame⟩ := hframes stopped (by simp)
  rw [hpreview] at htest
  simp only [passes, Bool.and_eq_true, beq_iff_eq] at htest
  obtain ⟨hlength, hleft⟩ := htest
  rw [hsame] at hleft
  exact ⟨before, r, ps, stopped, again, hcalls, hpreview, hagain, hlength, hleft, hsame⟩

end Run
end StageScript
