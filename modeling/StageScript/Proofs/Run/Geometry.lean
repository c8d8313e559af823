/-
# Geometry is finite

A variable may hold any number: `add` never looks at its sum, and a click hands over whatever
place the host names.  What stands on the canvas may not.  Every number that places or sizes a
stroke or an entity is the value of an expression, and the value of an expression is finite: one
that is not is reported and replaced by zero.

`measures` lists the numbers in question.  The rotation of a box is none of them, since it adds
up without an evaluation.  `Scene.Finite` says that all measures in a scene are finite.  Every
action keeps that up, because a measure behind an action is a value that the action evaluated or
a measure from before (`finite_perform`); and nothing else that a run does to its scene brings a
measure in (`stable_finite`).
-/
import StageScript.Proofs.Run.Calls
import StageScript.Proofs.Stage.Entities

namespace StageScript

/-! ## 1. Measures -/

/-- The numbers that place and size an entity. -/
def Entity.measures : Entity → List Float
  | box x y w h _ _ | image x y w h _ => [x, y, w, h]
  | label x y _ size _ _ => [x, y, size]

/-- The numbers that place and size a stroke. -/
def Paint.measures : Paint → List Float
  | background _ => []
  | rect x y w h _ _ | image _ x y w h => [x, y, w, h]
  | circle cx cy radius _ => [cx, cy, radius]
  | line x1 y1 x2 y2 width _ => [x1, y1, x2, y2, width]
  | text _ x y size _ _ => [x, y, size]

/-- All measures of an entity are finite. -/
def Entity.Finite (e : Entity) : Prop := ∀ x ∈ e.measures, x.isFinite = true

/-- All measures of a stroke are finite. -/
def Paint.Finite (p : Paint) : Prop := ∀ x ∈ p.measures, x.isFinite = true

/-- All measures in a scene are finite: those of the entities, and those of the strokes that
are kept. -/
structure Scene.Finite (s : Scene) : Prop where
  entities : ∀ p ∈ s.entities.entries, p.2.Finite
  backdrop : ∀ p ∈ s.backdrop, p.Finite
  overlay : ∀ p ∈ s.overlay, p.Finite
  carried : ∀ p ∈ s.carried, p.Finite

/-! ## 2. Values are finite -/

namespace Scene

variable (s : Scene) (line : Nat)

theorem isFinite_value (e : Expr) : (s.value line e).1.isFinite = true :=
  Expr.isFinite_evaluateAs s.entities s.vars line e.text e

theorem isFinite_place (p : Point) :
    (s.place line p).1.1.isFinite = true ∧ (s.place line p).1.2.isFinite = true :=
  ⟨s.isFinite_value line p.x, s.isFinite_value line p.y⟩

theorem isFinite_sourceValue (source : ExprSource) :
    (s.sourceValue line source).1.isFinite = true := by
  have hzero : (0 : Float).isFinite = true := by decide
  simp only [sourceValue, ExprSource.evaluate]
  split
  · exact Expr.isFinite_evaluateAs s.entities s.vars line _ _
  · exact hzero

end Scene

/-! ## 3. Entities -/

namespace Entity

variable {e e' : Entity} {v z : Float}

/-- A measure behind a change of a slot is the new number or was there before. -/
theorem mem_measures_setSlot {s : Slot} (h : e.setSlot? v s = some e') (hz : z ∈ e'.measures) :
    z = v ∨ z ∈ e.measures := by
  cases e <;> cases s <;> simp only [setSlot?, Option.some.injEq, reduceCtorEq] at h
  all_goals
    subst h
    simp only [measures, List.mem_cons, List.not_mem_nil, or_false] at hz ⊢
    grind

theorem mem_measures_setNumber {property : String} (h : e.setNumber property v = .ok e')
    (hz : z ∈ e'.measures) : z = v ∨ z ∈ e.measures := by
  unfold setNumber at h
  split at h
  · simp at h
  · split at h
    · rename_i hset
      obtain rfl := Except.ok.inj h
      exact mem_measures_setSlot hset hz
    · simp at h

theorem measures_setColor {c : Color} (h : e.setColor c = .ok e') : e'.measures = e.measures := by
  cases e <;> simp only [setColor, Except.ok.injEq, reduceCtorEq] at h
  all_goals
    subst h
    rfl

theorem measures_setText {t : String} (h : e.setText t = .ok e') : e'.measures = e.measures := by
  cases e <;> simp only [setText, Except.ok.injEq, reduceCtorEq] at h
  subst h
  rfl

theorem measures_rotate {degrees : Float} (h : e.rotate degrees = .ok e') :
    e'.measures = e.measures := by
  cases e <;> simp only [rotate, Except.ok.injEq, reduceCtorEq] at h
  subst h
  rfl

theorem measures_stroke (e : Entity) : e.stroke.measures = e.measures := by
  cases e <;> rfl

theorem finite_of_measures_eq (h : e'.measures = e.measures) (he : e.Finite) : e'.Finite := by
  intro z hz
  rw [h] at hz
  exact he z hz

end Entity

/-! ## 4. Actions -/

namespace Scene

variable {s : Scene} {line : Nat}

/-- A scene whose entities are other ones. -/
theorem Finite.withEntities (h : s.Finite) {es : Entities}
    (hes : ∀ p ∈ es.entries, p.2.Finite) : Finite { s with entities := es } :=
  ⟨hes, h.backdrop, h.overlay, h.carried⟩

theorem Finite.addStroke (h : s.Finite) {p : Paint} (hp : p.Finite) : (s.addStroke p).Finite := by
  unfold Scene.addStroke
  split
  · refine ⟨h.entities, ?_, h.overlay, h.carried⟩
    exact List.forall_mem_append.mpr ⟨h.backdrop, List.forall_mem_singleton.mpr hp⟩
  · refine ⟨h.entities, h.backdrop, ?_, h.carried⟩
    exact List.forall_mem_append.mpr ⟨h.overlay, List.forall_mem_singleton.mpr hp⟩

/-- A change of one entity that keeps its measures finite. -/
theorem Finite.alter (h : s.Finite) (name : String) {f : Entity → Except PropertyError Entity}
    (hf : ∀ e e', e.Finite → f e = .ok e' → e'.Finite) : (s.alter name f).Finite := by
  rcases s.cases_alter name f with ⟨e, e', hget, hchange, halter⟩ | ⟨-, halter⟩
  · have he : e.Finite := h.entities _ (Entities.mem_of_get? hget)
    rw [halter]
    refine h.withEntities fun p hp => ?_
    rcases Entities.mem_replace hp with rfl | hp
    · exact hf e e' he hchange
    · exact h.entities p hp
  · rw [halter]
    exact h

theorem Finite.declareEntity (h : s.Finite) (name : String) {e : Entity} (he : e.Finite)
    (notes : List Event) : (s.declareEntity name e notes).scene.Finite := by
  refine h.withEntities fun p hp => ?_
  rcases Entities.mem_insert hp with rfl | hp
  · exact he
  · exact h.entities p hp

theorem finite_declare (h : s.Finite) (name : String) (d : Declaration) :
    (s.declare line name d).scene.Finite := by
  cases d with
  | box x y w h' =>
    refine h.declareEntity name ?_ _
    simp only [Entity.Finite, Entity.measures, List.forall_mem_cons]
    exact ⟨s.isFinite_value line x, s.isFinite_value line y, s.isFinite_value line w,
      s.isFinite_value line h', List.forall_mem_nil _⟩
  | image path position w h' =>
    simp only [declare]
    split
    · exact h
    · refine h.declareEntity name ?_ _
      obtain ⟨hx, hy⟩ := s.isFinite_place line position
      simp only [Entity.Finite, Entity.measures, List.forall_mem_cons]
      exact ⟨hx, hy, s.isFinite_value line w, s.isFinite_value line h', List.forall_mem_nil _⟩
  | text text position size color font =>
    refine h.declareEntity name ?_ _
    obtain ⟨hx, hy⟩ := s.isFinite_place line position
    simp only [Entity.Finite, Entity.measures, List.forall_mem_cons]
    exact ⟨hx, hy, s.isFinite_value line size, List.forall_mem_nil _⟩
  | random range => exact ⟨h.entities, h.backdrop, h.overlay, h.carried⟩
  | number e => exact ⟨h.entities, h.backdrop, h.overlay, h.carried⟩

/-- The entity with another value of a property is finite. -/
theorem finite_withProperty {e e' : Entity} {property : String} {v : PropertyValue}
    (he : e.Finite) (h : (s.withProperty line e property v).1 = .ok e') : e'.Finite := by
  cases v with
  | number source =>
    intro z hz
    rcases Entity.mem_measures_setNumber h hz with rfl | hz
    · exact s.isFinite_sourceValue line source
    · exact he z hz
  | color token => exact Entity.finite_of_measures_eq (Entity.measures_setColor h) he
  | text text => exact Entity.finite_of_measures_eq (Entity.measures_setText h) he
  | unknown text => simp [withProperty] at h

theorem finite_setProperty (h : s.Finite) (entity property : String) (v : PropertyValue) :
    (s.setProperty line entity property v).scene.Finite := by
  rw [setProperty_scene]
  exact h.alter entity fun _ _ he hv => finite_withProperty he hv

theorem finite_rotate (h : s.Finite) (entity : String) (degrees : Float) :
    (s.perform line (.rotate entity degrees)).scene.Finite := by
  rw [rotate_scene]
  exact h.alter entity fun _ _ he hr => Entity.finite_of_measures_eq (Entity.measures_rotate hr) he

/-- **Every action keeps the measures finite.** -/
theorem finite_perform (h : s.Finite) (a : Action) : (s.perform line a).scene.Finite := by
  have hsame : ∀ {s' : Scene}, s'.entities = s.entities → s'.backdrop = s.backdrop →
      s'.overlay = s.overlay → s'.carried = s.carried → s'.Finite := by
    intro s' hentities hbackdrop hoverlay hcarried
    exact ⟨hentities ▸ h.entities, hbackdrop ▸ h.backdrop, hoverlay ▸ h.overlay,
      hcarried ▸ h.carried⟩
  cases a with
  | say text => exact h
  | setColor token => exact hsame rfl rfl rfl rfl
  | setBackground token => exact hsame rfl rfl rfl rfl
  | random range => exact hsame rfl rfl rfl rfl
  | drawCircle center radius =>
    refine h.addStroke ?_
    obtain ⟨hx, hy⟩ := s.isFinite_place line center
    simp only [Paint.Finite, Paint.measures, List.forall_mem_cons]
    exact ⟨hx, hy, s.isFinite_value line radius, List.forall_mem_nil _⟩
  | drawLine start finish width =>
    refine h.addStroke ?_
    obtain ⟨hx₁, hy₁⟩ := s.isFinite_place line start
    obtain ⟨hx₂, hy₂⟩ := s.isFinite_place line finish
    simp only [Paint.Finite, Paint.measures, List.forall_mem_cons]
    exact ⟨hx₁, hy₁, hx₂, hy₂, s.isFinite_value line width, List.forall_mem_nil _⟩
  | playSound path =>
    simp only [perform]
    split
    · exact h
    · exact hsame rfl rfl rfl rfl
  | declare name d => exact finite_declare h name d
  | assign name source =>
    simp only [perform]
    split
    · exact hsame rfl rfl rfl rfl
    · exact h
  | setProperty entity property v => exact finite_setProperty h entity property v
  | add name amount =>
    simp only [perform]
    split
    · exact h
    · exact hsame rfl rfl rfl rfl
  | rotate entity degrees => exact finite_rotate h entity degrees

end Scene

/-! ## 5. Runs -/

namespace Scene

theorem finite_initial (config : RunConfig) (g : Generator) : (initial config g).Finite := by
  constructor <;> exact fun _ h => absurd h List.not_mem_nil

/-- Nothing that a call does to a scene brings in a measure that is not finite. -/
theorem stable_finite : Stable Finite where
  perform _ _ a h := finite_perform h a
  listen _ _ h := ⟨h.entities, h.backdrop, h.overlay, h.carried⟩
  timers _ _ h := ⟨h.entities, h.backdrop, h.overlay, h.carried⟩
  reset s g _ := ⟨(finite_initial s.config g).entities, (finite_initial s.config g).backdrop,
    (finite_initial s.config g).overlay, (finite_initial s.config g).carried⟩
  inSetup _ _ h := ⟨h.entities, h.backdrop, h.overlay, h.carried⟩
  aged _ h := ⟨h.entities, h.backdrop, fun _ hp => absurd hp List.not_mem_nil, h.overlay⟩
  drawn _ h := ⟨h.entities, h.backdrop, fun _ hp => absurd hp List.not_mem_nil,
    fun _ hp => absurd hp List.not_mem_nil⟩
  point _ _ _ h := ⟨h.entities, h.backdrop, h.overlay, h.carried⟩
  keys _ _ h := ⟨h.entities, h.backdrop, h.overlay, h.carried⟩
  sounds _ h := ⟨h.entities, h.backdrop, h.overlay, h.carried⟩
  assets _ _ h := ⟨h.entities, h.backdrop, h.overlay, h.carried⟩

/-- A scene with finite measures paints strokes with finite measures. -/
theorem Finite.painted {s : Scene} (h : s.Finite) (ready : Ready) :
    ∀ p ∈ s.painted ready, p.Finite := by
  have hbackground : ∀ p ∈ (s.background.map Paint.background).toList, p.Finite := by
    intro p hp
    obtain ⟨c, -, rfl⟩ := Option.map_eq_some_iff.mp (Option.mem_toList.mp hp)
    exact fun _ hz => absurd hz List.not_mem_nil
  have hentities : ∀ p ∈ s.entities.paint ready, p.Finite := by
    intro p hp
    rw [Entities.paint_eq] at hp
    obtain ⟨q, hq, rfl⟩ := List.mem_map.mp hp
    intro z hz
    rw [Entity.measures_stroke] at hz
    exact h.entities q (List.mem_filter.mp hq).1 z hz
  simp only [Scene.painted, List.forall_mem_append]
  exact ⟨⟨⟨⟨hbackground, h.backdrop⟩, h.carried⟩, h.overlay⟩, hentities⟩

end Scene

namespace Run

/-- The strokes that an answer hands back. -/
def Answer.strokes : Answer → List Paint
  | .painted ps => ps
  | _ => []

variable {r r' : Run} {c : Call} {a : Answer}

theorem finite_draw (h : r.stage.scene.Finite) (ready : Ready) :
    ∀ p ∈ (r.draw ready).1, p.Finite := by
  unfold draw
  split
  · exact h.painted ready
  · exact fun _ hp => absurd hp List.not_mem_nil

/-- What a call paints on a scene with finite measures has finite measures. -/
theorem finite_strokes (hc : Called r c a r') (h : r.stage.scene.Finite) :
    ∀ p ∈ a.strokes, p.Finite := by
  have hstable := Scene.stable_finite
  cases hc with
  | draw ready => exact finite_draw h ready
  | frame ready ha hu => exact finite_draw (hstable.of_update hu (hstable.of_advance ha h)) ready
  | preview ready hsetup => exact finite_draw (hstable.of_setup hsetup h) ready
  | _ => exact fun _ hp => absurd hp List.not_mem_nil

/-- **Geometry stays finite.**  Whatever the script, the settings and the calls of the host, the
measures in the scene are finite, in the state behind the calls as well as in the one where a
time went beyond the longest duration; and so are those of all strokes that were painted on the
way. -/
theorem geometry_stays_finite (script : Script) (config : RunConfig) (cs : List Call) :
    match (Run.new script config).calls cs with
    | .ok (as, r) => r.stage.scene.Finite ∧ ∀ a ∈ as, ∀ p ∈ a.strokes, p.Finite
    | .error o => o.stage.scene.Finite := by
  have hnew : (Run.new script config).stage.scene.Finite := Scene.finite_initial config _
  have hleft := Scene.stable_finite.left_calls cs hnew
  split
  · rename_i as r hcs
    rw [hcs] at hleft
    refine ⟨hleft, ?_⟩
    refine of_answers (P := fun r => r.stage.scene.Finite) (fun hc hr => ⟨?_, ?_⟩) cs hcs hnew
    · exact finite_strokes hc hr
    · exact Scene.stable_finite.of_called hc hr
  · rename_i o hcs
    rw [hcs] at hleft
    exact hleft

/-- A box that goes to the place of each click. -/
def followScript : Script :=
  ⟨[⟨1, .act (.declare "b" (.box (.number 1.0) (.number 2.0) (.number 3.0) (.number 4.0)))⟩,
    ⟨2, .on .click (.act (.setProperty "b" "x" (.number ⟨"mouseX", .ok (.var "mouseX")⟩)))⟩], []⟩

/-- A click at no number: the variable takes it, and the box goes to zero. -/
example : (Run.new followScript (.seeded 0)).endsIn [.setup, .input (.click (0 / 0) 5.0)]
    (fun r => (r.stage.scene.vars.get? "mouseX").any (·.isNaN) &&
      ((r.stage.scene.entities.get? "b").bind (·.slot? .x)).any (· == 0)) = true := by
  decide +kernel

end Run
end StageScript
