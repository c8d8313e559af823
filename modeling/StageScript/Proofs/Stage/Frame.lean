/-
# What a command leaves alone

An action changes entities, variables, colors, strokes, sounds and the generator.  It neither
reads nor writes the timers and the carried strokes, and it puts strokes behind the overlay without
looking at those that are there: carried out on a scene with other timers, other carried strokes
and older strokes beneath the overlay it does the same (`perform_atop`).  Nor does it touch the
settings, the assets, the listeners, the keys or the flag of the setup (`perform_frame`).

Listeners and timers come from commands, and a command adds at most one of them.  So a property
of scenes that survives every action, a listener at the end of the list and a registered timer
survives any list of statements (`scene_of_runAll`), those included that go beyond the longest
duration (`scene_of_overflow`).
-/
import StageScript.Proofs.Stage.Changes
import StageScript.Proofs.Stage.Steps

namespace StageScript

/-! ## 1. What an action does not see -/

namespace Scene

/-- The scene with other timers. -/
def withTimers (s : Scene) (ts : Timers) : Scene := { s with timers := ts }

/-- The scene with other timers, other carried strokes, and older strokes beneath its overlay. -/
def atop (ts : Timers) (carried older : List Paint) (s : Scene) : Scene :=
  { s with timers := ts, carried := carried, overlay := older ++ s.overlay }

/-- The same outcome on another scene. -/
def Outcome.onScene (f : Scene → Scene) (o : Outcome) : Outcome := { o with scene := f o.scene }

variable (ts : Timers) (carried older : List Paint)

theorem addStroke_atop (s : Scene) (p : Paint) :
    (s.atop ts carried older).addStroke p = (s.addStroke p).atop ts carried older := by
  cases hsetup : s.inSetup with
  | true => simp only [addStroke, atop, hsetup, if_true]
  | false =>
    -- the stroke comes behind the older ones as well
    simp only [addStroke, atop, hsetup, Bool.false_eq_true, if_false, List.append_assoc]

theorem findAsset_atop (s : Scene) (use : AssetUse) (path : String) :
    (s.atop ts carried older).findAsset use path = s.findAsset use path := rfl

theorem declare_atop (s : Scene) (line : Nat) (name : String) (d : Declaration) :
    (s.atop ts carried older).declare line name d
      = (s.declare line name d).onScene (.atop ts carried older) := by
  cases d with
  | box x y w h => rfl
  | image path position w h =>
    simp only [declare, findAsset_atop]
    cases s.findAsset .picture path <;> rfl
  | text text position size color font => rfl
  | random range => rfl
  | number e => rfl

theorem setProperty_atop (s : Scene) (line : Nat) (entity property : String)
    (v : PropertyValue) :
    (s.atop ts carried older).setProperty line entity property v
      = (s.setProperty line entity property v).onScene (.atop ts carried older) := by
  have hentities : (s.atop ts carried older).entities = s.entities := rfl
  have hproperty : ∀ e, (s.atop ts carried older).withProperty line e property v
      = s.withProperty line e property v := fun _ => by cases v <;> rfl
  simp only [setProperty, hentities, hproperty]
  cases s.entities.get? entity with
  | none => rfl
  | some e =>
    simp only
    rcases s.withProperty line e property v with ⟨⟨_ | _⟩ | e', shown, notes⟩ <;> rfl

/-- **An action sees neither the timers nor the strokes that are there.** -/
theorem perform_atop (s : Scene) (line : Nat) (a : Action) :
    (s.atop ts carried older).perform line a
      = (s.perform line a).onScene (.atop ts carried older) := by
  have hvars : (s.atop ts carried older).vars = s.vars := rfl
  have hentities : (s.atop ts carried older).entities = s.entities := rfl
  cases a with
  | say text => rfl
  | setColor token => rfl
  | setBackground token => rfl
  | drawCircle center radius =>
    exact congrArg (fun x => Outcome.mk x _ _) (addStroke_atop ts carried older s _)
  | drawLine start finish width =>
    exact congrArg (fun x => Outcome.mk x _ _) (addStroke_atop ts carried older s _)
  | playSound path =>
    simp only [perform, findAsset_atop]
    cases s.findAsset .sound path <;> rfl
  | declare name d => exact declare_atop ts carried older s line name d
  | assign name source =>
    simp only [perform, hvars]
    split <;> rfl
  | setProperty entity property v =>
    exact setProperty_atop ts carried older s line entity property v
  | add name amount =>
    simp only [perform, hvars]
    cases s.vars.get? name <;> rfl
  | random range => rfl
  | rotate entity degrees =>
    simp only [perform, hentities]
    cases s.entities.get? entity with
    | none => rfl
    | some e =>
      simp only
      cases e.rotate degrees <;> rfl

/-! ## 2. The frame of an action -/

/-- The parts of a scene that no action changes. -/
structure Framed (s s' : Scene) : Prop where
  config : s'.config = s.config
  assets : s'.assets = s.assets
  timers : s'.timers = s.timers
  clicks : s'.clicks = s.clicks
  keys : s'.keys = s.keys
  carried : s'.carried = s.carried
  inSetup : s'.inSetup = s.inSetup

theorem Framed.refl (s : Scene) : Framed s s := ⟨rfl, rfl, rfl, rfl, rfl, rfl, rfl⟩

theorem addStroke_frame (s : Scene) (p : Paint) : Framed s (s.addStroke p) := by
  unfold addStroke
  split
  · exact ⟨rfl, rfl, rfl, rfl, rfl, rfl, rfl⟩
  · exact ⟨rfl, rfl, rfl, rfl, rfl, rfl, rfl⟩

theorem Change.framed {s s' : Scene} {line : Nat} {a : Action} (h : Change s line a s') :
    Framed s s' := by
  cases h with
  | none => exact .refl s
  | stroke => exact addStroke_frame s _
  | _ => exact ⟨rfl, rfl, rfl, rfl, rfl, rfl, rfl⟩

/-- **What no action changes.** -/
theorem perform_frame (s : Scene) (line : Nat) (a : Action) :
    Framed s (s.perform line a).scene :=
  (s.perform_change line a).framed

/-- An action does the same on a scene with other timers. -/
theorem perform_withTimers (s : Scene) (ts : Timers) (line : Nat) (a : Action) :
    (s.withTimers ts).perform line a = (s.perform line a).onScene (·.withTimers ts) := by
  have hcarried : (s.perform line a).scene.carried = s.carried := (s.perform_frame line a).carried
  have hatop : (s.withTimers ts).perform line a
      = (s.perform line a).onScene (.atop ts s.carried []) := perform_atop ts s.carried [] s line a
  rw [hatop, ← hcarried]
  rfl

end Scene

/-! ## 3. The frame of statements -/

namespace Stage

@[simp] theorem log_scene (s : Stage) (e : Event) : (s.log e).scene = s.scene := rfl

/-- What survives every action and every registration survives a command. -/
theorem Executed.scene {P : Scene → Prop} {line : Nat} {c : Command} {s s' : Stage}
    {result : Except RunError (Option Float)} (h : Executed line c s s' result)
    (hact : ∀ s a, P s → P (s.perform line a).scene)
    (hclick : ∀ s c, P s → P { s with clicks := s.clicks ++ [⟨line, c⟩] })
    (htimer : ∀ s ts, P s → P (s.withTimers ts)) : P s.scene → P s'.scene := by
  induction h with
  | act a s => exact hact s.scene a
  | listen c s => exact hclick s.scene c
  | refused c s _ => exact id
  | register _ _ => exact htimer _ _
  | up c s _ => exact id
  | down _ _ ih => exact ih

/-- **What survives every action and every registration survives any list of statements.** -/
theorem scene_of_runAll {P : Scene → Prop}
    (hact : ∀ s line a, P s → P (s.perform line a).scene)
    (hclick : ∀ s st, P s → P { s with clicks := s.clicks ++ [st] })
    (htimer : ∀ s ts, P s → P (s.withTimers ts)) :
    ∀ (sts : List Statement) {s s' : Stage}, runAll sts s = .ok s' → P s.scene → P s'.scene
  | [], s, s', h, hs => by
    obtain rfl := Except.ok.inj h
    exact hs
  | st :: sts, s, s', h, hs => by
    simp only [runAll] at h
    split at h
    · simp at h
    · rename_i s₁ hrun
      obtain ⟨s₂, result, hexec, rfl⟩ := executed_of_run hrun
      refine scene_of_runAll hact hclick htimer sts h ?_
      rw [noted_scene]
      exact hexec.scene (fun s a => hact s st.line a) (fun s c => hclick s _) htimer hs

/-- A command that goes beyond the longest duration has given out the number of a timer, and has
changed nothing else. -/
theorem exec_overflow {line : Nat} :
    ∀ {c : Command} {s : Stage} {o : Overflow}, exec line c s = .error o →
      o.stage.scene = s.scene.withTimers s.scene.timers.counted
  | .act a, s, o, h => by simp [exec] at h
  | .on .click c, s, o, h => by simp [exec] at h
  | .on (.every seconds) c, s, o, h => by
    simp only [exec] at h
    split at h
    · simp at h
    · split at h
      · rename_i left hleft
        obtain rfl := Except.error.inj h
        exact congrArg s.scene.withTimers (Timers.eq_of_register_error hleft)
      · simp at h
  | .on (.key key) c, s, o, h => by
    rw [exec_key] at h
    split at h
    · simpa only [log_scene] using exec_overflow h
    · simp at h

/-- What survives any list of statements has survived those before an overflow. -/
theorem scene_of_overflow {P : Scene → Prop}
    (hact : ∀ s line a, P s → P (s.perform line a).scene)
    (hclick : ∀ s st, P s → P { s with clicks := s.clicks ++ [st] })
    (htimer : ∀ s ts, P s → P (s.withTimers ts)) :
    ∀ (sts : List Statement) {s : Stage} {o : Overflow}, runAll sts s = .error o → P s.scene →
      P o.stage.scene
  | [], s, o, h, _ => by simp [runAll] at h
  | st :: sts, s, o, h, hs => by
    rw [runAll_cons, run_eq] at h
    cases hexec : exec st.line st.command s with
    | error o' =>
      rw [hexec] at h
      obtain rfl := Except.error.inj h
      rw [exec_overflow hexec]
      exact htimer _ _ hs
    | ok x =>
      rw [hexec] at h
      refine scene_of_overflow hact hclick htimer sts h ?_
      rw [noted_scene]
      exact (executed_of_exec hexec).scene (fun s a => hact s st.line a) (fun s c => hclick s _)
        htimer hs

end Stage
end StageScript
