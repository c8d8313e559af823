/-
# What an action can do

`Scene.Change` lists what an action can do to a scene, one constructor for each kind of effect:
strokes, sounds and colors are added or set, an entity or a variable that the action names is put
in place, the generator rolls.  An action does nothing else (`perform_change`), and this is the
one place where all actions are opened to see it; what actions leave alone is read off the
constructors.
-/
import StageScript.Proofs.Stage.Entities

namespace StageScript

/-! ## 1. What an action names -/

/-- The entity that an action declares or changes. -/
def Action.entity? : Action → Option String
  | .declare name (.box _ _ _ _) => some name
  | .declare name (.image _ _ _ _) => some name
  | .declare name (.text _ _ _ _ _) => some name
  | .setProperty entity _ _ => some entity
  | .rotate entity _ => some entity
  | _ => none

/-- The variable that an action declares or changes. -/
def Action.var? : Action → Option String
  | .declare name (.random _) => some name
  | .declare name (.number _) => some name
  | .assign name _ => some name
  | .add name _ => some name
  | _ => none

namespace Scene

/-- The stroke that an action executes. -/
def stroke? (s : Scene) (line : Nat) : Action → Option Paint
  | .drawCircle center radius =>
    let (cx, cy) := (s.place line center).1
    some (.circle cx cy (s.value line radius).1 s.activeColor)
  | .drawLine start finish width =>
    let (x1, y1) := (s.place line start).1
    let (x2, y2) := (s.place line finish).1
    some (.line x1 y1 x2 y2 (s.value line width).1 s.activeColor)
  | _ => none

variable {s : Scene} {line : Nat} {a : Action} {name : String}

theorem stroke?_of_entity? (h : a.entity? = some name) : s.stroke? line a = none := by
  cases a with
  | drawCircle | drawLine => simp [Action.entity?] at h
  | _ => rfl

theorem stroke?_of_var? (h : a.var? = some name) : s.stroke? line a = none := by
  cases a with
  | drawCircle | drawLine => simp [Action.var?] at h
  | _ => rfl

/-! ## 2. What it can do -/

/-- What an action on the given line can do to a scene. -/
inductive Change (s : Scene) (line : Nat) : Action → Scene → Prop where
  /-- It failed, or it has no effect on the scene. -/
  | none {a : Action} : s.stroke? line a = none → Change s line a s
  | stroke {a : Action} {p : Paint} : s.stroke? line a = some p →
      Change s line a (s.addStroke p)
  | activeColor (token : String) :
      Change s line (.setColor token) { s with activeColor := .resolve token }
  | background (token : String) :
      Change s line (.setBackground token) { s with background := some (.resolve token) }
  | sound (path : String) (asset : Asset) :
      Change s line (.playSound path) { s with sounds := s.sounds ++ [asset] }
  | declared {a : Action} {name : String} (e : Entity) : a.entity? = some name →
      Change s line a { s with entities := s.entities.insert name e }
  | replaced {a : Action} {name : String} (e : Entity) : a.entity? = some name →
      Change s line a { s with entities := s.entities.replace name e }
  | assigned {a : Action} {name : String} (x : Float) : a.var? = some name →
      Change s line a { s with vars := s.vars.set name x }
  | rolled (range : RandomRange) (g : Generator) :
      Change s line (.random range) { s with generator := g }
  | rolledInto (name : String) (range : RandomRange) (g : Generator) (x : Float) :
      Change s line (.declare name (.random range))
        { s with generator := g, vars := s.vars.set name x }

theorem alter_change (ha : a.entity? = some name) (f : Entity → Except PropertyError Entity) :
    Change s line a (s.alter name f) := by
  rcases s.cases_alter name f with ⟨e, e', -, -, halter⟩ | ⟨-, halter⟩
  · rw [halter]
    exact .replaced e' ha
  · rw [halter]
    exact .none (stroke?_of_entity? ha)

theorem declare_change (s : Scene) (line : Nat) (name : String) (d : Declaration) :
    Change s line (.declare name d) (s.declare line name d).scene := by
  cases d with
  | box x y w h => exact .declared _ rfl
  | image path position w h =>
    simp only [declare]
    split
    · exact .none rfl
    · exact .declared _ rfl
  | text text position size color font => exact .declared _ rfl
  | random range => exact .rolledInto name range _ _
  | number e => exact .assigned _ rfl

/-- **What an action can do.** -/
theorem perform_change (s : Scene) (line : Nat) (a : Action) :
    Change s line a (s.perform line a).scene := by
  cases a with
  | say text => exact .none rfl
  | setColor token => exact .activeColor token
  | setBackground token => exact .background token
  | drawCircle center radius => exact .stroke rfl
  | drawLine start finish width => exact .stroke rfl
  | playSound path =>
    simp only [perform]
    split
    · exact .none rfl
    · exact .sound path _
  | declare name d => exact declare_change s line name d
  | assign name source =>
    simp only [perform]
    split
    · exact .assigned _ rfl
    · exact .none rfl
  | setProperty entity property v =>
    rw [perform, setProperty_scene]
    exact alter_change rfl _
  | add name amount =>
    simp only [perform]
    split
    · exact .none rfl
    · exact .assigned _ rfl
  | random range => exact .rolled range _
  | rotate entity degrees =>
    rw [rotate_scene]
    exact alter_change rfl _

end Scene
end StageScript
