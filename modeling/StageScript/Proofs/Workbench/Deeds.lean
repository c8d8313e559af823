/-
# What happens at a workbench

A frame of the workbench is made of deeds: pictures arrive, keys reach the run, the clock moves,
the text changes, a button acts, the canvas is painted and clicked.  Each deed is one function of
`Workbench`, and which of them a frame does, and in which order, depends on what the person does
and on who has the keyboard by then (`frameDeeds`, `gestureDeeds`).  The latter is up to the
toolkit, and so is what a key does in the editor; here the toolkit may be any.

A session is any sequence of deeds, frames and gestures.  As frames and gestures do nothing but
their deeds (`session_eq_doAll`), what every deed keeps holds behind every session, and between the
parts of a frame as well.
-/
import StageScript.Proofs.Run.Overflow
import StageScript.Workbench.Frame

namespace StageScript
namespace Workbench

variable (kit : Toolkit)

/-! ## 1. Deeds -/

/-- A thing that can happen at a workbench. -/
inductive Deed where
  /-- Decoded pictures arrive. -/
  | settle
  /-- The keyboard passes on. -/
  | focus (f : Focus)
  /-- A key of the window goes down or up. -/
  | key (name : String) (down : Bool)
  /-- The clock of the run moves. -/
  | tick
  /-- A pointer goes down in the editor. -/
  | touch
  /-- Another text takes the place of that in the editor. -/
  | edit (text : String)
  /-- A key goes down in the editor. -/
  | type (name : String)
  /-- A button or a tab is pressed. -/
  | press (c : Control)
  | paint
  /-- The canvas is clicked. -/
  | click (x y : Float)
  /-- Time passes. -/
  | wait (time : Duration)
  /-- Somebody else changes the folder. -/
  | files (files : Files)

/-- The workbench behind a deed. -/
def does (b : Workbench) : Deed → Workbench
  | .settle => { b with textures := b.textures.settle kit.decode }
  | .focus f => { b with focus := f }
  | .key name down => b.key name down
  | .tick => b.tick
  | .touch => { b with editor := kit.touch b.editor }
  | .edit text => b.edit text
  | .type name => b.typeKey kit name
  | .press c => b.act c
  | .paint => b.paintCanvas.2
  | .click x y => b.click x y
  | .wait time => { b with now := b.now + time.nanos }
  | .files files => { b with files := files }

/-- The workbench behind deeds in order. -/
def doAll (b : Workbench) (ds : List Deed) : Workbench := ds.foldl (does kit) b

@[simp] theorem doAll_nil (b : Workbench) : b.doAll kit [] = b := rfl

@[simp] theorem doAll_cons (b : Workbench) (d : Deed) (ds : List Deed) :
    b.doAll kit (d :: ds) = (b.does kit d).doAll kit ds := rfl

@[simp] theorem doAll_append (b : Workbench) (ds ds' : List Deed) :
    b.doAll kit (ds ++ ds') = (b.doAll kit ds).doAll kit ds' := List.foldl_append

/-- **What every deed keeps, all of them keep.** -/
theorem of_doAll {P : Workbench → Prop} (hP : ∀ b d, P b → P (does kit b d)) {b : Workbench}
    (h : P b) (ds : List Deed) : P (b.doAll kit ds) := by
  induction ds generalizing b with
  | nil => exact h
  | cons d ds ih => exact ih (hP b d h)

theorem act_of_running {b : Workbench} (h : b.run.isRunning = true) : b.act .startStop = b.stop :=
  if_pos h

theorem act_of_stopped {b : Workbench} (h : b.run.isRunning = false) : b.act .startStop = b.start :=
  if_neg (by simp [h])

theorem save_eq (b : Workbench) :
    b.save
      = { b with
          files := (b.files.save b.scriptFile b.source.toUTF8).1
          console := b.console
            ++ [saveReport b.scriptFile (b.files.save b.scriptFile b.source.toUTF8).2] } := rfl

theorem drain_eq (b : Workbench) :
    b.drain
      = { b with
          console := b.console ++ b.run.takeDiagnostics.1
          played := b.played ++ b.run.takeSounds.1
          run := b.run.takeDiagnostics.2.takeSounds.2 } := rfl

/-- **A start has a run to go on with.**  The setup is not guarded, and it need not be. -/
theorem start_eq (b : Workbench) :
    ∃ r, (b.run.load (Script.ofText b.source)).setup = .ok r ∧
      b.start
        = ({ b with
            console := b.console
              ++ if b.settings.warnUnrecognized then warnings (Script.ofText b.source) else []
            run := r
            lastTick := b.now } : Workbench).drain := by
  obtain ⟨r, hr, -⟩ := (b.run.load (Script.ofText b.source)).exists_setup
  refine ⟨r, hr, ?_⟩
  simp only [start, hr]

/-- What a key of the window means to the run. -/
def keyInput (name : String) (down : Bool) : Input :=
  if down then .keyDown (HostKeys.scriptName name) else .keyUp (HostKeys.scriptName name)

theorem dispatch_keyInput (r : Run) (name : String) (down : Bool) :
    r.dispatch (keyInput name down) = .ok (r.follow (HostKeys.scriptName name) down) := by
  cases down <;> rfl

/-- **So does a key.** -/
theorem key_eq (b : Workbench) (name : String) (down : Bool) :
    ∃ r, b.run.dispatch (keyInput name down) = .ok r ∧
      b.key name down
        = { b with
            keysDown := b.keysBehind name down
            run := if b.hearsKey name down then r else b.run } :=
  ⟨b.run.follow (HostKeys.scriptName name) down, dispatch_keyInput b.run name down, rfl⟩

/-! ## 2. The deeds of a frame -/

/-- The press of a control, if it is the pressed one. -/
def pressDeeds (pressed : Option Control) (c : Control) : List Deed :=
  if pressed = some c then [.press c] else []

/-- The keys of a frame, and the step of the run. -/
def inputDeeds (h : Happening) (b : Workbench) : List Deed :=
  .focus (kit.beginFrame h.pressedKey b.focus)
    :: (match h.key with
      | some (name, down) => [.key name down, .tick]
      | none => [.tick])

/-- What happens in the editor. -/
def editorDeeds (h : Happening) (b : Workbench) : List Deed :=
  (if h.touch = .control .editor then [.touch] else [])
    ++ match h.edit, h.pressedKey with
      | some text, _ => [.edit text]
      | none, some name => if b.focus.holder = some .editor then [.type name] else []
      | none, none => []

/-- What happens at the buttons and tabs. -/
def controlDeeds (pressed : Option Control) : List Deed :=
  pressDeeds pressed .clearConsole ++ pressDeeds pressed .save ++ pressDeeds pressed .startStop
    ++ match pressed with
      | some (.tab t) => [.press (.tab t)]
      | _ => []

/-- What happens in the open tab. -/
def tabDeeds (h : Happening) (pressed : Option Control) (b : Workbench) : List Deed :=
  match b.tab with
  | .canvas => .paint :: (match h.click with
    | some (x, y) => [.click x y]
    | none => [])
  | .assets => pressDeeds pressed .reload
  | _ => []

/-- The deeds of a frame.  Who has the keyboard, which control is pressed and which tab is open is
seen when the frame comes to it. -/
def frameDeeds (h : Happening) (b : Workbench) : List Deed :=
  let controls := Control.shown b.tab
  let input := .settle :: inputDeeds kit h b
  let b₁ := b.doAll kit input
  let steer := Deed.focus (kit.showControls controls h.pressedKey h.touch b₁.focus)
  let b₂ := b₁.does kit steer
  let pressed := pressedControl kit h b₂
  let shown := editorDeeds h b₂ ++ controlDeeds pressed
  let b₃ := b₂.doAll kit shown
  let content := tabDeeds h pressed b₃
  let b₄ := b₃.doAll kit content
  let settled := Deed.focus (kit.endFrame controls h.pressedKey b.focus b₄.focus)
  input ++ steer :: (shown ++ (content ++ [settled]))

theorem showButton_snd (pressed : Option Control) (b : Workbench) (c : Control) :
    (showButton pressed b c).2 = b.doAll kit (pressDeeds pressed c) := by
  unfold showButton pressDeeds
  split <;> rfl

theorem showStatus_snd (pressed : Option Control) (b : Workbench) :
    (showStatus pressed b).2
      = b.doAll kit (pressDeeds pressed .clearConsole ++ pressDeeds pressed .save
        ++ pressDeeds pressed .startStop) := by
  simp only [showStatus, showButton_snd kit, doAll_append]

theorem showTabs_snd (pressed : Option Control) (b : Workbench) :
    (showTabs pressed b).2
      = b.doAll kit (match pressed with
        | some (.tab t) => [.press (.tab t)]
        | _ => []) := by
  rcases pressed with _ | c
  · rfl
  · cases c <;> rfl

theorem showTab_snd (h : Happening) (pressed : Option Control) (b : Workbench) :
    (showTab h pressed b).2.2 = b.doAll kit (tabDeeds h pressed b) := by
  unfold showTab tabDeeds
  cases b.tab with
  | canvas =>
    simp only [showCanvas]
    cases h.click <;> rfl
  | assets => exact showButton_snd kit pressed b .reload
  | _ => rfl

theorem takeInput_eq (h : Happening) (b : Workbench) :
    takeInput kit h b = b.doAll kit (inputDeeds kit h b) := by
  unfold takeInput inputDeeds
  rcases h.key with _ | ⟨name, down⟩ <;> rfl

theorem showEditor_eq (h : Happening) (b : Workbench) :
    showEditor kit h b = b.doAll kit (editorDeeds h b) := by
  unfold showEditor editorDeeds
  rw [doAll_append]
  have hcaret : b.doAll kit (if h.touch = .control .editor then [.touch] else [])
      = if h.touch = .control .editor then { b with editor := kit.touch b.editor } else b := by
    split <;> rfl
  rw [hcaret]
  generalize hb :
    (if h.touch = .control .editor then { b with editor := kit.touch b.editor } else b) = b'
  have hfocus : b'.focus = b.focus := by
    rw [← hb]
    split <;> rfl
  cases h.edit with
  | some text => rfl
  | none =>
    cases h.pressedKey with
    | none => rfl
    | some name =>
      simp only [hfocus]
      split <;> rfl

/-- **A frame does its deeds, and nothing else.** -/
theorem frame_snd (h : Happening) (b : Workbench) :
    (frame kit h b).2 = b.doAll kit (frameDeeds kit h b) := by
  unfold frame frameDeeds controlDeeds
  simp only [takeInput_eq, showEditor_eq, showStatus_snd kit, showTabs_snd kit, showTab_snd kit]
  simp only [doAll_append, doAll_cons, doAll_nil]
  rfl

/-! ## 3. Sessions -/

/-- The deeds of several frames, behind which an idle one is shown. -/
def framesDeeds : List Happening → Workbench → List Deed
  | [], b => frameDeeds kit .nothing b
  | h :: hs, b => frameDeeds kit h b ++ framesDeeds hs (frame kit h b).2

theorem frames_snd (hs : List Happening) (b : Workbench) :
    (frames kit hs b).2 = b.doAll kit (framesDeeds kit hs b) := by
  induction hs generalizing b with
  | nil => exact frame_snd kit .nothing b
  | cons h hs ih =>
    rw [frames, ih, framesDeeds, doAll_append, ← frame_snd]

/-- The deeds of a gesture. -/
def gestureDeeds (b : Workbench) : Gesture → List Deed
  | .wait time => .wait time :: frameDeeds kit .nothing (b.does kit (.wait time))
  | .press caption =>
    match b.named? caption with
    | some c => framesDeeds kit [.down (.control c), { Happening.nothing with press := some c }] b
    | none => framesDeeds kit [.down .empty, .nothing] b
  | .click x y =>
    framesDeeds kit [.down (.control .canvas), { Happening.nothing with click := some (x, y) }] b
  | .edit text =>
    framesDeeds kit
      [.down (.control .editor), .nothing, { Happening.nothing with edit := some text }] b
  | .focus => framesDeeds kit [.down (.control .editor), .nothing] b
  | .blur => framesDeeds kit [.down .empty, .nothing] b
  | .key name down => frameDeeds kit { Happening.nothing with key := some (name, down) } b

theorem gesture_snd (b : Workbench) (g : Gesture) :
    (b.gesture kit g).2 = b.doAll kit (b.gestureDeeds kit g) := by
  cases g with
  | wait time => exact frame_snd kit .nothing (b.does kit (.wait time))
  | press caption =>
    simp only [gesture, gestureDeeds]
    cases b.named? caption with
    | some c => exact frames_snd kit _ b
    | none => exact frames_snd kit _ b
  | click x y => exact frames_snd kit _ b
  | edit text => exact frames_snd kit _ b
  | focus => exact frames_snd kit _ b
  | blur => exact frames_snd kit _ b
  | key name down => exact frame_snd kit _ b

/-- A part of a session: a deed on its own, a frame, or a gesture. -/
inductive Episode where
  | deed (d : Deed)
  | frame (h : Happening)
  | gesture (g : Gesture)

/-- The workbench behind a part of a session. -/
def after (b : Workbench) : Episode → Workbench
  | .deed d => b.does kit d
  | .frame h => (frame kit h b).2
  | .gesture g => (b.gesture kit g).2

/-- The deeds of a part of a session. -/
def episodeDeeds (b : Workbench) : Episode → List Deed
  | .deed d => [d]
  | .frame h => frameDeeds kit h b
  | .gesture g => b.gestureDeeds kit g

theorem after_eq_doAll (b : Workbench) (e : Episode) :
    b.after kit e = b.doAll kit (b.episodeDeeds kit e) := by
  cases e with
  | deed d => rfl
  | frame h => exact frame_snd kit h b
  | gesture g => exact gesture_snd kit b g

/-- The workbench behind a session. -/
def session (b : Workbench) (es : List Episode) : Workbench := es.foldl (after kit) b

/-- The deeds of a session. -/
def sessionDeeds (b : Workbench) : List Episode → List Deed
  | [] => []
  | e :: es => b.episodeDeeds kit e ++ (b.after kit e).sessionDeeds es

/-- **A session is its deeds.** -/
theorem session_eq_doAll (b : Workbench) (es : List Episode) :
    b.session kit es = b.doAll kit (b.sessionDeeds kit es) := by
  induction es generalizing b with
  | nil => rfl
  | cons e es ih =>
    have hcons : b.session kit (e :: es) = (b.after kit e).session kit es := rfl
    rw [hcons, ih, sessionDeeds, doAll_append, after_eq_doAll]

end Workbench
end StageScript
