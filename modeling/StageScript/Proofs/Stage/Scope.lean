/-
# The scope of a command

A command touches what it names.  What an action can do to a scene is said once (`Scene.Change`),
and what it keeps is read off there (`Scene.Kept`): the entities and the variables of other names,
in their order; the active color, the background and the generator, for all commands but those
that are about them; sounds, timers, listeners and strokes, to which one may be added.

Keys in front of a command name nothing and change nothing, so the scope of a command is that of
the command behind its keys (`Command.core`).
-/
import StageScript.Proofs.Stage.Edits
import StageScript.Proofs.Stage.Strokes
import StageScript.Proofs.Stage.Variables
import StageScript.Proofs.Timers.Schedule

namespace StageScript

/-! ## 1. What a command names -/

namespace Command

/-- The command behind the keys in front of it. -/
def core : Command → Command
  | .on (.key _) c => c.core
  | c => c

/-- The entity that a command declares or changes when it is carried out. -/
def entity? (c : Command) : Option String :=
  match c.core with
  | .act a => a.entity?
  | .on _ _ => none

/-- The variable that a command declares or changes when it is carried out. -/
def var? (c : Command) : Option String :=
  match c.core with
  | .act a => a.var?
  | .on _ _ => none

end Command

/-! ## 2. What a command keeps -/

namespace Scene

/-- What a command on the given line leaves as it was. -/
structure Kept (line : Nat) (c : Command) (s s' : Scene) : Prop where
  entities : ∀ name, c.entity? ≠ some name → s'.entities.get? name = s.entities.get? name
  entityNames : s.entities.names <+: s'.entities.names
  vars : ∀ name, c.var? ≠ some name → s'.vars.get? name = s.vars.get? name
  varNames : s.vars.names.Sublist s'.vars.names
  activeColor : (∀ token, c.core ≠ .act (.setColor token)) → s'.activeColor = s.activeColor
  background : (∀ token, c.core ≠ .act (.setBackground token)) → s'.background = s.background
  generator : (∀ range, c.core ≠ .act (.random range)) →
    (∀ name range, c.core ≠ .act (.declare name (.random range))) → s'.generator = s.generator
  sounds : s'.sounds = s.sounds ∨
    ∃ path asset, c.core = .act (.playSound path) ∧ s'.sounds = s.sounds ++ [asset]
  timers : s'.timers = s.timers ∨
    ∃ seconds c' period due, c.core = .on (.every seconds) c' ∧
      s'.timers = ⟨s.timers.timers ++ [⟨s.timers.nextId, period, due, ⟨line, c'⟩⟩],
        s.timers.nextId + 1, s.timers.clock⟩
  clicks : s'.clicks = s.clicks ∨
    ∃ c', c.core = .on .click c' ∧ s'.clicks = s.clicks ++ [⟨line, c'⟩]
  strokes : ∃ stroke? : Option Paint, Inked s stroke?.toList s'
  config : s'.config = s.config
  assets : s'.assets = s.assets
  keys : s'.keys = s.keys

variable {s s' : Scene} {line : Nat} {c : Command}

theorem Kept.refl (line : Nat) (c : Command) (s : Scene) : Kept line c s s where
  entities _ _ := rfl
  entityNames := List.prefix_refl _
  vars _ _ := rfl
  varNames := List.Sublist.refl _
  activeColor _ := rfl
  background _ := rfl
  generator _ _ := rfl
  sounds := .inl rfl
  timers := .inl rfl
  clicks := .inl rfl
  strokes := ⟨none, .refl s⟩
  config := rfl
  assets := rfl
  keys := rfl

/-- Keys in front of a command do not widen its scope. -/
theorem Kept.key (h : Kept line c s s') (key : String) : Kept line (.on (.key key) c) s s' :=
  ⟨h.entities, h.entityNames, h.vars, h.varNames, h.activeColor, h.background,
    h.generator, h.sounds, h.timers, h.clicks, h.strokes, h.config, h.assets, h.keys⟩

theorem exists_addStroke (s : Scene) (p : Paint) :
    ∃ backdrop overlay, s.addStroke p = { s with backdrop := backdrop, overlay := overlay } := by
  unfold addStroke
  split
  · exact ⟨_, _, rfl⟩
  · exact ⟨_, _, rfl⟩

/-- **What an action keeps.** -/
theorem Change.kept {a : Action} (h : Change s line a s') : Kept line (.act a) s s' := by
  have hstrokes : ∃ stroke? : Option Paint, Inked s stroke?.toList s' := ⟨_, h.inked⟩
  cases h with
  | none => exact .refl line _ s
  | activeColor token =>
    exact { Kept.refl line (.act (.setColor token)) s with
      activeColor := fun h => absurd rfl (h token), strokes := hstrokes }
  | background token =>
    exact { Kept.refl line (.act (.setBackground token)) s with
      background := fun h => absurd rfl (h token), strokes := hstrokes }
  | @stroke a p =>
    obtain ⟨backdrop, overlay, heq⟩ := s.exists_addStroke p
    rw [heq] at hstrokes ⊢
    exact { Kept.refl line (.act a) s with strokes := hstrokes }
  | sound path asset =>
    exact { Kept.refl line (.act (.playSound path)) s with
      sounds := .inr ⟨path, asset, rfl, rfl⟩, strokes := hstrokes }
  | @declared a name e ha =>
    exact { Kept.refl line (.act a) s with
      entities := fun name' hne =>
        Entities.get?_insert_of_ne fun heq => hne (ha.trans (congrArg some heq.symm))
      entityNames := s.entities.names_prefix_insert name e
      strokes := hstrokes }
  | @replaced a name e ha =>
    exact { Kept.refl line (.act a) s with
      entities := fun name' hne =>
        Entities.get?_replace_of_ne fun heq => hne (ha.trans (congrArg some heq.symm))
      entityNames := (s.entities.names_replace name e).symm ▸ List.prefix_refl _
      strokes := hstrokes }
  | @assigned a name x ha =>
    exact { Kept.refl line (.act a) s with
      vars := fun name' hne =>
        Variables.get?_set_of_ne fun heq => hne (ha.trans (congrArg some heq.symm))
      varNames := s.vars.names_sublist_set name x
      strokes := hstrokes }
  | rolled range g =>
    exact { Kept.refl line (.act (.random range)) s with
      generator := fun h _ => absurd rfl (h range), strokes := hstrokes }
  | rolledInto name range g x =>
    exact { Kept.refl line (.act (.declare name (.random range))) s with
      vars := fun name' hne => Variables.get?_set_of_ne fun heq => hne (congrArg some heq.symm)
      varNames := s.vars.names_sublist_set name x
      generator := fun _ h => absurd rfl (h name range)
      strokes := hstrokes }

end Scene

/-! ## 3. Commands -/

namespace Stage

open Scene (Kept)

variable {line : Nat} {c : Command} {s s' : Stage} {result : Except RunError (Option Float)}

/-- **A command keeps to its scope.** -/
theorem Executed.kept (h : Executed line c s s' result) : Kept line c s.scene s'.scene := by
  induction h with
  | act a s =>
    exact (s.scene.perform_change line a).kept
  | listen c s =>
    exact { Kept.refl line (.on .click c) s.scene with
      clicks := .inr ⟨c, rfl, rfl⟩, strokes := ⟨none, .of_eq rfl rfl rfl rfl⟩ }
  | refused c s _ => exact .refl line _ s.scene
  | @register seconds period c s id ts _ hregister =>
    obtain ⟨-, due, -, rfl⟩ := Timers.eq_of_register hregister
    exact { Kept.refl line (.on (.every seconds) c) s.scene with
      timers := .inr ⟨seconds, c, period, due, rfl, rfl⟩
      strokes := ⟨none, .of_eq rfl rfl rfl rfl⟩ }
  | up c s _ => exact .refl line _ s.scene
  | down _ _ ih => exact ih.key _

/-- **Commands keep to their scope.**  A command that has a result, be it a failure, has left all
entities and variables but the one that it names, has removed nothing, and has added at most one
sound, timer, listener or stroke, of its own kind (`Kept`).  So the color and the rotation of an
entity change only by commands that name it.  A command that goes beyond the longest duration has
given out the number of a timer, and has changed nothing else. -/
theorem commands_keep_to_their_scope (line : Nat) (c : Command) (s : Stage) :
    (∀ s' result, exec line c s = .ok (s', result) → Kept line c s.scene s'.scene)
      ∧ (∀ s' result name e e', exec line c s = .ok (s', result) →
          s.scene.entities.get? name = some e → s'.scene.entities.get? name = some e' →
          e'.color? ≠ e.color? ∨ e'.rotation? ≠ e.rotation? → c.entity? = some name)
      ∧ ∀ o, exec line c s = .error o →
          o.stage.scene = s.scene.withTimers s.scene.timers.counted := by
  refine ⟨?_, ?_, fun o => exec_overflow⟩
  · intro s' result hexec
    exact (executed_of_exec hexec).kept
  · intro s' result name e e' hexec hbefore hbehind hchanged
    by_contra hname
    have hsame := (executed_of_exec hexec).kept.entities name hname
    rw [hbefore, hbehind] at hsame
    obtain rfl := Option.some.inj hsame
    exact hchanged.elim (absurd rfl) (absurd rfl)

/-- A stage at the end of time with a box, on which a key is held. -/
def lateStage : Stage :=
  ⟨{ Scene.initial (.seeded 0) (.ofSeed 0) with
      entities := ⟨[("b", .box 1 2 3 4 .black 0)]⟩
      timers := ⟨[], 0, .longest⟩
      keys := ⟨["a"]⟩ }, .empty⟩

/-- An action while the key is held. -/
def whileHeld (a : Action) : Command := .on (.key "a") (.act a)

/-- Another active color leaves the box as it is; what turns the box names it; and no timer can
be set any more. -/
theorem commands_keep_to_their_scope_lateStage :
    (∃ s' result, exec 2 (whileHeld (.setColor "red")) lateStage = .ok (s', result)
        ∧ s'.scene.activeColor = .named "red"
        ∧ s'.scene.entities.get? "b" = lateStage.scene.entities.get? "b")
      ∧ (∃ s' result e e', exec 2 (whileHeld (.rotate "b" 90)) lateStage = .ok (s', result)
          ∧ lateStage.scene.entities.get? "b" = some e ∧ s'.scene.entities.get? "b" = some e'
          ∧ e'.rotation? ≠ e.rotation? ∧ (whileHeld (.rotate "b" 90)).entity? = some "b")
      ∧ ∃ o, exec 2 (.on (.every 1) (.act (.say "now"))) lateStage = .error o
          ∧ o.stage.scene = lateStage.scene.withTimers ⟨[], 1, .longest⟩ := by
  refine ⟨?_, ?_, ?_⟩
  · have hred : passes (exec 2 (whileHeld (.setColor "red")) lateStage)
        (fun x => x.1.scene.activeColor == .named "red") = true := by decide +kernel
    obtain ⟨⟨s', result⟩, hexec, hcolor⟩ := exists_of_passes hred
    have hkept := (commands_keep_to_their_scope 2 _ lateStage).1 s' result hexec
    exact ⟨s', result, hexec, by simpa using hcolor, hkept.entities "b" (by decide)⟩
  · have hturned : passes (exec 2 (whileHeld (.rotate "b" 90)) lateStage)
        (fun x => (x.1.scene.entities.get? "b").any fun e => e.rotation? ≠ some 0) = true := by
      decide +kernel
    obtain ⟨⟨s', result⟩, hexec, hrotation⟩ := exists_of_passes hturned
    cases hget : s'.scene.entities.get? "b" with
    | none => simp [hget] at hrotation
    | some e' =>
      have hchanged : e'.rotation? ≠ some 0 := by simpa [hget] using hrotation
      exact ⟨s', result, _, e', hexec, rfl, hget, hchanged,
        (commands_keep_to_their_scope 2 _ lateStage).2.1 s' result "b" _ e' hexec rfl hget
          (.inr hchanged)⟩
  · cases hexec : exec 2 (.on (.every 1) (.act (.say "now"))) lateStage with
    | error o => exact ⟨o, rfl, (commands_keep_to_their_scope 2 _ lateStage).2.2 o hexec⟩
    | ok x =>
      have hnone : passes (exec 2 (.on (.every 1) (.act (.say "now"))) lateStage)
          (fun _ => true) = false := by decide +kernel
      simp [hexec, passes] at hnone

end Stage
end StageScript
