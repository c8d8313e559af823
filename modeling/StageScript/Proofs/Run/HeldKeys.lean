/-
# The keys that are held

A host tells a run which keys go down and up, under any spelling of their names.  Which keys are
held behind a history of calls is decided by the names alone: setups, stops, other scripts and
previews let go of every key, and since the last of these the last event of a key counts
(`WentDownLast`).  Nothing else moves a key, and no statement does.

So the answer a script gets and the answer a host gets are the same one.  A line
`if key "K" down then …` keeps its key in lower case, and lowering a key does not change its name
(`keyName_loweredKey`).
-/
import Mathlib.Data.List.Induction
import StageScript.Proofs.Command.Nesting
import StageScript.Proofs.Run.Provenance
import StageScript.Proofs.Text.Lower

namespace StageScript

/-! ## 1. Names of keys -/

/-- The name of a key in lower case, as a line of a script keeps it. -/
def loweredKey (key : String) : String := String.ofList (Text.lower key.toList)

/-- **Lowering a key does not change its name.** -/
theorem keyName_loweredKey (key : String) : keyName (loweredKey key) = keyName key := by
  simp only [keyName, loweredKey, String.toList_ofList, Text.lower_lower]

namespace Keys

theorem mem_insertName {name n : String} {ns : List String} :
    n ∈ insertName name ns ↔ n = name ∨ n ∈ ns := by
  induction ns with
  | nil => simp [insertName]
  | cons m ms ih =>
    simp only [insertName]
    split_ifs with heq hlt
    · simp [heq]
    · simp
    · simp only [List.mem_cons, ih]
      exact or_left_comm

theorem isDown_none (key : String) : Keys.none.isDown key = false := rfl

theorem isDown_press (ks : Keys) (pressed key : String) :
    (ks.press pressed).isDown key = true
      ↔ keyName pressed = keyName key ∨ ks.isDown key = true := by
  simp only [isDown, press, List.contains_iff_mem, mem_insertName]
  rw [eq_comm]

theorem isDown_release (ks : Keys) (released key : String) :
    (ks.release released).isDown key = true
      ↔ keyName released ≠ keyName key ∧ ks.isDown key = true := by
  simp only [isDown, release, List.contains_iff_mem, List.mem_filter, bne_iff_ne]
  rw [and_comm, ne_comm]

end Keys

/-! ## 2. What moves the keys -/

namespace Run

variable {r r' : Run}

/-- The key is held. -/
def isKeyDown (r : Run) (key : String) : Bool := r.stage.scene.keys.isDown key

/-- The call lets go of every key. -/
def Call.clearsKeys : Call → Bool
  | .setup | .stop | .load _ | .preview _ => true
  | _ => false

/-- The name of the key that the call moves. -/
def Call.movedKey? : Call → Option String
  | .input (.keyDown key) | .input (.keyUp key) => some (keyName key)
  | _ => none

/-- The keys that are held behind a call. -/
def Call.keys (ks : Keys) : Call → Keys
  | .input (.keyDown key) => ks.press key
  | .input (.keyUp key) => ks.release key
  | c => if c.clearsKeys then .none else ks

/-- No statement moves a key. -/
theorem keys_of_carryOut {sts : List Statement} (h : r.carryOut sts = .ok r') :
    r'.stage.scene.keys = r.stage.scene.keys := by
  obtain ⟨stage, hrun, rfl⟩ := exists_of_carryOut h
  refine Stage.scene_of_runAll (P := fun s => s.keys = r.stage.scene.keys) ?_ ?_ ?_ sts hrun rfl
  · intro s line a hs
    rw [(s.perform_frame line a).keys, hs]
  · intro s st hs
    exact hs
  · intro s ts hs
    exact hs

theorem keys_of_setup (h : r.setup = .ok r') : r'.stage.scene.keys = .none := by
  obtain ⟨r₁, hcarry, rfl⟩ := exists_of_setup h
  exact keys_of_carryOut hcarry

theorem keys_of_update (h : r.update = .ok r') : r'.stage.scene.keys = r.stage.scene.keys := by
  rcases cases_of_update h with ⟨-, hcarry⟩ | ⟨-, rfl⟩
  · exact keys_of_carryOut hcarry
  · rfl

theorem keys_of_advance {dt : Duration} (h : r.advance dt = .ok r') :
    r'.stage.scene.keys = r.stage.scene.keys := by
  rcases cases_of_advance h with ⟨-, fired, ts, -, hcarry⟩ | ⟨-, rfl⟩
  · exact (keys_of_carryOut hcarry).trans rfl
  · rfl

theorem keys_draw (r : Run) (ready : Ready) :
    (r.draw ready).2.stage.scene.keys = r.stage.scene.keys := by
  rcases r.draw_scene ready with hscene | hscene <;> rw [hscene]
  rfl

theorem keys_stop (r : Run) : r.stop.stage.scene.keys = .none := by
  rw [stop_scene]
  rfl

/-- **What a call does to the keys.** -/
theorem keys_of_called {c : Call} {a : Answer} (h : Called r c a r') :
    r'.stage.scene.keys = c.keys r.stage.scene.keys := by
  cases h with
  | setup h => exact keys_of_setup h
  | update h => exact keys_of_update h
  | advance h => exact keys_of_advance h
  | draw ready => exact r.keys_draw ready
  | @frame dt r₁ r₂ ready hadvance hupdate =>
    rw [keys_draw, keys_of_update hupdate, keys_of_advance hadvance]
    rfl
  | preview ready h => exact keys_stop _
  | stop => exact keys_stop r
  | load script => exact keys_stop r
  | setAssets assets => rfl
  | @input i r' h =>
    cases i with
    | keyDown key | keyUp key =>
      obtain rfl := Except.ok.inj h
      rfl
    | click x y =>
      rcases cases_of_click h with ⟨-, hcarry⟩ | ⟨-, rfl⟩
      · exact (keys_of_carryOut hcarry).trans rfl
      · rfl
  | takeDiagnostics => rfl
  | takeSounds => rfl

/-- **The keys behind a history** are those behind its calls. -/
theorem keys_of_calls : ∀ (cs : List Call) {r r' : Run} {as : List Answer},
    r.calls cs = .ok (as, r') → r'.stage.scene.keys = cs.foldl Call.keys r.stage.scene.keys
  | [], r, r', as, h => by
    obtain ⟨-, rfl⟩ := Prod.mk.inj (Except.ok.inj h)
    rfl
  | c :: cs, r, r', as, h => by
    obtain ⟨a, r₁, as₁, hc, hcs, -⟩ := exists_of_calls_cons h
    rw [keys_of_calls cs hcs, keys_of_called (called_of_call hc)]
    rfl

/-! ## 3. The last event of a key -/

/-- Since the keys were last let go of, the key was moved, and the last time it went down. -/
def WentDownLast (key : String) (cs : List Call) : Prop :=
  ∃ before pressed since, cs = before ++ .input (.keyDown pressed) :: since
    ∧ keyName pressed = keyName key
    ∧ ∀ c ∈ since, c.clearsKeys = false ∧ c.movedKey? ≠ some (keyName key)

variable {key : String} {cs : List Call} {c : Call}

theorem not_wentDownLast_nil (key : String) : ¬ WentDownLast key [] := by
  rintro ⟨before, pressed, since, hcs, -⟩
  simp at hcs

/-- One more call: it presses the key, or it leaves it alone. -/
theorem wentDownLast_concat : WentDownLast key (cs ++ [c])
    ↔ (∃ pressed, c = .input (.keyDown pressed) ∧ keyName pressed = keyName key)
      ∨ (c.clearsKeys = false ∧ c.movedKey? ≠ some (keyName key) ∧ WentDownLast key cs) := by
  constructor
  · rintro ⟨before, pressed, since, hcs, hpressed, hsince⟩
    rcases List.eq_nil_or_concat since with rfl | ⟨since, c', rfl⟩
    · obtain ⟨-, hc⟩ := List.append_inj' hcs rfl
      obtain rfl : c = _ := List.singleton_inj.mp hc
      exact .inl ⟨pressed, rfl, hpressed⟩
    · rw [List.concat_eq_append, ← List.cons_append, ← List.append_assoc] at hcs
      obtain ⟨rfl, hc⟩ := List.append_inj' hcs rfl
      obtain rfl : c = c' := List.singleton_inj.mp hc
      rw [List.concat_eq_append, List.forall_mem_append, List.forall_mem_singleton] at hsince
      obtain ⟨hsince, hclears, hmoved⟩ := hsince
      exact .inr ⟨hclears, hmoved, before, pressed, since, rfl, hpressed, hsince⟩
  · rintro (⟨pressed, rfl, hpressed⟩ | ⟨hclears, hmoved, before, pressed, since, rfl, hpressed,
      hsince⟩)
    · exact ⟨cs, pressed, [], rfl, hpressed, List.forall_mem_nil _⟩
    · refine ⟨before, pressed, since ++ [c], by simp, hpressed, ?_⟩
      exact List.forall_mem_append.mpr
        ⟨hsince, List.forall_mem_singleton.mpr ⟨hclears, hmoved⟩⟩

/-- A call that is no event of the key keeps what is held, or lets go of it. -/
theorem isDown_keys (ks : Keys) (key : String) (c : Call) :
    (c.keys ks).isDown key = true
      ↔ (∃ pressed, c = .input (.keyDown pressed) ∧ keyName pressed = keyName key)
        ∨ (c.clearsKeys = false ∧ c.movedKey? ≠ some (keyName key) ∧ ks.isDown key = true) := by
  cases c with
  | input i =>
    cases i with
    | keyDown pressed =>
      simp only [Call.keys, Keys.isDown_press, Call.clearsKeys, Call.movedKey?, Call.input.injEq,
        Input.keyDown.injEq, Option.some.injEq, true_and, ne_eq, exists_eq_left']
      by_cases hname : keyName pressed = keyName key <;> simp [hname]
    | keyUp released =>
      simp [Call.keys, Keys.isDown_release, Call.clearsKeys, Call.movedKey?]
    | click x y => simp [Call.keys, Call.clearsKeys, Call.movedKey?]
  | setup | stop | load | preview => simp [Call.keys, Call.clearsKeys, Keys.isDown_none]
  | update | advance | draw | frame | setAssets | takeDiagnostics | takeSounds =>
    simp [Call.keys, Call.clearsKeys, Call.movedKey?]

/-- **The last event of a key decides.** -/
theorem isDown_foldl_keys (key : String) (cs : List Call) :
    (cs.foldl Call.keys Keys.none).isDown key = true ↔ WentDownLast key cs := by
  induction cs using List.reverseRecOn with
  | nil => simp [Keys.isDown_none, not_wentDownLast_nil]
  | append_singleton cs c ih =>
    rw [List.foldl_append, List.foldl_cons, List.foldl_nil, isDown_keys, wentDownLast_concat, ih]

/-! ## 4. Statements under a key -/

/-- The text of a line that carries out the command of `body` while the key is held. -/
def keyLine (literal body : List Char) : List Char :=
  "if key ".toList ++ (literal ++ " down then".toList) ++ ' ' :: body

theorem keyLine_append (literal body : List Char) :
    keyLine literal [] ++ body = keyLine literal body :=
  List.append_assoc _ [' '] body

/-- The command of a line with such a text: that of `body` under the key in lower case.  Where it
keeps a fault, the fault is counted from the beginning of the line. -/
def keyCommand (key : String) (literal body : List Char) (a : Command) : Command :=
  .on (.key (loweredKey key))
    (a.mapFault (.indent (Text.byteLength (keyLine literal []) + Command.skipped body)))

theorem ofLine?_keyLine {literal body : List Char} (h : Token.Spelled literal (.text key))
    (hbare : Command.isBare body = true) (line : Nat) (g : Command) :
    Command.ofLine? line (keyLine literal body) = some (.ok g)
      ↔ ∃ a, Command.ofLine? line body = some (.ok a) ∧ g = keyCommand key literal body a := by
  have hheading : Command.Headings (keyLine literal []) [.key (loweredKey key)] := .one (.key h)
  have hcases := Command.ofLine?_headings_cases hheading hbare line
  rw [keyLine_append] at hcases
  rcases hcases with ⟨hbody, e, hline⟩ | ⟨a, hbody, hline⟩
  · rw [hbody, hline]
    simp
  · rw [hbody, hline]
    cases a with
    | error e => simp [Except.mapError, Except.map]
    | ok a => simp [Except.mapError, Except.map, Command.under, keyCommand, eq_comm]

theorem carryOut_append (r : Run) (sts sts' : List Statement) :
    r.carryOut (sts ++ sts') = (r.carryOut sts).bind (·.carryOut sts') := by
  simp only [carryOut, Stage.runAll_append]
  cases Stage.runAll sts r.stage <;> rfl

theorem isKeyDown_loweredKey (r : Run) (key : String) :
    r.isKeyDown (loweredKey key) = r.isKeyDown key := by
  simp only [isKeyDown, Keys.isDown, keyName_loweredKey]

/-- A key guard is carried out as the command behind it, or as nothing. -/
theorem carryOut_keyGuard (r : Run) (line : Nat) (key : String) (c : Command) :
    r.carryOut [⟨line, .on (.key (loweredKey key)) c⟩]
      = (r.log (.command line "key-guard")).carryOut
          (if r.isKeyDown key then [⟨line, c⟩] else []) := by
  have hdown : r.stage.scene.keys.isDown (loweredKey key) = r.isKeyDown key :=
    r.isKeyDown_loweredKey key
  simp only [carryOut, Stage.runAll_cons, Stage.run_eq, Stage.exec_key, hdown]
  cases r.isKeyDown key with
  | true =>
    simp only [if_true, Stage.runAll_cons, Stage.run_eq]
    rfl
  | false => rfl

/-- An update comes to a key guard with the keys it began with. -/
theorem update_keyGuard {before after : List Statement} {line : Nat} {c : Command}
    (hphase : r.phase = .running)
    (hframe : r.script.perFrame = before ++ ⟨line, .on (.key (loweredKey key)) c⟩ :: after) :
    r.update = (r.carryOut before).bind fun r₁ =>
      ((r₁.log (.command line "key-guard")).carryOut
        (if r₁.isKeyDown key then [⟨line, c⟩] else [])).bind (·.carryOut after) := by
  have hsplit : before ++ ⟨line, .on (.key (loweredKey key)) c⟩ :: after
      = before ++ ([⟨line, .on (.key (loweredKey key)) c⟩] ++ after) := rfl
  rw [update, if_pos (r.isRunning_iff.mpr hphase), hframe, hsplit, carryOut_append]
  refine congrArg (r.carryOut before).bind (funext fun r₁ => ?_)
  rw [carryOut_append, carryOut_keyGuard]

/-! ## 5. Held keys -/

/-- **A key is held just if it went down last.**  Of all spellings of the key, only the last event
since a setup, a stop, another script or a preview counts, whatever else is called.  A line
`if key "K" down then …` is read as a guard of that key, and in an update it carries out the
command behind it just if the key is held when its turn comes, which is if it was held before the
update. -/
theorem keys_follow_their_last_event {script : Script} {config : RunConfig} {as : List Answer}
    (h : (Run.new script config).calls cs = .ok (as, r)) :
    (∀ key, r.isKeyDown key = true ↔ WentDownLast key cs)
      ∧ (∀ {literal body : List Char} {key : String} (line : Nat) (g : Command),
          Token.Spelled literal (.text key) → Command.isBare body = true →
          (Command.ofLine? line (keyLine literal body) = some (.ok g)
            ↔ ∃ a, Command.ofLine? line body = some (.ok a) ∧ g = keyCommand key literal body a))
      ∧ ∀ {before after : List Statement} {line : Nat} {key : String} {a : Command},
          r.phase = .running →
          r.script.perFrame = before ++ ⟨line, .on (.key (loweredKey key)) a⟩ :: after →
          (r.update = (r.carryOut before).bind fun r₁ =>
            ((r₁.log (.command line "key-guard")).carryOut
              (if r₁.isKeyDown key then [⟨line, a⟩] else [])).bind (·.carryOut after))
          ∧ ∀ r₁, r.carryOut before = .ok r₁ → ∀ k, r₁.isKeyDown k = r.isKeyDown k := by
  refine ⟨fun key => ?_, fun line g hliteral hbare => ofLine?_keyLine hliteral hbare line g,
    fun hphase hframe => ⟨update_keyGuard hphase hframe, fun r₁ hbefore k => ?_⟩⟩
  · rw [isKeyDown, keys_of_calls cs h]
    exact isDown_foldl_keys key cs
  · rw [isKeyDown, isKeyDown, keys_of_carryOut hbefore]

/-- A script that jumps while the space bar is held. -/
def jumpingScript : Script :=
  ⟨[⟨1, .on (.key (loweredKey " ")) (.act (.say "jump"))⟩], []⟩

/-- The space bar goes down under two names and up under a third one, and down again. -/
def spaceCalls : List Call :=
  [.input (.keyDown "a"), .setup, .input (.keyDown "SPACE"), .input (.keyUp " "),
    .input (.keyDown "SpaceBar"), .input (.keyUp "b"), .update]

theorem keys_follow_their_last_event_jumpingScript :
    ∃ as r, (Run.new jumpingScript (.seeded 0)).calls spaceCalls = .ok (as, r)
      ∧ WentDownLast "space" spaceCalls ∧ ¬ WentDownLast "a" spaceCalls
      ∧ (∃ a, Command.ofLine? 1 "say \"jump\"".toList = some (.ok a)
        ∧ Command.ofLine? 1 (keyLine "\" \"".toList "say \"jump\"".toList)
          = some (.ok (keyCommand " " "\" \"".toList "say \"jump\"".toList a)))
      ∧ r.update = ((r.log (.command 1 "key-guard")).carryOut
          [⟨1, .act (.say "jump")⟩]).bind (·.carryOut []) := by
  have hrun : (Run.new jumpingScript (.seeded 0)).endsIn spaceCalls (fun r =>
      r.phase == .running && r.isKeyDown "space" && !r.isKeyDown "a"
        && r.isKeyDown " ") = true := by decide +kernel
  obtain ⟨as, r, hcalls, htest⟩ := exists_of_endsIn hrun
  simp only [Bool.and_eq_true, beq_iff_eq, Bool.not_eq_true'] at htest
  obtain ⟨⟨⟨hphase, hspace⟩, hup⟩, hblank⟩ := htest
  have hscript : r.script = jumpingScript :=
    (sourced_of_calls _ hcalls (.of_nil rfl rfl) (by simp [spaceCalls, Call.loads])).1
  obtain ⟨hkeys, hreading, hupdate⟩ := keys_follow_their_last_event hcalls
  have hliteral : Token.Spelled "\" \"".toList (.text " ") :=
    .text (.plain (by decide) (by decide) .nil)
  obtain ⟨a, ha⟩ := Option.isSome_iff_exists.mp
    (by decide +kernel : (Command.command? 1 "say \"jump\"".toList).isSome = true)
  rw [Command.command?_eq_some_iff] at ha
  have hframe : r.script.perFrame
      = [] ++ ⟨1, .on (.key (loweredKey " ")) (.act (.say "jump"))⟩ :: [] := by
    rw [hscript]
    rfl
  refine ⟨as, r, hcalls, (hkeys _).mp hspace, ?_, ⟨a, ha, ?_⟩, ?_⟩
  · rw [← hkeys, hup]
    simp
  · exact (hreading 1 _ hliteral (by decide +kernel)).mpr ⟨a, ha, rfl⟩
  · refine (hupdate hphase hframe).1.trans ?_
    show ((r.log _).carryOut (if r.isKeyDown " " then _ else _)).bind _ = _
    rw [if_pos hblank]

end Run
end StageScript
