/-
# Reading a command

The first tokens of a line decide its form, in a fixed order: a key guard, an assignment to a
property, an assignment to a variable, then the verbs.  A line that starts like one form and
goes on differently is refused, never read as another.

A trigger takes the rest of its line as a command of its own.  That rest is cut out of the
text, trimmed and read from its characters again, with the bytes before it as the new base, so
the columns of its faults are those of the whole line.
-/
import StageScript.Command
import StageScript.Expr.Reading
import StageScript.Text.Lower

namespace StageScript
namespace Command

/-! ## 1. The rest of a line -/

/-- The text from the next token to the end of the line or its comment, trimmed. -/
def remainder (src : List Char) (p : Place) (ts : List Token) : List Char :=
  Text.trim ((Text.slice? src (p.offset ts) p.stop).getD [])

/-- Takes the rest of the line as it stands. -/
def restOrEmpty (src : List Char) : Reader String :=
  Reader.step fun p ts => .ok (String.ofList (remainder src p ts), [])

/-- Takes the rest of the line as it stands; it must not be empty. -/
def rest (src : List Char) : Reader String :=
  Reader.step fun p ts =>
    let text := remainder src p ts
    if text.isEmpty then .error (p.missing ts .value) else .ok (String.ofList text, [])

/-- A text without the quotes around it; a text that is not between quotes itself. -/
def withoutQuotes (cs : List Char) : List Char :=
  match cs with
  | '"' :: inner => if inner.getLast? = some '"' then inner.dropLast else cs
  | _ => cs

/-- Takes the rest of the line without the quotes around it. -/
def restUnquoted (src : List Char) : Reader String := do
  pure (String.ofList (withoutQuotes (← rest src).toList))

/-- Takes the rest of the line as the source of an expression. -/
def exprSource (src : List Char) : Reader ExprSource :=
  Reader.step fun p ts =>
    let text := remainder src p ts
    let parsed :=
      if text.isEmpty then .error (p.fault ts .missingExpression)
      else Expr.ofText p.line (p.base + p.offset ts) text
    .ok (⟨String.ofList text, parsed⟩, [])

/-! ## 2. Parts of forms -/

/-- Takes `(x,y)`. -/
def point : Reader Point := do
  Reader.mark .leftParen
  let x ← Expr.reader
  Reader.mark .comma
  let y ← Expr.reader
  Reader.mark .rightParen
  pure ⟨x, y⟩

/-- Takes `from A to B`. -/
def randomRange : Reader RandomRange := do
  Reader.word "from"
  let first ← Reader.wholeNumber
  Reader.word "to"
  let last ← Reader.wholeNumber
  pure ⟨first, last⟩

/-- Takes one of two spellings; a message asks for the second. -/
def eitherWord (v w : String) : Reader Unit := do
  unless ← Reader.takesWord v do Reader.word w

/-- Takes what stands behind `spawn`. -/
def box : Reader Declaration := do
  let x ← Expr.operandReader
  let y ← Expr.operandReader
  let w ← Expr.operandReader
  let h ← Expr.operandReader
  pure (.box x y w h)

/-- Takes what stands behind `image`. -/
def image : Reader Declaration := do
  let path ← Reader.textLiteral
  Reader.word "at"
  let position ← point
  Reader.word "size"
  let w ← Expr.operandReader
  let h ← Expr.operandReader
  pure (.image path position w h)

/-- Takes what stands behind `text`. -/
def label : Reader Declaration := do
  let text ← Reader.textLiteral
  Reader.word "at"
  let position ← point
  Reader.word "size"
  let size ← Expr.operandReader
  eitherWord "colour" "color"
  let color ← Reader.color
  Reader.word "font"
  let font ← Reader.textLiteral
  pure (.text text position size color font)

/-- Takes what a name is declared as.  The four words that can begin a declaration are names
as well, so each counts only with the right token behind it. -/
def declaration : Reader Declaration := do
  match ← Reader.ahead with
  | ⟨.word w, _⟩ :: next :: _ =>
    let behind := next.kind
    if w = "spawn" then Reader.skip; box
    else if w = "image" ∧ behind matches .text _ then Reader.skip; image
    else if w = "text" ∧ behind matches .text _ then Reader.skip; label
    else if w = "random" ∧ behind.isWord "from" then
      Reader.skip
      Declaration.random <$> randomRange
    else Declaration.number <$> Expr.reader
  | _ => Declaration.number <$> Expr.reader

/-- Takes the value assigned to a property. -/
def propertyValue (src : List Char) (property : String) : Reader PropertyValue :=
  if property ∈ ["x", "y", "w", "h"] then .number <$> exprSource src
  else if property ∈ ["colour", "color"] then .color <$> rest src
  else if property = "text" then .text <$> restUnquoted src
  else .unknown <$> restOrEmpty src

/-! ## 3. Forms -/

/-- What a line is, up to the command behind its trigger. -/
inductive Form where
  | action (a : Action)
  | trigger (t : Trigger)

/-- Takes what stands behind `make`. -/
def make (src : List Char) : Reader Action := do
  if ← Reader.takesWord "it" then .setColor <$> rest src
  else if ← Reader.takesWord "background" then .setBackground <$> rest src
  else Reader.unexpected .itOrBackground

/-- Takes what stands behind `draw`. -/
def draw : Reader Action := do
  if ← Reader.takesWord "circle" then
    Reader.word "at"
    let center ← point
    Reader.word "radius"
    let radius ← Expr.operandReader
    pure (.drawCircle center radius)
  else if ← Reader.takesWord "line" then
    Reader.word "from"
    let start ← point
    Reader.word "to"
    let finish ← point
    Reader.word "width"
    let width ← Expr.operandReader
    pure (.drawLine start finish width)
  else Reader.unexpected .circleOrLine

/-- Takes what stands behind `play`. -/
def play : Reader Action := do
  Reader.word "sound"
  .playSound <$> Reader.textLiteral

/-- Takes what stands behind `let`. -/
def declare : Reader Action := do
  let name ← Reader.identifier
  Reader.mark .equals
  .declare name <$> declaration

/-- Takes what stands behind `add`. -/
def add : Reader Action := do
  let name ← Reader.identifier
  .add name <$> Reader.number

/-- Takes what stands behind `rotate`. -/
def rotate : Reader Action := do
  let entity ← Reader.identifier
  Reader.word "by"
  let degrees ← Reader.number
  eitherWord "degrees" "degree"
  pure (.rotate entity degrees)

/-- Takes what stands behind `every`, up to the command. -/
def every : Reader Trigger := do
  let seconds ← Reader.number
  eitherWord "seconds" "second"
  Reader.word "then"
  pure (.every seconds)

/-- Takes what stands behind `if key`, up to the command. -/
def keyGuard : Reader Trigger := do
  let key ← Reader.textLiteral
  Reader.word "down"
  Reader.word "then"
  pure (.key (String.ofList (Text.lower key.toList)))

/-- Takes what stands behind a verb; nothing if the word is no verb. -/
def verbForm? (src : List Char) : String → Option (Reader Form)
  | "say" => some (.action <$> (.say <$> restUnquoted src))
  | "make" => some (.action <$> make src)
  | "draw" => some (.action <$> draw)
  | "play" => some (.action <$> play)
  | "let" => some (.action <$> declare)
  | "add" => some (.action <$> add)
  | "random" => some (.action <$> (.random <$> randomRange))
  | "rotate" => some (.action <$> rotate)
  | "on" => some (do Reader.word "click"; pure (.trigger .click))
  | "every" => some (.trigger <$> every)
  | _ => none

/-- Takes a line up to the command behind its trigger, if it has one. -/
def form (src : List Char) : Reader Form := do
  match ← Reader.ahead with
  | ⟨.word head, _⟩ :: behind =>
    if head = "if" ∧ (behind.head?.any (·.kind.isWord "key")) then
      Reader.skip
      Reader.skip
      Form.trigger <$> keyGuard
    else
      match behind with
      | ⟨.mark .dot, _⟩ :: ⟨.word property, _⟩ :: ⟨.mark .equals, _⟩ :: rest =>
        set rest
        Form.action <$> (.setProperty head property <$> propertyValue src property)
      | ⟨.mark .equals, _⟩ :: rest =>
        set rest
        Form.action <$> (.assign head <$> exprSource src)
      | _ =>
        match verbForm? src head with
        | some reader => Reader.skip; reader
        | none => Reader.unexpected .command
  | _ => Reader.unexpected .command

/-! ## 4. Lines -/

/-- The command that a trimmed text is, in a line in which `base` bytes stand before it. -/
def ofText (line base : Nat) (src : List Char) : Except SyntaxError Command :=
  match Token.lex line base src with
  | .error e => .error e
  | .ok lexed =>
    let p : Place := ⟨line, base, lexed.stop⟩
    match form src p lexed.tokens with
    | .error e => .error e
    | .ok (.action a, ts) => (Reader.endOfLine p ts).map fun _ => act a
    | .ok (.trigger t, ts) =>
      let inner := remainder src p ts
      if _h : inner ≠ [] ∧ inner.length < src.length then
        match ofText line (base + p.offset ts) inner with
        | .error e => .error e
        | .ok c => .ok (on t c)
      else .error (p.missing ts .value)
termination_by src.length
decreasing_by exact _h.2

/-- The command of a line; nothing for a blank line and for a comment. -/
def ofLine? (line : Nat) (text : List Char) : Option (Except SyntaxError Command) :=
  let trimmed := Text.trim text
  if trimmed.isEmpty || Token.startsComment trimmed then none else some (ofText line 0 trimmed)

end Command

/-! ## 5. Scripts -/

namespace Script

/-- The script of some lines, of which the first has the number `line`. -/
def ofLines (line : Nat) : List (List Char) → Script
  | [] => empty
  | text :: more =>
    let behind := ofLines (line + 1) more
    match Command.ofLine? line text with
    | none => behind
    | some (.ok c) => { behind with statements := ⟨line, c⟩ :: behind.statements }
    | some (.error e) =>
      { behind with
        unrecognized := ⟨line, String.ofList (Text.trim text), e⟩ :: behind.unrecognized }

/-- The script of a text.  Every text is one. -/
def ofText (source : String) : Script := ofLines 1 (Text.lines source.toList)

end Script
end StageScript
