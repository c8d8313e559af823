/-
# The canonical text of a command

Every command has a text: its words with single blanks between them (`Command.text`).  A command
is canonical if its text is its own: its names are names, its numbers are finite, its expressions
are canonical, a whole bound has at most 53 bits, a key is in lower case, and the source of an
assignment is the printed expression.  Left out are `say` and `let n = e`, whose texts may be
those of other commands, and values of properties that take the rest of the line as it stands.

The words of a canonical command are spelled by tokens that are known, so its text is as well.
-/
import StageScript.Proofs.Expr.Printing

namespace StageScript

open Token (Kind Spells isName literal)

/-! ## 1. Words -/

/-- The text of a point. -/
def Point.text (p : Point) : String := "(" ++ p.x.text ++ "," ++ p.y.text ++ ")"

/-- The words of the bounds of a random number. -/
def RandomRange.words (r : RandomRange) : List String :=
  ["from", toString r.first.toInt, "to", toString r.last.toInt]

/-- The words behind `let n =`. -/
def Declaration.words : Declaration → List String
  | box x y w h => ["spawn", x.text, y.text, w.text, h.text]
  | image path position w h => ["image", literal path, "at", position.text, "size", w.text, h.text]
  | text t position size color font =>
    ["text", literal t, "at", position.text, "size", size.text, "colour", color, "font",
      literal font]
  | random range => "random" :: range.words
  | number value => [value.text]

/-- The text of the value of a property. -/
def PropertyValue.word : PropertyValue → String
  | number source => source.text
  | color token => token
  | text t | unknown t => t

/-- The words of an action. -/
def Action.words : Action → List String
  | say t => ["say", t]
  | setColor token => ["make", "it", token]
  | setBackground token => ["make", "background", token]
  | drawCircle center radius => ["draw", "circle", "at", center.text, "radius", radius.text]
  | drawLine start finish width =>
    ["draw", "line", "from", start.text, "to", finish.text, "width", width.text]
  | playSound path => ["play", "sound", literal path]
  | declare name value => "let" :: name :: "=" :: value.words
  | assign name source => [name, "=", source.text]
  | setProperty entity property value => [entity ++ "." ++ property, "=", value.word]
  | add name amount => ["add", name, Decimal.plain amount]
  | random range => "random" :: range.words
  | rotate entity degrees => ["rotate", entity, "by", Decimal.plain degrees, "degrees"]

/-- The words of a trigger. -/
def Trigger.words : Trigger → List String
  | click => ["on", "click"]
  | every seconds => ["every", Decimal.plain seconds, "seconds", "then"]
  | key name => ["if", "key", literal name, "down", "then"]

/-- The words of a command. -/
def Command.words : Command → List String
  | act a => a.words
  | on t c => t.words ++ c.words

/-- The text of a command: its words with single blanks between them. -/
def Command.text (c : Command) : String := " ".intercalate c.words

/-! ## 2. Canonical commands -/

/-- A color of one token: a name, or a `#` with letters and digits behind it. -/
def Token.isColor (token : String) : Bool :=
  isName token || match token.toList with
    | '#' :: digits => digits.all Char.isAlphanum
    | _ => false

def Point.isCanonical (p : Point) : Bool := p.x.isCanonical && p.y.isCanonical

/-- The bounds are doubles. -/
def RandomRange.isCanonical (r : RandomRange) : Bool :=
  r.first.toInt.natAbs ≤ 2 ^ 53 && r.last.toInt.natAbs ≤ 2 ^ 53

/-- The source is a printed expression. -/
def ExprSource.isCanonical (s : ExprSource) : Bool :=
  match s.parsed with
  | .ok e => e.isCanonical && s.text == e.text
  | .error _ => false

theorem ExprSource.exists_expr {s : ExprSource} (hs : s.isCanonical = true) :
    ∃ e : Expr, e.isCanonical = true ∧ s = ⟨e.text, .ok e⟩ := by
  obtain ⟨text, parsed⟩ := s
  cases parsed with
  | error f => simp [isCanonical] at hs
  | ok e =>
    simp only [isCanonical, Bool.and_eq_true, beq_iff_eq] at hs
    exact ⟨e, hs.1, by rw [hs.2]⟩

def Declaration.isCanonical : Declaration → Bool
  | box x y w h => x.isCanonical && y.isCanonical && w.isCanonical && h.isCanonical
  | image _ position w h => position.isCanonical && w.isCanonical && h.isCanonical
  | text _ position size color _ =>
    position.isCanonical && size.isCanonical && Token.isColor color
  | random range => range.isCanonical
  | number _ => false

/-- The value is one that the property takes. -/
def PropertyValue.isCanonical (property : String) : PropertyValue → Bool
  | number source => property ∈ ["x", "y", "w", "h"] && source.isCanonical
  | color token => property ∈ ["colour", "color"] && Token.isColor token
  | text _ | unknown _ => false

def Action.isCanonical : Action → Bool
  | say _ => false
  | setColor token | setBackground token => Token.isColor token
  | drawCircle center radius => center.isCanonical && radius.isCanonical
  | drawLine start finish width =>
    start.isCanonical && finish.isCanonical && width.isCanonical
  | playSound _ => true
  | declare name value => isName name && value.isCanonical
  | assign name source => isName name && source.isCanonical
  | setProperty entity property value => isName entity && value.isCanonical property
  | add name amount => isName name && amount.isFinite
  | random range => range.isCanonical
  | rotate entity degrees => isName entity && degrees.isFinite

def Trigger.isCanonical : Trigger → Bool
  | click => true
  | every seconds => seconds.isFinite
  | key name => Text.lower name.toList == name.toList

def Command.isCanonical : Command → Bool
  | act a => a.isCanonical
  | on t c => t.isCanonical && c.isCanonical

/-! ## 3. Words and their tokens -/

/-- A word of a line, with the tokens that spell it.  None begins with a point, so none prolongs
the word before it. -/
structure Word where
  text : String
  kinds : List Kind
  spells : Spells text.toList kinds
  solid : Text.Solid text.toList
  ne_nil : kinds ≠ []
  head?_ne_dot : kinds.head? ≠ some (.mark .dot)

namespace Decimal

/-- The tokens of a whole number. -/
def wholeSpelling (i : Int) : List Kind :=
  let digits := Kind.number (Numeral.ofNat i.natAbs).nearest
  if i < 0 then [.mark .minus, digits] else [digits]

theorem toList_toString (i : Int) :
    (toString i).toList = signChars (i < 0) ++ (Numeral.ofNat i.natAbs).chars := by
  rw [Numeral.chars_ofNat]
  cases i with
  | ofNat k => simp [toString, Int.repr, Nat.repr, signChars, digitChars]
  | negSucc k => simp [toString, Int.repr, Nat.repr, signChars, digitChars, String.toList_append]

theorem spells_whole (i : Int) : Spells (toString i).toList (wholeSpelling i) := by
  rw [toList_toString, wholeSpelling]
  by_cases hi : i < 0
  · simpa [hi, signChars] using (Spells.numeral _).cons_mark (c := '-') rfl (by decide) (by decide)
  · simpa [hi, signChars] using Spells.numeral _

theorem solid_whole (i : Int) : Text.Solid (toString i).toList := by
  rw [toList_toString]
  have hdigits := (Numeral.ofNat i.natAbs).solid_chars
  unfold signChars
  split_ifs
  · exact hdigits.cons rfl
  · exact hdigits

end Decimal

namespace Word

variable (w w' : Word) (ws : List Word)

def name (n : String) (h : isName n = true) : Word where
  text := n
  kinds := [.word n]
  spells := .name h
  solid := Token.solid_of_isName h
  ne_nil := by simp
  head?_ne_dot := by simp

def literal (t : String) : Word where
  text := Token.literal t
  kinds := [.text t]
  spells := .literal t
  solid := Token.solid_literal t
  ne_nil := by simp
  head?_ne_dot := by simp

def equals : Word where
  text := "="
  kinds := [.mark .equals]
  spells := .mark rfl
  solid := ⟨rfl, rfl⟩
  ne_nil := by simp
  head?_ne_dot := by simp

def number (x : Float) (hx : x.isFinite = true) : Word where
  text := Decimal.plain x
  kinds := Decimal.spelling x
  spells := Decimal.spells_plain hx
  solid := Decimal.solid_plain hx
  ne_nil := Decimal.spelling_ne_nil x
  head?_ne_dot := Decimal.head?_spelling_ne (by decide) x

def whole (i : Int) : Word where
  text := toString i
  kinds := Decimal.wholeSpelling i
  spells := Decimal.spells_whole i
  solid := Decimal.solid_whole i
  ne_nil := by
    unfold Decimal.wholeSpelling
    split_ifs <;> simp
  head?_ne_dot := by
    unfold Decimal.wholeSpelling
    split_ifs <;> simp

def expr (e : Expr) (he : e.isCanonical = true) : Word where
  text := e.text
  kinds := e.spelling
  spells := Expr.spells_text he
  solid := Expr.solid_text he
  ne_nil := e.spelling_ne_nil
  head?_ne_dot := e.head?_spelling_ne_dot

/-- A name, a point and the name of a property. -/
def property (entity prop : String) (he : isName entity = true) (hp : isName prop = true) : Word :=
  expr (.property entity prop) (Bool.and_eq_true_iff.mpr ⟨he, hp⟩)

/-- Two coordinates between parentheses. -/
def point (p : Point) (hp : p.isCanonical = true) : Word where
  text := p.text
  kinds := .mark .leftParen :: ((p.x.spelling ++ .mark .comma :: p.y.spelling)
    ++ [.mark .rightParen])
  spells := by
    rw [Point.isCanonical, Bool.and_eq_true] at hp
    have hy := (Expr.spells_text hp.2).cons_mark (c := ',') rfl (by decide) (by decide)
    have hgroup := ((Expr.spells_text hp.1).append hy fun _ => rfl).group
    simpa [Point.text, String.toList_append] using hgroup
  solid := by
    have hbetween := Text.solid_between (c := '(') (d := ')') rfl rfl
      (p.x.text ++ "," ++ p.y.text).toList
    simpa [Point.text, String.toList_append] using hbetween
  ne_nil := by simp
  head?_ne_dot := by simp

/-- The token of a color. -/
def colorKind (token : String) : Kind := if isName token then .word token else .hex token

theorem spells_color {token : String} (h : Token.isColor token = true) :
    Spells token.toList [colorKind token] ∧ Text.Solid token.toList := by
  unfold Token.isColor at h
  unfold colorKind
  by_cases hname : isName token = true
  · rw [if_pos hname]
    exact ⟨.name hname, Token.solid_of_isName hname⟩
  · rw [if_neg hname]
    rw [Bool.not_eq_true] at hname
    rw [hname, Bool.false_or] at h
    split at h
    · rename_i digits hdigits
      rw [List.all_eq_true] at h
      have hword {c : Char} (hc : c ∈ digits) : Text.isBlank c = false :=
        (Token.ne_of_isWordChar (Token.isWordChar_of_isAlphanum (h c hc))).1
      have htoken : String.ofList ('#' :: digits) = token := by rw [← hdigits, String.ofList_toList]
      rw [hdigits, ← htoken]
      refine ⟨.hex h, Text.solid_of_forall (by simp) ?_⟩
      exact List.forall_mem_cons.mpr ⟨rfl, fun _ => hword⟩
    · simp at h

def color (token : String) (h : Token.isColor token = true) : Word where
  text := token
  kinds := [colorKind token]
  spells := (spells_color h).1
  solid := (spells_color h).2
  ne_nil := by simp
  head?_ne_dot := by
    unfold colorKind
    split_ifs <;> simp

/-- Two words with a blank between them. -/
def spaced : Word where
  text := w.text ++ " " ++ w'.text
  kinds := w.kinds ++ w'.kinds
  spells := by simpa [String.toList_append] using w.spells.spaced w'.spells
  solid := by simpa [String.toList_append] using w.solid.append w'.solid [' ']
  ne_nil := by simp [w.ne_nil]
  head?_ne_dot := by
    rw [List.head?_append_of_ne_nil _ w.ne_nil]
    exact w.head?_ne_dot

/-- Words with single blanks between them. -/
def join (w : Word) : List Word → Word
  | [] => w
  | w' :: ws => w.spaced (join w' ws)

theorem text_join : (join w ws).text = " ".intercalate ((w :: ws).map text) := by
  induction ws generalizing w with
  | nil => simp [join]
  | cons w' ws ih =>
    rw [join, List.map_cons, List.map_cons, String.intercalate_cons_cons, ← List.map_cons, ← ih]
    rfl

theorem kinds_join : (join w ws).kinds = (w :: ws).flatMap kinds := by
  induction ws generalizing w with
  | nil => simp [join]
  | cons w' ws ih =>
    rw [List.flatMap_cons, ← ih]
    rfl

theorem text_join_append (v : Word) (vs : List Word) :
    (join w (ws ++ v :: vs)).text = (join w ws).text ++ " " ++ (join v vs).text := by
  rw [text_join, text_join, text_join, ← List.cons_append, List.map_append,
    String.intercalate_append_of_ne_nil (by simp) (by simp)]

end Word

end StageScript
