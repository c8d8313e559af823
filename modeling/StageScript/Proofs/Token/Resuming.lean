/-
# Reading from a token on

The actions of a trigger and the right sides of assignments are cut out of their line where one of
its tokens begins, and are read again.  Nothing is read there that was not read before: from any
token on, a line is read as the tokens that it has from there on (`relexed_from_every_token`).
The end of the tokens counts as such a place too.

The argument goes token by token.  What is read behind a token depends only on the text behind it
(`exists_gap`), so the tokens in front can be dropped one after another.  What is left then is the
text from the wanted token on, read at its place in the line; read by itself, everything in it
moves to the left by the bytes in front (`lexFrom_eq_move`).
-/
import StageScript.Proofs.Token.Blanks

namespace StageScript
namespace Token

/-- The byte at which the `i`-th token of the line begins; behind the last one, the byte at which
the tokens stop. -/
def Line.offsetAt (l : Line) (i : Nat) : Nat := (l.tokens[i]?.map Token.offset).getD l.stop

variable {cs : List Char} {l : Line} {offset : Nat}

/-- Up to its first token, or up to where the tokens stop, a text yields nothing. -/
theorem exists_rest_at_first (h : lexFrom offset cs = .ok l) :
    ∃ gap rest, cs = gap ++ rest ∧ l.offsetAt 0 = offset + Text.byteLength gap
      ∧ lexFrom (l.offsetAt 0) rest = .ok l := by
  obtain ⟨gap, rest, hgap, rfl, hcases⟩ := exists_gap h
  rw [lexFrom_blanks hgap] at h
  have hoffset : l.offsetAt 0 = offset + Text.byteLength gap := by
    rcases hcases with ⟨-, rfl⟩ | ⟨lexeme, span, l', -, -, -, rfl⟩
    · rfl
    · rfl
  exact ⟨gap, rest, rfl, hoffset, by rw [hoffset, h]⟩

/-- **Where the `i`-th token begins, the reading goes on with it.** -/
theorem exists_rest_at (h : lexFrom offset cs = .ok l) (i : Nat) :
    ∃ pre rest, cs = pre ++ rest ∧ l.offsetAt i = offset + Text.byteLength pre
      ∧ lexFrom (l.offsetAt i) rest = .ok ⟨l.tokens.drop i, l.stop⟩ := by
  -- on the tokens in front: each is passed over together with the blanks before it
  induction i generalizing offset cs l with
  | zero => exact exists_rest_at_first h
  | succ i ih =>
    obtain ⟨gap, behind, hgap, rfl, ⟨-, rfl⟩ | ⟨lexeme, span, l', htakes, -, hl', rfl⟩⟩ :=
      exists_gap h
    · -- without a token the first place is the last one too
      exact exists_rest_at_first h
    · obtain ⟨pre, rest, hrest, hoffset, hread⟩ := ih hl'
      refine ⟨gap ++ span ++ pre, rest, ?_, ?_, hread⟩
      · rw [htakes.text, hrest]
        simp only [List.append_assoc]
      · have hnext : (l'.behind [⟨lexeme.kind, offset + Text.byteLength gap⟩]).offsetAt (i + 1)
            = l'.offsetAt i := rfl
        rw [hnext, hoffset]
        simp only [Text.byteLength_append]
        omega

/-- Reading a text at another place moves its tokens only. -/
theorem lex_of_lexFrom {d : Nat} (h : lexFrom d cs = .ok l) (line base : Nat) :
    ∃ l', lex line base cs = .ok l' ∧ l'.move d = l := by
  rw [lexFrom_eq_move] at h
  cases hread : lexFrom 0 cs with
  | error f => simp [hread, Except.map, Except.mapError] at h
  | ok l' =>
    rw [hread] at h
    exact ⟨l', lex_eq_ok_iff.mpr hread, Except.ok.inj h⟩

/-- **From every token on, a line is read as before.**  The text from the `i`-th token to the end
is cut out safely.  Read by itself, under any line number and behind any number of bytes, it has
the tokens of the line from the `i`-th on and no other ones, each with its offset and its column
smaller by the offset of the `i`-th, and they stop where they stopped. -/
theorem relexed_from_every_token {line base : Nat} (h : lex line base cs = .ok l) (i : Nat) :
    ∃ pre rest, cs = pre ++ rest ∧ Text.byteLength pre = l.offsetAt i
      ∧ Text.slice? cs (l.offsetAt i) (Text.byteLength cs) = some rest
      ∧ ∀ line' base', ∃ l', lex line' base' rest = .ok l'
          ∧ List.Forall₂ (fun u t : Token => u.kind = t.kind
              ∧ u.offset + l.offsetAt i = t.offset ∧ u.column + l.offsetAt i = t.column)
              l'.tokens (l.tokens.drop i)
          ∧ l'.stop + l.offsetAt i = l.stop := by
  obtain ⟨pre, rest, htext, hoffset, hread⟩ := exists_rest_at (lex_eq_ok_iff.mp h) i
  rw [Nat.zero_add] at hoffset
  refine ⟨pre, rest, htext, hoffset.symm, ?_, ?_⟩
  · rw [htext, hoffset]
    exact Text.slice?_append pre rest
  · intro line' base'
    obtain ⟨l', hlex, hmove⟩ := lex_of_lexFrom hread line' base'
    obtain ⟨htokens, hstop⟩ := Line.mk.inj hmove
    refine ⟨l', hlex, ?_, hstop⟩
    rw [← htokens, List.forall₂_map_right_iff]
    refine List.forall₂_same.mpr ?_
    intro u _
    exact ⟨rfl, rfl, Nat.add_right_comm u.offset 1 _⟩

theorem relexed_from_every_token_mixedLine :
    ∃ l', lex 1 7 ['.', '5', '%', ' ', '/', '/'] = .ok l' ∧ l'.tokens.length = 2
      ∧ l'.stop = 4 := by
  obtain ⟨pre, rest, -, -, hslice, hread⟩ := relexed_from_every_token lex_mixedLine 2
  have hcut : Text.slice? mixedLine 7 (Text.byteLength mixedLine)
      = some ['.', '5', '%', ' ', '/', '/'] := by decide
  obtain rfl := Option.some.inj (hcut.symm.trans hslice)
  obtain ⟨l', hlex, htokens, hstop⟩ := hread 1 7
  exact ⟨l', hlex, htokens.length_eq, Nat.add_right_cancel hstop⟩

end Token
end StageScript
