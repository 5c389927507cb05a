import Mathlib.Data.List.Infix
import Mathlib.Data.List.TakeWhile
import Wasm.Text.Trivia

/-!
# What counts as trivia

Blanks and comments are described by their form and by what may stand behind
them, apart from how they are found.  The trivia that a text starts with is the
longest sequence of them.
-/

namespace Wasm.Text

/-- A run of characters ends where none of the same kind follows. -/
theorem takeWhile_append_of_stop {kind : Char → Bool} {run behind : List Char}
    (inside : ∀ character ∈ run, kind character = true)
    (stops : behind.head?.any kind = false) :
    (run ++ behind).takeWhile kind = run := by
  rw [List.takeWhile_append_of_pos inside, List.append_right_eq_self]
  cases behind with
  | nil => rfl
  | cons character behind =>
      exact List.takeWhile_cons_of_neg (by simpa using stops)

theorem any_head?_dropWhile (kind : Char → Bool) (text : List Char) :
    (text.dropWhile kind).head?.any kind = false := by
  have stopped := List.head?_dropWhile_not kind text
  cases head : (text.dropWhile kind).head? with
  | none => rfl
  | some character =>
      rw [head] at stopped
      exact stopped

namespace Trivia

/-- The two characters that close a block comment. -/
def blockEnd : List Char :=
  [';', ')']

/-- A newline or the end of the text. -/
def EndsLine (behind : List Char) : Prop :=
  behind = [] ∨ behind.head? = some '\n'

/-- A blank or a comment, and what stands behind it.  A line comment stops
before a newline or at the end.  A block comment ends at the first `;)` behind
its opening. -/
inductive Piece : List Char → List Char → Prop where
  | blank {character : Char} {behind : List Char} :
      isBlank character = true → Piece [character] behind
  | line {body behind : List Char} :
      '\n' ∉ body → EndsLine behind → Piece (';' :: ';' :: body) behind
  | block {body behind : List Char} :
      ¬ blockEnd <:+: body ++ [';'] →
        Piece ('(' :: ';' :: body ++ blockEnd) behind

/-- Blanks and comments one after the other, and what stands behind the last
one. -/
inductive Sequence : List Char → List Char → Prop where
  | nil {behind : List Char} : Sequence [] behind
  | cons {piece rest behind : List Char} :
      Piece piece (rest ++ behind) → Sequence rest behind →
        Sequence (piece ++ rest) behind

theorem blockEnd_prefix_cons_iff {character : Char} {rest : List Char} :
    blockEnd <+: character :: rest ↔
      character = ';' ∧ rest.head? = some ')' := by
  cases rest with
  | nil => simp [blockEnd]
  | cons next rest => simp [blockEnd, eq_comm]

/-- What follows a semicolon does not make a comment end before it. -/
theorem blockEnd_prefix_through_semicolon_iff {character : Char}
    {body rest : List Char} :
    blockEnd <+: character :: (body ++ ';' :: rest) ↔
      blockEnd <+: character :: (body ++ [';']) := by
  rw [blockEnd_prefix_cons_iff, blockEnd_prefix_cons_iff]
  cases body <;> simp

theorem throughBlockEnd?_cons {character : Char} {rest : List Char}
    (unclosed : ¬ blockEnd <+: character :: rest) :
    throughBlockEnd? (character :: rest) =
      (throughBlockEnd? rest).map (character :: ·) := by
  rw [throughBlockEnd?]
  rintro tail rfl rfl
  exact unclosed (blockEnd_prefix_cons_iff.mpr ⟨rfl, rfl⟩)

theorem throughBlockEnd?_append {body behind : List Char}
    (first : ¬ blockEnd <:+: body ++ [';']) :
    throughBlockEnd? (body ++ blockEnd ++ behind) =
      some (body ++ blockEnd) := by
  induction body with
  | nil => rfl
  | cons character body induction =>
      rw [List.cons_append, List.infix_cons_iff, not_or] at first
      have unclosed :
          ¬ blockEnd <+: character :: (body ++ blockEnd ++ behind) := by
        rw [List.append_assoc]
        exact mt blockEnd_prefix_through_semicolon_iff.mp first.1
      rw [List.cons_append, List.cons_append, throughBlockEnd?_cons unclosed,
        induction first.2]
      rfl

theorem throughBlockEnd?_eq_some_iff {text piece : List Char} :
    throughBlockEnd? text = some piece ↔
      ∃ body behind, piece = body ++ blockEnd ∧ text = piece ++ behind ∧
        ¬ blockEnd <:+: body ++ [';'] := by
  constructor
  · intro found
    induction text generalizing piece with
    | nil => cases found
    | cons character rest induction =>
        by_cases closes : blockEnd <+: character :: rest
        · obtain ⟨behind, rfl, rfl⟩ := closes
          cases found
          exact ⟨[], behind, rfl, rfl, by simp [blockEnd, List.infix_cons_iff]⟩
        · rw [throughBlockEnd?_cons closes] at found
          obtain ⟨inner, innerFound, rfl⟩ := Option.map_eq_some_iff.mp found
          obtain ⟨body, behind, rfl, rfl, first⟩ := induction innerFound
          refine ⟨character :: body, behind, rfl, rfl, ?_⟩
          rw [List.append_assoc] at closes
          rw [List.cons_append, List.infix_cons_iff, not_or]
          exact ⟨mt blockEnd_prefix_through_semicolon_iff.mpr closes, first⟩
  · rintro ⟨body, behind, rfl, rfl, first⟩
    exact throughBlockEnd?_append first

theorem throughBlockEnd?_eq_none_iff {text : List Char} :
    throughBlockEnd? text = none ↔ ¬ blockEnd <:+: text := by
  induction text with
  | nil => simp [throughBlockEnd?, blockEnd]
  | cons character rest induction =>
      by_cases closes : blockEnd <+: character :: rest
      · obtain ⟨behind, rfl, rfl⟩ := closes
        simp [throughBlockEnd?, blockEnd, List.infix_cons_iff]
      · rw [throughBlockEnd?_cons closes, Option.map_eq_none_iff, induction,
          List.infix_cons_iff, not_or]
        simp [closes]

theorem endsLine_iff {behind : List Char} :
    EndsLine behind ↔ behind.head?.any (· != '\n') = false := by
  cases behind <;> simp [EndsLine]

theorem piece?_eq_some_iff {text piece : List Char} :
    piece? text = some piece ↔
      ∃ behind, text = piece ++ behind ∧ Piece piece behind := by
  constructor
  · intro found
    unfold piece? at found
    split at found
    · rename_i rest
      cases found
      refine ⟨rest.dropWhile (· != '\n'), ?_, .line ?_ ?_⟩
      · simp
      · intro member
        simpa using List.mem_takeWhile_imp member
      · exact endsLine_iff.mpr (any_head?_dropWhile _ rest)
    · obtain ⟨inner, innerFound, rfl⟩ := Option.map_eq_some_iff.mp found
      obtain ⟨body, behind, rfl, rfl, first⟩ :=
        throughBlockEnd?_eq_some_iff.mp innerFound
      exact ⟨behind, rfl, .block first⟩
    · rename_i character rest _ _
      split at found
      · rename_i blank
        cases found
        exact ⟨rest, rfl, .blank blank⟩
      · cases found
    · cases found
  · rintro ⟨behind, rfl, form⟩
    cases form with
    | @blank character _ blank =>
        have notLine : character ≠ ';' := by
          rintro rfl
          cases blank
        have notBlock : character ≠ '(' := by
          rintro rfl
          cases blank
        rw [List.singleton_append, piece?]
        · rw [if_pos blank]
        · intro rest same _
          exact notLine same
        · intro rest same _
          exact notBlock same
    | @line body _ inside stops =>
        have kept : ∀ character ∈ body, (character != '\n') = true := by
          intro character member
          simpa using ne_of_mem_of_not_mem member inside
        rw [List.cons_append, List.cons_append, piece?,
          takeWhile_append_of_stop kept (endsLine_iff.mp stops)]
    | block first =>
        simp only [List.cons_append, piece?, throughBlockEnd?_append first,
          Option.map_some]

/-- Whether trivia is trivia depends on what stands behind it only as far as it
ends a line. -/
theorem Sequence.congr {text behind other : List Char}
    (sequence : Sequence text behind)
    (ends : EndsLine behind → EndsLine other) : Sequence text other := by
  induction sequence with
  | nil => exact .nil
  | @cons piece rest behind form _ induction =>
      apply Sequence.cons ?_ (induction ends)
      cases form with
      | blank blank => exact .blank blank
      | line inside stops =>
          apply Piece.line inside
          cases rest with
          | nil => exact ends stops
          | cons => simpa [EndsLine] using stops
      | block first => exact .block first

theorem Sequence.append {text more behind : List Char}
    (first : Sequence text (more ++ behind)) (second : Sequence more behind) :
    Sequence (text ++ more) behind := by
  generalize whole : more ++ behind = after at first
  induction first with
  | nil => exact second
  | @cons piece rest after form _ induction =>
      subst whole
      rw [List.append_assoc]
      apply Sequence.cons ?_ (induction rfl)
      rwa [List.append_assoc]

theorem sequence_of_blanks {text : List Char}
    (blanks : ∀ character ∈ text, isBlank character = true)
    (behind : List Char) :
    Sequence text behind := by
  induction text with
  | nil => exact .nil
  | cons character text induction =>
      obtain ⟨blank, others⟩ := List.forall_mem_cons.mp blanks
      exact .cons (.blank blank) (induction others)

/-- Nothing is trivia that starts a text without any. -/
theorem leading_of_piece?_eq_none {text : List Char}
    (bare : piece? text = none) :
    leading text = [] := by
  rw [leading]
  split
  · rfl
  · rename_i found
    rw [bare] at found
    cases found

theorem leading_of_piece? {text piece : List Char}
    (found : piece? text = some piece) :
    leading text = piece ++ leading (text.drop piece.length) := by
  rw [leading]
  split
  · rename_i missing
    rw [found] at missing
    cases missing
  · rename_i other otherFound
    rw [found] at otherFound
    cases otherFound
    rfl

theorem leading_append {text behind : List Char}
    (sequence : Sequence text behind) (ended : piece? behind = none) :
    leading (text ++ behind) = text := by
  induction sequence with
  | nil => exact leading_of_piece?_eq_none ended
  | @cons piece rest behind form _ induction =>
      have found : piece? (piece ++ rest ++ behind) = some piece :=
        piece?_eq_some_iff.mpr ⟨rest ++ behind, List.append_assoc .., form⟩
      rw [leading_of_piece? found, List.append_assoc, List.drop_left,
        induction ended]

/-- The leading trivia is a sequence of blanks and comments that nothing
extends. -/
theorem exists_sequence_leading (text : List Char) :
    ∃ behind, text = leading text ++ behind ∧ Sequence (leading text) behind ∧
      piece? behind = none := by
  fun_induction leading text with
  | case1 text ended => exact ⟨text, rfl, .nil, ended⟩
  | case2 text piece found induction =>
      obtain ⟨rest, rfl, form⟩ := piece?_eq_some_iff.mp found
      rw [List.drop_left] at induction ⊢
      obtain ⟨behind, whole, sequence, ended⟩ := induction
      refine ⟨behind, ?_, .cons ?_ sequence, ended⟩
      · rw [List.append_assoc, ← whole]
      · rwa [← whole]

end Trivia

end Wasm.Text
