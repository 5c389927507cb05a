import Mathlib.Data.String.Basic
import Wasm.Proofs.Text.Lexemes

/-!
# Tokens divide the source

The lexer divides its source into trivia and lexemes.  Nothing is left out or
read twice, every lexeme is the one of its token, and only text that cannot be
placed stops the division.
-/

namespace Wasm

open Text

namespace TextCursor

theorem position_pass (cursor : TextCursor) (count : Nat) :
    (cursor.pass count).position =
      cursor.position + String.utf8Len (cursor.rest.take count) := by
  induction count generalizing cursor with
  | zero => rfl
  | succ count induction =>
      cases remaining : cursor.rest with
      | nil => simp [pass, next?, remaining]
      | cons character rest =>
          simp only [pass, next?, remaining, induction, List.take_succ_cons,
            String.utf8Len_cons]
          omega

end TextCursor

namespace Lexer

/-- A division of a text that starts at a byte offset.  Each token stands behind
some trivia and comes with the offset behind its lexeme.  What is left at the
end is trivia, unless the division stops at text that cannot be placed.  The
last number is the offset at which the division ends. -/
inductive Division : Nat → List Char → List (Token × Nat) → Nat → Prop where
  | finish {offset : Nat} {text : List Char} :
      Trivia.Sequence text [] →
        Division offset text [] (offset + String.utf8Len text)
  | halt {offset : Nat} {blank lexeme behind : List Char} :
      Trivia.Sequence blank (lexeme ++ behind) → Unplaced lexeme behind →
      Division offset (blank ++ (lexeme ++ behind))
        [(.unknown (String.ofList lexeme),
          offset + String.utf8Len (blank ++ lexeme))]
        (offset + String.utf8Len (blank ++ lexeme))
  | token {offset stop : Nat} {token : Token} {blank lexeme behind : List Char}
      {tokens : List (Token × Nat)} :
      Trivia.Sequence blank (lexeme ++ behind) → token.Spelled lexeme behind →
      Division (offset + String.utf8Len (blank ++ lexeme)) behind tokens stop →
      Division offset (blank ++ (lexeme ++ behind))
        ((token, offset + String.utf8Len (blank ++ lexeme)) :: tokens) stop

theorem next_of_halted {lexer : Lexer} (halted : lexer.halted = true) :
    lexer.next = (none, lexer) := by
  rw [next, if_pos halted]

theorem next_of_trivia {lexer : Lexer} (running : lexer.halted = false)
    (trivia : Trivia.Sequence lexer.cursor.rest []) :
    lexer.next =
      (none, ⟨lexer.cursor.pass lexer.cursor.rest.length, false⟩) := by
  have leading := Trivia.leading_append trivia rfl
  rw [List.append_nil] at leading
  unfold next
  simp [running, leading, Lexeme.first?]

theorem next_of_lexeme {lexer : Lexer} {token : Token}
    {blank lexeme behind : List Char} (running : lexer.halted = false)
    (remaining : lexer.cursor.rest = blank ++ (lexeme ++ behind))
    (trivia : Trivia.Sequence blank (lexeme ++ behind))
    (bare : Trivia.piece? (lexeme ++ behind) = none)
    (found : Lexeme.first? (lexeme ++ behind) = some ⟨token, lexeme⟩) :
    ∃ after : Lexer, lexer.next = (some token, after) ∧
      after.halted = token.isUnknown ∧
      after.cursor.rest = behind ∧
      after.position = lexer.position + String.utf8Len (blank ++ lexeme) := by
  have leading := Trivia.leading_append trivia bare
  refine ⟨⟨(lexer.cursor.pass blank.length).pass lexeme.length,
    token.isUnknown⟩, ?_, rfl, ?_, ?_⟩
  · unfold next
    simp [running, remaining, leading, found]
  · simp [remaining]
  · simp [position, TextCursor.position_pass, remaining, Nat.add_assoc]

theorem run_of_none {lexer last : Lexer} (step : lexer.next = (none, last)) :
    lexer.run = ([], last) := by
  rw [run]
  split
  · rename_i other ended
    rw [step] at ended
    cases ended
    rfl
  · rename_i found
    rw [step] at found
    cases found

theorem run_of_some {lexer after : Lexer} {token : Token}
    (step : lexer.next = (some token, after)) :
    lexer.run = ((token, after.position) :: after.run.1, after.run.2) := by
  rw [run]
  split
  · rename_i ended
    rw [step] at ended
    cases ended
  · rename_i found
    rw [step] at found
    cases found
    rfl

/-- The lexer finds the tokens of every division of what it has before it. -/
theorem Division.run {offset stop : Nat} {text : List Char}
    {tokens : List (Token × Nat)} (division : Division offset text tokens stop)
    {lexer : Lexer} (running : lexer.halted = false)
    (start : lexer.position = offset) (remaining : lexer.cursor.rest = text) :
    lexer.run.1 = tokens ∧ lexer.run.2.position = stop := by
  induction division generalizing lexer with
  | finish trivia =>
      subst remaining start
      rw [run_of_none (next_of_trivia running trivia)]
      simp [position, TextCursor.position_pass]
  | halt trivia unplaced =>
      obtain ⟨after, step, halted, _, stop⟩ :=
        next_of_lexeme running remaining trivia
          (Trivia.piece?_of_unplaced unplaced)
          (Lexeme.first?_of_unplaced unplaced)
      rw [run_of_some step, run_of_none (next_of_halted halted), stop, start]
      exact ⟨rfl, rfl⟩
  | token trivia spelled _ induction =>
      obtain ⟨after, step, halted, rest, stop⟩ :=
        next_of_lexeme running remaining trivia
          (Trivia.piece?_of_spelled spelled) (Lexeme.first?_of_spelled spelled)
      have known := halted.trans spelled.isUnknown_eq_false
      obtain ⟨others, last⟩ := induction known (stop.trans (by rw [start])) rest
      rw [run_of_some step, others, stop, start]
      exact ⟨rfl, last⟩

theorem exists_division (offset : Nat) (text : List Char) :
    ∃ tokens stop, Division offset text tokens stop := by
  obtain ⟨rest, whole, trivia, bare⟩ := Trivia.exists_sequence_leading text
  by_cases ended : rest = []
  · subst ended
    rw [List.append_nil] at whole
    rw [whole]
    exact ⟨[], _, .finish trivia⟩
  · rw [whole]
    rcases Lexeme.starts_of_piece?_eq_none bare ended with
      ⟨token, lexeme, behind, rfl, spelled⟩ | ⟨lexeme, behind, rfl, unplaced⟩
    · have shorter : behind.length < text.length := by
        have nonempty := List.length_pos_iff.mpr spelled.ne_nil
        have length := congrArg List.length whole
        simp only [List.length_append] at length
        omega
      obtain ⟨tokens, stop, division⟩ := exists_division
        (offset + String.utf8Len (Trivia.leading text ++ lexeme)) behind
      exact ⟨_, _, .token trivia spelled division⟩
    · exact ⟨_, _, .halt trivia unplaced⟩
termination_by text.length

/-- A text can be divided in one way only, and the lexer finds it. -/
theorem division_iff_run {lexer : Lexer} (running : lexer.halted = false)
    {tokens : List (Token × Nat)} {stop : Nat} :
    Division lexer.position lexer.cursor.rest tokens stop ↔
      lexer.run.1 = tokens ∧ lexer.run.2.position = stop := by
  constructor
  · intro division
    exact division.run running rfl rfl
  · rintro ⟨rfl, rfl⟩
    obtain ⟨tokens, stop, division⟩ :=
      exists_division lexer.position lexer.cursor.rest
    obtain ⟨rfl, rfl⟩ := division.run running rfl rfl
    exact division

/-- The text between two byte offsets of a source, and what stands behind it. -/
def Slice (source : List Char) (start stop : Nat) (text behind : List Char) :
    Prop :=
  ∃ front, source = front ++ (text ++ behind) ∧ String.utf8Len front = start ∧
    String.utf8Len (front ++ text) = stop

/-- The token stands between its start and `stop`, and there is only trivia
between `previous` and its start.  It is the one its lexeme spells, or unknown
text that cannot be placed and that no token follows. -/
def Placed (source : List Char) (previous : Nat) (token : Token) (stop : Nat)
    (after : List (Token × Nat)) : Prop :=
  ∃ start blank lexeme behind, previous ≤ start ∧ start < stop ∧
    Slice source previous start blank (lexeme ++ behind) ∧
    Slice source start stop lexeme behind ∧
    Trivia.Sequence blank (lexeme ++ behind) ∧
    (token.Spelled lexeme behind ∨
      token = .unknown (String.ofList lexeme) ∧ Unplaced lexeme behind ∧
        after = [])

theorem utf8Len_pos {text : List Char} (nonempty : text ≠ []) :
    0 < String.utf8Len text :=
  Nat.pos_of_ne_zero (mt String.utf8Len_eq_zero.mp nonempty)

theorem placed_of_lexeme {source front blank lexeme behind : List Char}
    {token : Token} {after : List (Token × Nat)}
    (whole : source = front ++ (blank ++ (lexeme ++ behind)))
    (trivia : Trivia.Sequence blank (lexeme ++ behind)) (nonempty : lexeme ≠ [])
    (form : token.Spelled lexeme behind ∨
      token = .unknown (String.ofList lexeme) ∧ Unplaced lexeme behind ∧
        after = []) :
    Placed source (String.utf8Len front) token
      (String.utf8Len front + String.utf8Len (blank ++ lexeme)) after := by
  have positive := utf8Len_pos nonempty
  refine ⟨String.utf8Len (front ++ blank), blank, lexeme, behind, ?_, ?_,
    ⟨front, whole, rfl, rfl⟩, ⟨front ++ blank, ?_, rfl, ?_⟩, trivia, form⟩
  · rw [String.utf8Len_append]
    omega
  · simp only [String.utf8Len_append]
    omega
  · rw [whole, List.append_assoc]
  · simp only [String.utf8Len_append]
    omega

theorem Division.placed {offset stop position : Nat}
    {source front text : List Char} {tokens before after : List (Token × Nat)}
    {token : Token} (division : Division offset text tokens stop)
    (whole : source = front ++ text) (start : String.utf8Len front = offset)
    (listed : tokens = before ++ (token, position) :: after) :
    Placed source ((before.map Prod.snd).getLastD offset) token position
      after := by
  induction division generalizing front before with
  | finish => cases before <;> cases listed
  | halt trivia unplaced =>
      cases before with
      | nil =>
          cases listed
          subst start
          exact placed_of_lexeme whole trivia unplaced.ne_nil
            (.inr ⟨rfl, unplaced, rfl⟩)
      | cons => simp at listed
  | token trivia spelled _ induction =>
      cases before with
      | nil =>
          cases listed
          subst start
          exact placed_of_lexeme whole trivia spelled.ne_nil (.inl spelled)
      | cons =>
          obtain ⟨rfl, others⟩ := List.cons.inj listed
          rw [← List.append_assoc, ← List.append_assoc,
            List.append_assoc front] at whole
          rw [List.map_cons, List.getLastD_cons]
          exact induction whole (by rw [String.utf8Len_append, start]) others

/-- A division ends behind unknown text, or with trivia up to the end of its
text. -/
theorem Division.ending {offset stop : Nat} {text : List Char}
    {tokens : List (Token × Nat)}
    (division : Division offset text tokens stop) :
    (∃ before lexeme, tokens = before ++ [(.unknown lexeme, stop)]) ∨
    (∀ entry ∈ tokens, entry.1.isUnknown = false) ∧
      ∃ front tail, text = front ++ tail ∧ Trivia.Sequence tail [] ∧
        offset + String.utf8Len front = (tokens.map Prod.snd).getLastD offset ∧
        offset + String.utf8Len text = stop := by
  induction division with
  | @finish offset text trivia =>
      exact .inr ⟨nofun, [], text, rfl, trivia, rfl, rfl⟩
  | halt => exact .inl ⟨[], _, rfl⟩
  | @token offset stop token blank lexeme behind tokens trivia spelled _
      induction =>
      rcases induction with
          ⟨before, unknown, rfl⟩ | ⟨known, front, tail, rfl, rest, last, stop⟩
      · exact .inl ⟨_ :: before, unknown, rfl⟩
      · right
        refine ⟨?_, blank ++ lexeme ++ front, tail, by simp, rest, ?_, ?_⟩
        · intro entry member
          rcases List.mem_cons.mp member with rfl | inTail
          · exact spelled.isUnknown_eq_false
          · exact known entry inTail
        · rw [List.map_cons, List.getLastD_cons, ← last, String.utf8Len_append,
            Nat.add_assoc]
        · rw [← stop]
          simp only [String.utf8Len_append]
          omega

theorem division_ofString (source : String) :
    Division 0 source.toList (ofString source).run.1
      (ofString source).run.2.position := by
  have running : (ofString source).halted = false := rfl
  exact (division_iff_run running).mpr ⟨rfl, rfl⟩

end Lexer

end Wasm
