import Wasm.Proofs.Text.Progress

/-!
# Where tokens start

The lexer of a source stands somewhere before a token, with only trivia between.
What the next call finds is then decided by the text from there on, and its
place in the source by the text before.
-/

namespace Wasm.Lexer

open Text

/-- Behind a number of calls the lexer still reads, and a token of the source is
due where `text` starts. -/
structure TokenStart (source : String) (calls : Nat) (front text : List Char) :
    Prop where
  running : (after source calls).halted = false
  whole : source.toList = front ++ text
  ahead : ∃ blank, Trivia.Sequence blank text ∧
    (after source calls).cursor.rest = blank ++ text

/-- The call that follows a number of calls returns a token, and leaves the
lexer right behind its lexeme.  The lexer has halted there if the token is
unknown. -/
structure Finds (source : String) (calls : Nat) (token : Token)
    (front lexeme behind : List Char) : Prop where
  answers : answer source calls = some token
  position :
    (after source (calls + 1)).position = String.utf8Len (front ++ lexeme)
  rest : (after source (calls + 1)).cursor.rest = behind
  halted : (after source (calls + 1)).halted = token.isUnknown

variable {source : String} {calls : Nat} {front lexeme behind : List Char}
  {token : Token}

theorem TokenStart.finds
    (start : TokenStart source calls front (lexeme ++ behind))
    (bare : Trivia.piece? (lexeme ++ behind) = none)
    (found : Lexeme.first? (lexeme ++ behind) = some ⟨token, lexeme⟩) :
    Finds source calls token front lexeme behind := by
  obtain ⟨blank, trivia, remaining⟩ := start.ahead
  obtain ⟨following, step, halted, rest, stop⟩ :=
    next_of_lexeme start.running remaining trivia bare found
  obtain ⟨before, whole, position⟩ := within_after source calls
  have parts :
      front ++ (lexeme ++ behind) = before ++ blank ++ (lexeme ++ behind) := by
    rw [← start.whole, whole, remaining, List.append_assoc]
  have same : front = before ++ blank := List.append_cancel_right parts
  have next : after source (calls + 1) = following := by
    rw [after_succ, step]
  have place : String.utf8Len before = (after source calls).position := position
  constructor
  · rw [answer, step]
  · rw [next, stop, ← place, same]
    simp only [String.utf8Len_append]
    omega
  · rw [next, rest]
  · rw [next, halted]

theorem Finds.unique {other : Token} {before text rest : List Char}
    (finds : Finds source calls token front lexeme behind)
    (also : Finds source calls other before text rest) :
    token = other ∧ behind = rest :=
  ⟨Option.some.inj (finds.answers.symm.trans also.answers),
    finds.rest.symm.trans also.rest⟩

/-- Nothing is found behind unknown text. -/
theorem Finds.answer_eq_none {text : String}
    (finds : Finds source calls (.unknown text) front lexeme behind)
    {later : Nat} (order : calls < later) : answer source later = none := by
  have finished := finished_of_answer (.inr ⟨text, finds.answers⟩)
  rw [answer, after_of_finished finished order, finished]

end Wasm.Lexer
