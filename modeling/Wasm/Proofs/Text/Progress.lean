import Mathlib.Logic.Function.Iterate
import Wasm.Proofs.Text.OffsetLexemes
import Wasm.Proofs.Text.Partition

/-!
# Progress of the lexer

Each call of the lexer passes some text, and passes at least one character if it
returns a token.  Once a call has returned no token or unknown text, the lexer
stays as it is.
-/

namespace Wasm.Lexer

open Text

/-! ## One call -/

theorem rest_eq_of_first? {text : List Char} (bare : Trivia.piece? text = none)
    {lexeme : Lexeme} (found : Lexeme.first? text = some lexeme) :
    ∃ behind, text = lexeme.text ++ behind := by
  have remaining : text ≠ [] := by
    rintro rfl
    cases found
  rcases Lexeme.starts_of_piece?_eq_none bare remaining with
    ⟨token, spelling, behind, rfl, spelled⟩ | ⟨spelling, behind, rfl, unplaced⟩
  · rw [Lexeme.first?_of_spelled spelled] at found
    cases found
    exact ⟨behind, rfl⟩
  · rw [Lexeme.first?_of_unplaced unplaced] at found
    cases found
    exact ⟨behind, rfl⟩

/-- A call of a lexer that no longer reads changes nothing. -/
def Finished (lexer : Lexer) : Prop :=
  lexer.next = (none, lexer)

theorem finished_of_halted {lexer : Lexer} (halted : lexer.halted = true) :
    lexer.Finished :=
  next_of_halted halted

theorem finished_of_rest_eq_nil {lexer : Lexer} (running : lexer.halted = false)
    (ended : lexer.cursor.rest = []) : lexer.Finished := by
  have trivia : Trivia.Sequence lexer.cursor.rest [] := by
    rw [ended]
    exact .nil
  rw [Finished, next_of_trivia running trivia, ended, ← running]
  rfl

/-- No token or unknown text, behind which nothing is read. -/
def Ends (answer : Option Token) : Prop :=
  answer = none ∨ ∃ text, answer = some (.unknown text)

theorem isUnknown_of_ends {token : Token} (ends : Ends (some token)) :
    token.isUnknown = true := by
  rcases ends with none | ⟨text, same⟩
  · cases none
  · cases same
    rfl

/-- What a call does: the text that it passes, and how it leaves the lexer. -/
structure Step (lexer : Lexer) (answer : Option Token) (after : Lexer) :
    Prop where
  /-- The passed text stands right behind the lexer. -/
  passes : ∃ passed, lexer.cursor.rest = passed ++ after.cursor.rest ∧
    after.position = lexer.position + String.utf8Len passed ∧
      (answer.isSome → passed ≠ [])
  /-- The lexer has finished unless the call has returned a token that is
  known. -/
  finishes : Ends answer → after.Finished

/-- All that a call can do on a lexer that has not halted. -/
theorem next_cases {lexer : Lexer} (running : lexer.halted = false) :
    (Trivia.Sequence lexer.cursor.rest [] ∧
      lexer.next =
        (none, ⟨lexer.cursor.pass lexer.cursor.rest.length, false⟩)) ∨
    ∃ (blank behind : List Char) (lexeme : Lexeme) (after : Lexer),
      lexer.cursor.rest = blank ++ (lexeme.text ++ behind) ∧
      Trivia.Sequence blank (lexeme.text ++ behind) ∧
      Trivia.piece? (lexeme.text ++ behind) = none ∧
      Lexeme.first? (lexeme.text ++ behind) = some lexeme ∧
      lexer.next = (some lexeme.token, after) ∧
        after.halted = lexeme.token.isUnknown ∧
      after.cursor.rest = behind ∧
      after.position = lexer.position +
        String.utf8Len (blank ++ lexeme.text) := by
  obtain ⟨rest, whole, trivia, bare⟩ :=
    Trivia.exists_sequence_leading lexer.cursor.rest
  generalize Trivia.leading lexer.cursor.rest = blank at whole trivia
  cases rest with
  | nil =>
      rw [List.append_nil] at whole
      rw [← whole] at trivia
      exact .inl ⟨trivia, next_of_trivia running trivia⟩
  | cons character others =>
      obtain ⟨lexeme, found⟩ :=
        Option.isSome_iff_exists.mp
          (OffsetScanner.isSome_first?_cons character others)
      obtain ⟨behind, parts⟩ := rest_eq_of_first? bare found
      rw [parts] at whole trivia bare found
      obtain ⟨after, step, halted, remaining, stop⟩ :=
        next_of_lexeme running whole trivia bare found
      exact .inr ⟨blank, behind, lexeme, after, whole, trivia, bare, found,
        step, halted, remaining, stop⟩

theorem next_step (lexer : Lexer) : Step lexer lexer.next.1 lexer.next.2 := by
  cases running : lexer.halted with
  | true =>
      rw [next_of_halted running]
      exact ⟨⟨[], rfl, rfl, nofun⟩, fun _ => finished_of_halted running⟩
  | false =>
      rcases next_cases running with ⟨_, step⟩ |
        ⟨blank, behind, lexeme, after, whole, _, _, found, step, halted,
          remaining, stop⟩
      · rw [step]
        refine ⟨⟨lexer.cursor.rest, ?_, ?_, nofun⟩,
          fun _ => finished_of_rest_eq_nil rfl ?_⟩
        · simp
        · simp [position, TextCursor.position_pass]
        · simp
      · rw [step]
        refine ⟨⟨blank ++ lexeme.text, ?_, stop, ?_⟩, ?_⟩
        · rw [remaining, whole, List.append_assoc]
        · intro _ empty
          exact Lexeme.text_ne_nil_of_first? found
            (List.append_eq_nil_iff.mp empty).2
        · intro ends
          exact finished_of_halted (halted.trans (isUnknown_of_ends ends))

/-! ## Calls on byte offsets -/

/-- The place of a lexer. -/
def place (lexer : Lexer) : OffsetScanner.Place :=
  ⟨lexer.position, lexer.halted⟩

/-- The lexer stands between two characters of the source, with the right text
before it. -/
def Within (source : List Char) (lexer : Lexer) : Prop :=
  OffsetScanner.Ahead source lexer.place lexer.cursor.rest

theorem within_ofString (source : String) :
    Within source.toList (ofString source) :=
  ⟨[], rfl, rfl⟩

theorem Within.next {source : List Char} {lexer : Lexer}
    (within : Within source lexer) :
    Within source lexer.next.2 := by
  obtain ⟨⟨passed, remaining, stop, _⟩, _⟩ := lexer.next_step
  obtain ⟨front, whole, start⟩ := within
  refine ⟨front ++ passed, ?_, ?_⟩
  · rw [whole, remaining, List.append_assoc]
  · rw [String.utf8Len_append, start]
    exact stop.symm

/-- A call on the byte offset of a lexer answers as the lexer does and moves as
it does. -/
theorem next_place {source : List Char} {lexer : Lexer}
    {counting : OffsetScanner.Counting} (fits : counting.Fits source)
    (within : Within source lexer) :
    OffsetScanner.next source counting lexer.place =
      some (lexer.next.1, lexer.next.2.place) := by
  refine (OffsetScanner.get_bind _).trans ?_
  cases running : lexer.halted with
  | true =>
      rw [next_of_halted running,
        if_pos (show lexer.place.halted = true from running)]
      rfl
  | false =>
      have still : lexer.place.halted = false := running
      rw [if_neg (Bool.eq_false_iff.mp still)]
      rcases next_cases running with ⟨trivia, step⟩ |
        ⟨blank, behind, lexeme, after, whole, trivia, bare, found, step,
          halted, _, stop⟩
      · have ahead :
            OffsetScanner.Ahead source lexer.place
              (lexer.cursor.rest ++ []) := by
          rwa [List.append_nil]
        rw [step, OffsetScanner.scan_of_sequence trivia ahead,
          OffsetScanner.scan_of_bare ahead.behind fits still rfl]
        simp [Lexeme.first?, place, position, TextCursor.position_pass, running,
          OffsetScanner.Place.behind]
      · unfold Within at within
        rw [whole] at within
        rw [step, OffsetScanner.scan_of_sequence trivia within,
          OffsetScanner.scan_of_bare within.behind fits still bare, found]
        simp [OffsetScanner.Place.reading, OffsetScanner.Place.behind, place,
          halted, stop, Nat.add_assoc]

/-! ## Every number of calls -/

/-- The lexer of a source behind a number of calls. -/
def after (source : String) (calls : Nat) : Lexer :=
  (fun lexer : Lexer => lexer.next.2)^[calls] (ofString source)

/-- The answer of the call that follows a number of calls. -/
def answer (source : String) (calls : Nat) : Option Token :=
  (after source calls).next.1

theorem after_succ (source : String) (calls : Nat) :
    after source (calls + 1) = (after source calls).next.2 :=
  Function.iterate_succ_apply' ..

theorem within_after (source : String) (calls : Nat) :
    Within source.toList (after source calls) := by
  induction calls with
  | zero => exact within_ofString source
  | succ calls induction =>
      rw [after_succ]
      exact induction.next

theorem calls_place {source : String} {counting : OffsetScanner.Counting}
    (fits : counting.Fits source.toList) (calls : Nat) :
    OffsetScanner.calls source.toList counting calls ⟨0, false⟩ =
      some ((List.range calls).map (answer source),
        (after source calls).place) := by
  induction calls with
  | zero => rfl
  | succ calls induction =>
      refine (OffsetScanner.bind_of_some induction).trans ?_
      refine (OffsetScanner.bind_of_some
        (next_place fits (within_after source calls))).trans ?_
      rw [List.range_succ, List.map_append, after_succ]
      rfl

/-- Where digits are counted by checked additions, not even one call can be made
on a code of `2 ^ 31` zeros or more. -/
theorem calls_of_zeros {source rest : List Char} {number : Nat}
    (many : 2 ^ 31 ≤ number)
    (whole : source =
      '"' :: '\\' :: 'u' :: '{' :: (List.replicate number '0' ++ rest)) :
    OffsetScanner.calls source .checked 1 ⟨0, false⟩ = none := by
  -- The number is kept behind a name, so that no list of that length is built.
  obtain ⟨counted, largest⟩ : ∃ counted, counted = 2 ^ 31 - 1 := ⟨_, rfl⟩
  obtain ⟨others, rfl⟩ : ∃ others, number = counted + (others + 1) :=
    ⟨number - 2 ^ 31, by omega⟩
  have split : List.replicate (counted + (others + 1)) '0' ++ rest =
      List.replicate counted '0' ++
        '0' :: (List.replicate others '0' ++ rest) := by
    rw [List.replicate_add, List.append_assoc, List.replicate_succ,
      List.cons_append]
  have small : Numeral.value 16 (List.replicate counted '0' ++ ['0']) <
      2 ^ 32 := by
    rw [← List.replicate_succ', StringLiteral.value_zeros]
    decide
  rw [split] at whole
  refine (OffsetScanner.bind_of_some rfl).trans ?_
  apply OffsetScanner.bind_of_none
  exact OffsetScanner.scan_of_overflow (StringLiteral.code_zeros counted)
    (by rw [StringLiteral.digitCount_zeros, largest]) (by decide) small
    ⟨[], whole, rfl⟩

theorem after_of_finished {source : String} {calls : Nat}
    (finished : (after source calls).Finished) {later : Nat}
    (order : calls ≤ later) :
    after source later = after source calls := by
  induction later, order using Nat.le_induction with
  | base => rfl
  | succ later _ induction => rw [after_succ, induction, finished]

theorem position_le_after (source : String) {earlier later : Nat}
    (order : earlier ≤ later) :
    (after source earlier).position ≤ (after source later).position := by
  induction later, order using Nat.le_induction with
  | base => exact Nat.le_refl _
  | succ later _ induction =>
      obtain ⟨⟨passed, _, stop, _⟩, _⟩ := (after source later).next_step
      rw [after_succ, stop]
      omega

/-- Each token that was returned has taken at least one character. -/
theorem count_add_length_rest_le (source : String) (calls : Nat) :
    ((List.range calls).map (answer source)).countP Option.isSome +
      (after source calls).cursor.rest.length ≤ source.length := by
  induction calls with
  | zero => simp [after, ofString, TextCursor.ofString, String.length_toList]
  | succ calls induction =>
      obtain ⟨⟨passed, remaining, _, taken⟩, _⟩ :=
        (after source calls).next_step
      have length := congrArg List.length remaining
      rw [List.length_append] at length
      rw [List.range_succ, List.map_append, List.countP_append, after_succ,
        List.map_singleton, List.countP_singleton]
      split
      · rename_i isToken
        have nonempty := List.length_pos_iff.mpr (taken isToken)
        omega
      · omega

theorem exists_answer_eq_none (source : String) :
    ∃ calls ≤ source.length, answer source calls = none := by
  by_contra never
  have tokens : ∀ entry ∈ (List.range (source.length + 1)).map (answer source),
      entry.isSome = true := by
    intro entry member
    obtain ⟨calls, inRange, rfl⟩ := List.mem_map.mp member
    rw [Option.isSome_iff_ne_none]
    intro ended
    exact never ⟨calls, Nat.lt_succ_iff.mp (List.mem_range.mp inRange), ended⟩
  have all := List.countP_eq_length.mpr tokens
  have few := count_add_length_rest_le source (source.length + 1)
  rw [all, List.length_map, List.length_range] at few
  omega

theorem finished_of_answer {source : String} {calls : Nat}
    (ends : Ends (answer source calls)) :
    (after source (calls + 1)).Finished := by
  rw [after_succ]
  exact (after source calls).next_step.finishes ends

/-- A byte offset that lies between two characters of a source or at one of its
ends. -/
def Boundary (source : List Char) (offset : Nat) : Prop :=
  ∃ front behind, source = front ++ behind ∧ String.utf8Len front = offset

end Wasm.Lexer
