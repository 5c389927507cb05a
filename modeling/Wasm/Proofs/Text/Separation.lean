import Mathlib.Data.List.Infix
import Wasm.Proofs.Text.Partition

/-!
# What separates tokens

A blank or an opening parenthesis ends every token before it, so the tokens
before it are the same whatever follows.  Sources can therefore be joined at a
newline, and trivia can be put between two tokens.
-/

namespace Wasm

open Text

/-- A character that belongs to no token or comment that has begun before it. -/
structure Separates (character : Char) : Prop where
  notIdentifier : isIdentifier character = false
  notSemicolon : character ≠ ';'

theorem separates_of_isBlank {character : Char}
    (blank : isBlank character = true) :
    Separates character := by
  constructor
  · cases identifier : isIdentifier character with
    | false => rfl
    | true =>
        rw [Trivia.isBlank_eq_false_of_isIdentifier identifier] at blank
        cases blank
  · rintro rfl
    cases blank

theorem separates_leftParen : Separates '(' := by
  constructor <;> decide

namespace Separates

variable {character : Char} {middle back rest : List Char}

theorem not_isDigit (separates : Separates character) (radix : Nat) :
    isDigit radix character = false := by
  cases digit : isDigit radix character with
  | false => rfl
  | true =>
      have identifier := Lexeme.isIdentifier_of_isDigit digit
      rw [separates.notIdentifier] at identifier
      cases identifier

theorem ne_of_isIdentifier (separates : Separates character) {other : Char}
    (identifier : isIdentifier other = true) : character ≠ other :=
  (Lexeme.ne_of_kind identifier separates.notIdentifier).symm

theorem not_continues (separates : Separates character) {radix : Nat}
    (ended : ¬ Numeral.Continues radix (middle ++ back)) :
    ¬ Numeral.Continues radix (middle ++ character :: rest) := by
  have notDigit := separates.not_isDigit radix
  have notUnderscore : character ≠ '_' :=
    separates.ne_of_isIdentifier (by decide)
  cases middle with
  | nil => simp [Numeral.continues_cons_iff, notDigit, notUnderscore]
  | cons first middle =>
      rw [List.cons_append, Numeral.continues_cons_iff] at ended ⊢
      cases middle with
      | nil =>
          simp only [List.nil_append, List.head?_cons, Option.any_some,
            notDigit, Bool.and_false, Bool.or_false]
          intro firstDigit
          exact ended (by simp [firstDigit])
      | cons => simpa using ended

theorem not_marks (separates : Separates character)
    (unmarked : ¬ Numeral.Marks (middle ++ back)) :
    ¬ Numeral.Marks (middle ++ character :: rest) := by
  have notDigit := separates.not_isDigit 16
  have notMark : character ≠ 'x' := separates.ne_of_isIdentifier (by decide)
  cases middle with
  | nil => simp [Numeral.marks_cons_iff, notMark]
  | cons first middle =>
      rw [List.cons_append, Numeral.marks_cons_iff] at unmarked ⊢
      cases middle with
      | nil => simp [notDigit]
      | cons => simpa using unmarked

theorem written (separates : Separates character) {number : Nat}
    {text : List Char}
    (written : Numeral.Written number text (middle ++ back)) :
    Numeral.Written number text (middle ++ character :: rest) := by
  cases written with
  | decimal grouped ended zero =>
      exact .decimal grouped (separates.not_continues ended)
        fun alone => separates.not_marks (zero alone)
  | hexadecimal grouped ended =>
      exact .hexadecimal grouped (separates.not_continues ended)

/-- Whether a token ends before a separator does not depend on what stands
there. -/
theorem spelled (separates : Separates character) {token : Token}
    {text : List Char} (spelled : token.Spelled text (middle ++ back)) :
    token.Spelled text (middle ++ character :: rest) := by
  cases spelled with
  | leftParen notComment =>
      apply Token.Spelled.leftParen
      cases middle with
      | nil => simpa using separates.notSemicolon
      | cons => simpa using notComment
  | rightParen => exact .rightParen
  | keyword identifier notDigit inside stops =>
      apply Token.Spelled.keyword identifier notDigit inside
      cases middle with
      | nil => simpa using separates.notIdentifier
      | cons => simpa using stops
  | unsigned written => exact .unsigned (separates.written written)
  | string written => exact .string written

end Separates

namespace Lexer

/-- A text that ends behind a token is read as the tokens, with other text
behind it.  The offset is the one at which the text starts. -/
inductive Reading :
    Nat → List Char → List Char → List (Token × Nat) → Prop where
  | nil {offset : Nat} {behind : List Char} : Reading offset [] behind []
  | token {offset : Nat} {token : Token} {blank lexeme rest behind : List Char}
      {tokens : List (Token × Nat)} :
      Trivia.Sequence blank (lexeme ++ (rest ++ behind)) →
        token.Spelled lexeme (rest ++ behind) →
      Reading (offset + String.utf8Len (blank ++ lexeme)) rest behind tokens →
      Reading offset (blank ++ (lexeme ++ rest)) behind
        ((token, offset + String.utf8Len (blank ++ lexeme)) :: tokens)

theorem Reading.single {offset : Nat} {token : Token}
    {blank lexeme behind : List Char}
    (trivia : Trivia.Sequence blank (lexeme ++ behind))
    (spelled : token.Spelled lexeme behind) :
    Reading offset (blank ++ lexeme) behind
      [(token, offset + String.utf8Len (blank ++ lexeme))] := by
  have reading : Reading offset (blank ++ (lexeme ++ [])) behind
      [(token, offset + String.utf8Len (blank ++ lexeme))] :=
    .token trivia spelled .nil
  rwa [List.append_nil] at reading

/-- The tokens before a separator stay what they are when other text takes its
place. -/
theorem Reading.before_separator {offset : Nat}
    {front middle back rest : List Char} {tokens : List (Token × Nat)}
    {character : Char} (reading : Reading offset front (middle ++ back) tokens)
    (separates : Separates character) :
    Reading offset front (middle ++ character :: rest) tokens := by
  generalize whole : middle ++ back = behind at reading
  induction reading with
  | nil => exact .nil
  | @token offset token blank lexeme others behind tokens trivia spelled _
      induction =>
      subst whole
      refine .token (trivia.congr ?_) ?_ (induction rfl)
      · obtain ⟨first, text, rfl⟩ := List.exists_cons_of_ne_nil spelled.ne_nil
        simp [Trivia.EndsLine]
      · rw [← List.append_assoc] at spelled ⊢
        exact separates.spelled spelled

theorem Reading.append_division {offset stop : Nat} {front behind : List Char}
    {before after : List (Token × Nat)}
    (reading : Reading offset front behind before)
    (division : Division (offset + String.utf8Len front) behind after stop) :
    Division offset (front ++ behind) (before ++ after) stop := by
  induction reading with
  | nil => exact division
  | token trivia spelled _ induction =>
      rw [List.append_assoc, List.append_assoc]
      refine .token trivia spelled (induction ?_)
      rwa [Nat.add_assoc, ← String.utf8Len_append, List.append_assoc]

theorem Reading.le_of_mem {offset : Nat} {front behind : List Char}
    {tokens : List (Token × Nat)}
    (reading : Reading offset front behind tokens) :
    ∀ entry ∈ tokens, entry.2 ≤ offset + String.utf8Len front := by
  induction reading with
  | nil => exact nofun
  | token _ _ _ induction =>
      intro entry member
      simp only [String.utf8Len_append] at induction ⊢
      rcases List.mem_cons.mp member with rfl | inRest
      · dsimp only
        simp only [String.utf8Len_append]
        omega
      · have bound := induction entry inRest
        omega

theorem Division.lt_of_mem {offset stop : Nat} {text : List Char}
    {tokens : List (Token × Nat)}
    (division : Division offset text tokens stop) :
    ∀ entry ∈ tokens, offset < entry.2 := by
  induction division with
  | finish => exact nofun
  | halt _ unplaced =>
      intro entry member
      have positive := utf8Len_pos unplaced.ne_nil
      rw [List.mem_singleton.mp member]
      simp only [String.utf8Len_append]
      omega
  | token _ spelled _ induction =>
      intro entry member
      have positive := utf8Len_pos spelled.ne_nil
      simp only [String.utf8Len_append] at member induction
      rcases List.mem_cons.mp member with rfl | inRest
      · dsimp only
        omega
      · have bound := induction entry inRest
        omega

/-- A token with the offset behind it, in a source that has more text before. -/
def movedBy (amount : Nat) (entry : Token × Nat) : Token × Nat :=
  (entry.1, entry.2 + amount)

theorem Division.moved {offset stop : Nat} {text : List Char}
    {tokens : List (Token × Nat)} (division : Division offset text tokens stop)
    (amount : Nat) :
    Division (offset + amount) text (tokens.map (movedBy amount))
      (stop + amount) := by
  induction division with
  | finish trivia =>
      rw [Nat.add_right_comm]
      exact .finish trivia
  | halt trivia unplaced =>
      simp only [List.map_cons, List.map_nil, movedBy]
      rw [Nat.add_right_comm]
      exact .halt trivia unplaced
  | token trivia spelled _ induction =>
      simp only [List.map_cons, movedBy] at induction ⊢
      rw [Nat.add_right_comm] at induction ⊢
      exact .token trivia spelled induction

theorem Division.behind_trivia {offset stop : Nat} {blank text : List Char}
    {tokens : List (Token × Nat)}
    (division : Division (offset + String.utf8Len blank) text tokens stop)
    (trivia : Trivia.Sequence blank text) :
    Division offset (blank ++ text) tokens stop := by
  have joined : ∀ more lexeme : List Char,
      offset + String.utf8Len blank + String.utf8Len (more ++ lexeme) =
        offset + String.utf8Len (blank ++ more ++ lexeme) := by
    intro more lexeme
    simp only [String.utf8Len_append]
    omega
  cases division with
  | finish rest =>
      rw [Nat.add_assoc, ← String.utf8Len_append]
      rw [← List.append_nil text] at trivia
      exact .finish (trivia.append rest)
  | halt more unplaced =>
      rw [joined, ← List.append_assoc blank]
      exact .halt (trivia.append more) unplaced
  | token more spelled rest =>
      rw [joined] at rest ⊢
      rw [← List.append_assoc blank]
      exact .token (trivia.append more) spelled rest

/-- Tokens, trivia and a division behind them make one division. -/
theorem Reading.append_trivia {offset stop : Nat} {front gap rest : List Char}
    {before after : List (Token × Nat)}
    (reading : Reading offset front (gap ++ rest) before)
    (trivia : Trivia.Sequence gap rest)
    (division :
      Division (offset + String.utf8Len (front ++ gap)) rest after stop) :
    Division offset (front ++ (gap ++ rest)) (before ++ after) stop := by
  rw [String.utf8Len_append, ← Nat.add_assoc] at division
  exact reading.append_division (division.behind_trivia trivia)

/-- A division without unknown text reads all its tokens, and trivia is left. -/
theorem Division.exists_reading {offset stop : Nat} {text : List Char}
    {tokens : List (Token × Nat)} (division : Division offset text tokens stop)
    (known : ∀ entry ∈ tokens, entry.1.isUnknown = false) :
    ∃ front tail, text = front ++ tail ∧ Reading offset front tail tokens ∧
      Trivia.Sequence tail [] := by
  induction division with
  | @finish _ text trivia => exact ⟨[], text, rfl, .nil, trivia⟩
  | halt => cases known _ List.mem_cons_self
  | token trivia spelled _ induction =>
      obtain ⟨front, tail, rfl, reading, rest⟩ :=
        induction fun entry member =>
          known entry (List.mem_cons_of_mem _ member)
      exact ⟨_, tail,
        by simp only [List.append_assoc], .token trivia spelled reading, rest⟩

theorem eq_nil_of_utf8Len_append {front middle : List Char}
    (length : String.utf8Len (front ++ middle) = String.utf8Len front) :
    middle = [] := by
  rw [String.utf8Len_append] at length
  exact String.utf8Len_eq_zero.mp (by omega)

theorem append_inj_of_utf8Len {front back other rest : List Char}
    (whole : front ++ back = other ++ rest)
    (length : String.utf8Len front = String.utf8Len other) :
    front = other ∧ back = rest := by
  rcases List.append_eq_append_iff.mp whole with
      ⟨middle, rfl, rfl⟩ | ⟨middle, rfl, rfl⟩
  · simp [eq_nil_of_utf8Len_append length.symm]
  · simp [eq_nil_of_utf8Len_append length]

/-- Where a token ends, a division falls into what is read before and the
division of what stands behind. -/
theorem Division.exists_split {offset stop : Nat} {front back : List Char}
    {tokens : List (Token × Nat)} {token : Token}
    (division : Division offset (front ++ back) tokens stop)
    (known : token.isUnknown = false)
    (listed : (token, offset + String.utf8Len front) ∈ tokens) :
    ∃ before after, tokens = before ++ after ∧
      Reading offset front back before ∧
      Division (offset + String.utf8Len front) back after stop := by
  -- The text of the division shrinks from the front, so the front before the
  -- cut does too.
  generalize whole : front ++ back = text at division
  induction division generalizing front with
  | finish => cases listed
  | halt =>
      obtain ⟨rfl, _⟩ := Prod.mk.inj (List.mem_singleton.mp listed)
      cases known
  | @token offset stop first blank lexeme behind tokens trivia spelled rest
      induction =>
      rw [← List.append_assoc] at whole
      rcases List.mem_cons.mp listed with here | later
      · have length : String.utf8Len front = String.utf8Len (blank ++ lexeme) :=
          Nat.add_left_cancel (Prod.mk.inj here).2
        obtain ⟨rfl, rfl⟩ := append_inj_of_utf8Len whole length
        exact ⟨_, tokens, rfl, .single trivia spelled, rest⟩
      · have further := rest.lt_of_mem _ later
        dsimp only at further
        -- A later token ends behind the first one, so the front goes on behind
        -- the first lexeme.
        rcases List.append_eq_append_iff.mp whole with
            ⟨middle, short, _⟩ | ⟨middle, rfl, rfl⟩
        · rw [short, String.utf8Len_append] at further
          omega
        · have length : offset + String.utf8Len (blank ++ lexeme ++ middle) =
              offset + String.utf8Len (blank ++ lexeme) +
                String.utf8Len middle := by
            rw [String.utf8Len_append (blank ++ lexeme), Nat.add_assoc]
          rw [length] at later ⊢
          obtain ⟨before, after, rfl, reading, division⟩ := induction later rfl
          rw [List.append_assoc]
          exact ⟨_ :: before, after, rfl,
            .token trivia spelled reading, division⟩

theorem run_of_division {source : String} {tokens : List (Token × Nat)}
    {stop : Nat} (division : Division 0 source.toList tokens stop) :
    (ofString source).run.1 = tokens ∧
      (ofString source).run.2.position = stop :=
  division.run rfl rfl rfl

/-- The tokens of a source with a newline and another source behind it are the
tokens of both. -/
theorem lexing_joins_at_newline (first second : String)
    (known : ∀ entry ∈ (ofString first).run.1, entry.1.isUnknown = false) :
    (ofString (first ++ "\n" ++ second)).run.1 =
        (ofString first).run.1 ++
          (ofString second).run.1.map (movedBy (first.utf8ByteSize + 1)) ∧
      (ofString (first ++ "\n" ++ second)).run.2.position =
        (ofString second).run.2.position + (first.utf8ByteSize + 1) := by
  obtain ⟨front, tail, whole, reading, trivia⟩ :=
    (division_ofString first).exists_reading known
  have separated :
      Reading 0 front (tail ++ ['\n'] ++ second.toList)
        (ofString first).run.1 := by
    rw [← List.append_nil tail] at reading
    rw [List.append_assoc]
    exact reading.before_separator (separates_of_isBlank rfl)
  have newline : Trivia.Sequence (tail ++ ['\n']) second.toList :=
    (trivia.congr fun _ => .inr rfl).append (.cons (.blank rfl) .nil)
  have text :
      (first ++ "\n" ++ second).toList =
        front ++ (tail ++ ['\n'] ++ second.toList) := by
    simp [whole]
  have length :
      first.utf8ByteSize + 1 = String.utf8Len (front ++ (tail ++ ['\n'])) := by
    rw [← List.append_assoc, ← whole, String.utf8Len_append,
      String.utf8Len_toList]
    rfl
  apply run_of_division
  rw [text]
  apply separated.append_trivia newline
  rw [← length]
  exact (division_ofString second).moved (first.utf8ByteSize + 1)

/-- A source that ends in a line comment, and one that ends in unknown text. -/
theorem lexing_joins_behind_line_comment :
    (∀ entry ∈ (ofString "(0x;;é").run.1, entry.1.isUnknown = false) ∧
      (ofString ("(0x;;é" ++ "\n" ++ ") ;")).run.1 =
        [(.leftParen, 1), (.unsigned 0, 2), (.keyword "x", 3), (.rightParen, 9),
          (.unknown ";", 11)] := by
  have known : ∀ entry ∈ (ofString "(0x;;é").run.1,
      entry.1.isUnknown = false := by
    decide +kernel
  refine ⟨known, (lexing_joins_at_newline "(0x;;é" ") ;" known).1.trans ?_⟩
  decide +kernel

/-- Text that can be put between two tokens: blanks, or a block comment. -/
inductive Spacer : List Char → Prop where
  | blanks {text : List Char} :
      text ≠ [] → (∀ character ∈ text, isBlank character = true) → Spacer text
  | comment {body : List Char} :
      ¬ Trivia.blockEnd <:+: body ++ [';'] →
        Spacer ('(' :: ';' :: body ++ Trivia.blockEnd)

theorem Spacer.sequence {text : List Char} (spacer : Spacer text)
    (behind : List Char) :
    Trivia.Sequence text behind := by
  cases spacer with
  | blanks _ blanks => exact Trivia.sequence_of_blanks blanks behind
  | comment first =>
      rw [← List.append_nil (_ ++ _)]
      exact .cons (.block first) .nil

theorem Spacer.exists_separates {text : List Char} (spacer : Spacer text) :
    ∃ character rest, text = character :: rest ∧ Separates character := by
  cases spacer with
  | blanks nonempty blanks =>
      obtain ⟨character, rest, rfl⟩ := List.exists_cons_of_ne_nil nonempty
      exact ⟨character, rest, rfl,
        separates_of_isBlank (blanks character List.mem_cons_self)⟩
  | comment => exact ⟨'(', _, rfl, separates_leftParen⟩

/-- A token with the offset behind it, after text has been put in at an
offset. -/
def movedBehind (place amount : Nat) (entry : Token × Nat) : Token × Nat :=
  if entry.2 ≤ place then entry else movedBy amount entry

theorem exists_split_of_boundary {front back : String}
    {tokens : List (Token × Nat)} {stop : Nat}
    (division : Division 0 (front.toList ++ back.toList) tokens stop)
    (boundary : front = "" ∨ ∃ token : Token, token.isUnknown = false ∧
      (token, front.utf8ByteSize) ∈ tokens) :
    ∃ before after, tokens = before ++ after ∧
      Reading 0 front.toList back.toList before ∧
      Division front.utf8ByteSize back.toList after stop := by
  rcases boundary with rfl | ⟨token, known, listed⟩
  · exact ⟨[], tokens, rfl, .nil, division⟩
  · rw [← String.utf8Len_toList, ← Nat.zero_add (String.utf8Len _)] at listed
    obtain ⟨before, after, rfl, reading, rest⟩ :=
      division.exists_split known listed
    rw [Nat.zero_add, String.utf8Len_toList] at rest
    exact ⟨before, after, rfl, reading, rest⟩

/-- Blanks or a comment between two tokens or before the first one change no
token. -/
theorem lexing_ignores_spacers (front back spacer : String)
    (boundary : front = "" ∨ ∃ token : Token, token.isUnknown = false ∧
      (token, front.utf8ByteSize) ∈ (ofString (front ++ back)).run.1)
    (spaces : Spacer spacer.toList) :
    (ofString (front ++ spacer ++ back)).run.1 =
        (ofString (front ++ back)).run.1.map
          (movedBehind front.utf8ByteSize spacer.utf8ByteSize) ∧
      (ofString (front ++ spacer ++ back)).run.2.position =
        (ofString (front ++ back)).run.2.position + spacer.utf8ByteSize := by
  have division := division_ofString (front ++ back)
  rw [String.toList_append] at division
  obtain ⟨before, after, tokens, reading, rest⟩ :=
    exists_split_of_boundary division boundary
  obtain ⟨character, others, spacerText, separates⟩ := spaces.exists_separates
  have separated :
      Reading 0 front.toList (spacer.toList ++ back.toList) before := by
    have atBoundary : Reading 0 front.toList ([] ++ back.toList) before :=
      reading
    rw [spacerText]
    exact atBoundary.before_separator separates
  have kept : before.map (movedBehind front.utf8ByteSize spacer.utf8ByteSize) =
      before.map id := by
    apply List.map_congr_left
    intro entry member
    have bound := reading.le_of_mem entry member
    rw [Nat.zero_add, String.utf8Len_toList] at bound
    exact if_pos bound
  have moved : after.map (movedBehind front.utf8ByteSize spacer.utf8ByteSize) =
      after.map (movedBy spacer.utf8ByteSize) := by
    apply List.map_congr_left
    intro entry member
    exact if_neg (Nat.not_le_of_lt (rest.lt_of_mem entry member))
  have text : (front ++ spacer ++ back).toList =
      front.toList ++ (spacer.toList ++ back.toList) := by
    simp
  apply run_of_division
  rw [text, tokens, List.map_append, kept, List.map_id, moved]
  apply separated.append_trivia (spaces.sequence back.toList)
  rw [Nat.zero_add, String.utf8Len_append, String.utf8Len_toList,
    String.utf8Len_toList]
  exact rest.moved spacer.utf8ByteSize

/-- A comment between a zero and the mark that makes no hexadecimal numeral of
it. -/
theorem lexing_ignores_comment_behind_zero :
    (.unsigned 0, "0".utf8ByteSize) ∈ (ofString ("0" ++ "xg)")).run.1 ∧
      Spacer "(;);)".toList ∧
      (ofString ("0" ++ "(;);)" ++ "xg)")).run.1 =
        [(.unsigned 0, 1), (.keyword "xg", 8), (.rightParen, 9)] := by
  have listed :
      (.unsigned 0, "0".utf8ByteSize) ∈ (ofString ("0" ++ "xg)")).run.1 := by
    decide +kernel
  have first : ¬ Trivia.blockEnd <:+: [')'] ++ [';'] := by decide
  have comment : Spacer "(;);)".toList := .comment first
  refine ⟨listed, comment,
    (lexing_ignores_spacers "0" "xg)" "(;);)" (.inr ⟨_, rfl, listed⟩)
      comment).1.trans ?_⟩
  decide +kernel

end Lexer

end Wasm
