import Mathlib.Data.List.TakeWhile
import Wasm.Proofs.Text.StringLiterals
import Wasm.Proofs.Text.Trivia
import Wasm.Text.Lexer

/-!
# What counts as a token

Every token has its lexemes, and each lexeme is described by its form and by
what may not stand behind it, so that no longer text could have been read for
it.  Text at which no token starts is described in the same way.
-/

namespace Wasm

open Text

/-- A token, its lexeme, and what stands behind the lexeme. -/
inductive Token.Spelled : Token → List Char → List Char → Prop where
  | leftParen {behind : List Char} :
      behind.head? ≠ some ';' → Spelled .leftParen ['('] behind
  | rightParen {behind : List Char} : Spelled .rightParen [')'] behind
  | keyword {character : Char} {rest behind : List Char} :
      isIdentifier character = true → isDigit 10 character = false →
      (∀ other ∈ rest, isIdentifier other = true) →
        behind.head?.any isIdentifier = false →
      Spelled (.keyword (String.ofList (character :: rest)))
        (character :: rest) behind
  | unsigned {value : UInt64} {text behind : List Char} :
      Numeral.Written value.toNat text behind →
        Spelled (.unsigned value) text behind
  | string {bytes : List UInt8} {text behind : List Char} :
      StringLiteral.Written bytes text → Spelled (.string bytes) text behind

/-- A character that starts neither a token nor trivia. -/
structure Stray (character : Char) : Prop where
  notBlank : isBlank character = false
  notIdentifier : isIdentifier character = false
  notSemicolon : character ≠ ';'
  notLeftParen : character ≠ '('
  notRightParen : character ≠ ')'
  notQuote : character ≠ '"'

/-- Text that is neither a token nor trivia, and what stands behind it: a lone
semicolon, a block comment or a string literal that does not end, a string
literal that is broken, a numeral of more than 64 bits, or a stray character. -/
inductive Unplaced : List Char → List Char → Prop where
  | semicolon {behind : List Char} :
      behind.head? ≠ some ';' → Unplaced [';'] behind
  | comment {body : List Char} :
      ¬ Trivia.blockEnd <:+: body → Unplaced ('(' :: ';' :: body) []
  | numeral {number : Nat} {text behind : List Char} :
      Numeral.Written number text behind → 2 ^ 64 ≤ number →
        Unplaced text behind
  | literal {text behind : List Char} :
      StringLiteral.Malformed text behind → Unplaced text behind
  | character {character : Char} {behind : List Char} :
      Stray character → Unplaced [character] behind

namespace Token.Spelled

theorem ne_nil {token : Token} {text behind : List Char}
    (spelled : token.Spelled text behind) :
    text ≠ [] := by
  cases spelled with
  | leftParen => exact List.cons_ne_nil _ _
  | rightParen => exact List.cons_ne_nil _ _
  | keyword => exact List.cons_ne_nil _ _
  | unsigned written =>
      obtain ⟨character, rest, rfl, _⟩ := written.exists_cons
      exact List.cons_ne_nil _ _
  | string written =>
      obtain ⟨body, rfl⟩ := written.exists_cons
      exact List.cons_ne_nil _ _

theorem isUnknown_eq_false {token : Token} {text behind : List Char}
    (spelled : token.Spelled text behind) : token.isUnknown = false := by
  cases spelled <;> rfl

end Token.Spelled

theorem Unplaced.ne_nil {text behind : List Char}
    (unplaced : Unplaced text behind) :
    text ≠ [] := by
  cases unplaced with
  | semicolon => exact List.cons_ne_nil _ _
  | comment => exact List.cons_ne_nil _ _
  | numeral written =>
      obtain ⟨character, rest, rfl, _⟩ := written.exists_cons
      exact List.cons_ne_nil _ _
  | literal malformed =>
      obtain ⟨body, rfl⟩ := malformed.exists_cons
      exact List.cons_ne_nil _ _
  | character => exact List.cons_ne_nil _ _

namespace Lexeme

theorem ne_of_kind {kind : Char → Bool} {character other : Char}
    (found : kind character = true) (missing : kind other = false) :
    character ≠ other := by
  rintro rfl
  rw [missing] at found
  cases found

theorem first?_cons {character : Char} {rest : List Char}
    (notLeft : character ≠ '(') (notRight : character ≠ ')')
    (notQuote : character ≠ '"') :
    first? (character :: rest) =
      if isDigit 10 character then
        some (Numeral.scan (character :: rest))
      else if isIdentifier character then
        some
          ⟨.keyword (String.ofList (character :: rest.takeWhile isIdentifier)),
            character :: rest.takeWhile isIdentifier⟩
      else
        some (.unknown [character]) := by
  rw [first?]
  · exact notLeft
  · exact notRight
  · exact notQuote

theorem first?_of_isDigit {character : Char}
    (decimal : isDigit 10 character = true) (rest : List Char) :
    first? (character :: rest) = some (Numeral.scan (character :: rest)) := by
  rw [first?_cons (ne_of_kind decimal (by decide))
    (ne_of_kind decimal (by decide)) (ne_of_kind decimal (by decide)),
    if_pos decimal]

theorem isIdentifier_of_isDigit {radix : Nat} {character : Char}
    (digit : isDigit radix character = true) :
    isIdentifier character = true := by
  obtain ⟨value, found⟩ := Option.isSome_iff_exists.mp digit
  have range := hexValue?_eq_some_iff.mp (Option.filter_eq_some_iff.mp found).1
  have alphanumeric : character.isAlphanum = true := by
    delta Char.isAlphanum Char.isAlpha Char.isUpper Char.isLower Char.isDigit
    simp only [Bool.or_eq_true, Bool.and_eq_true, decide_eq_true_eq, ge_iff_le,
      UInt32.le_iff_toNat_le, Char.toNat_val, Char.reduceToNat]
    omega
  simp [isIdentifier, alphanumeric]

theorem first?_of_numeral {number : Nat} {text behind : List Char}
    (written : Numeral.Written number text behind) :
    first? (text ++ behind) =
      some (if number < 2 ^ 64 then ⟨.unsigned (UInt64.ofNat number), text⟩
        else .unknown text) := by
  rw [← Numeral.scan_append written]
  obtain ⟨character, rest, rfl, decimal⟩ := written.exists_cons
  exact first?_of_isDigit decimal (rest ++ behind)

theorem first?_of_spelled {token : Token} {text behind : List Char}
    (spelled : token.Spelled text behind) :
    first? (text ++ behind) = some ⟨token, text⟩ := by
  cases spelled with
  | leftParen notComment =>
      rw [List.singleton_append, first?, if_neg notComment]
  | rightParen => rfl
  | @keyword character rest _ identifier notDigit inside stops =>
      rw [List.cons_append, first?_cons (ne_of_kind identifier (by decide))
        (ne_of_kind identifier (by decide)) (ne_of_kind identifier (by decide)),
        if_neg (by simp [notDigit]), if_pos identifier,
        takeWhile_append_of_stop inside stops]
  | @unsigned value _ _ written =>
      rw [first?_of_numeral written, if_pos value.toNat_lt, UInt64.ofNat_toNat]
  | string written =>
      obtain ⟨body, rfl⟩ := written.exists_cons
      rw [List.cons_append, first?,
        StringLiteral.scan_of_written written behind]

theorem first?_of_stray {character : Char} (stray : Stray character)
    (rest : List Char) :
    first? (character :: rest) = some (.unknown [character]) := by
  have notDigit : ¬ isDigit 10 character = true := by
    intro decimal
    have identifier := isIdentifier_of_isDigit decimal
    rw [stray.notIdentifier] at identifier
    cases identifier
  rw [first?_cons stray.notLeftParen stray.notRightParen stray.notQuote,
    if_neg notDigit, if_neg (by simp [stray.notIdentifier])]

theorem first?_of_unplaced {text behind : List Char}
    (unplaced : Unplaced text behind) :
    first? (text ++ behind) = some (.unknown text) := by
  cases unplaced with
  | semicolon _ => rfl
  | comment _ => rw [List.append_nil, first?, if_pos List.head?_cons]
  | numeral written large =>
      rw [first?_of_numeral written, if_neg (Nat.not_lt_of_le large)]
  | literal malformed =>
      obtain ⟨body, rfl⟩ := malformed.exists_cons
      rw [List.cons_append, first?, StringLiteral.scan_of_malformed malformed]
  | character stray => exact first?_of_stray stray behind

end Lexeme

namespace Text.Trivia

theorem isBlank_eq_false_of_isIdentifier {character : Char}
    (identifier : isIdentifier character = true) :
    isBlank character = false := by
  have notBlank : ∀ blank, isIdentifier blank = false →
      (character == blank) = false := by
    intro blank missing
    exact beq_eq_false_iff_ne.mpr (Lexeme.ne_of_kind identifier missing)
  rw [isBlank,
    notBlank ' ' (by decide), notBlank '\t' (by decide),
    notBlank '\n' (by decide), notBlank '\r' (by decide)]
  rfl

theorem piece?_cons_eq_none {character : Char} {rest : List Char}
    (notBlank : isBlank character = false)
    (notComment : character = ';' ∨ character = '(' → rest.head? ≠ some ';') :
    piece? (character :: rest) = none := by
  rw [piece?]
  · simp [notBlank]
  · rintro tail same rfl
    exact notComment (.inl same) rfl
  · rintro tail same rfl
    exact notComment (.inr same) rfl

theorem piece?_of_isIdentifier {character : Char}
    (identifier : isIdentifier character = true) (rest : List Char) :
    piece? (character :: rest) = none := by
  apply piece?_cons_eq_none (isBlank_eq_false_of_isIdentifier identifier)
  rintro (rfl | rfl)
  · cases identifier
  · cases identifier

theorem piece?_of_numeral {number : Nat} {text behind : List Char}
    (written : Numeral.Written number text behind) :
    piece? (text ++ behind) = none := by
  obtain ⟨character, rest, rfl, decimal⟩ := written.exists_cons
  exact piece?_of_isIdentifier (Lexeme.isIdentifier_of_isDigit decimal)
    (rest ++ behind)

/-- No token starts with trivia. -/
theorem piece?_of_spelled {token : Token} {text behind : List Char}
    (spelled : token.Spelled text behind) : piece? (text ++ behind) = none := by
  cases spelled with
  | leftParen notComment => exact piece?_cons_eq_none rfl fun _ => notComment
  | rightParen =>
      exact piece?_cons_eq_none rfl fun opens => absurd opens (by decide)
  | keyword identifier _ _ _ => exact piece?_of_isIdentifier identifier _
  | unsigned written => exact piece?_of_numeral written
  | string written =>
      obtain ⟨body, rfl⟩ := written.exists_cons
      exact piece?_cons_eq_none rfl fun opens => absurd opens (by decide)

theorem piece?_of_unplaced {text behind : List Char}
    (unplaced : Unplaced text behind) :
    piece? (text ++ behind) = none := by
  cases unplaced with
  | semicolon notComment => exact piece?_cons_eq_none rfl fun _ => notComment
  | comment unclosed =>
      rw [List.append_nil, piece?, throughBlockEnd?_eq_none_iff.mpr unclosed]
      rfl
  | numeral written _ => exact piece?_of_numeral written
  | literal malformed =>
      obtain ⟨body, rfl⟩ := malformed.exists_cons
      exact piece?_cons_eq_none rfl fun opens => absurd opens (by decide)
  | character stray =>
      refine piece?_cons_eq_none stray.notBlank fun opens => ?_
      exact absurd opens (not_or.mpr ⟨stray.notSemicolon, stray.notLeftParen⟩)

end Text.Trivia

/-- A token or text that is not placed stands at the start. -/
def Starts (text : List Char) : Prop :=
  (∃ token lexeme behind, text = lexeme ++ behind ∧
    Token.Spelled token lexeme behind) ∨
    ∃ lexeme behind, text = lexeme ++ behind ∧ Unplaced lexeme behind

namespace Lexeme

theorem starts_leftParen {rest : List Char}
    (bare : Trivia.piece? ('(' :: rest) = none) :
    Starts ('(' :: rest) := by
  by_cases comment : rest.head? = some ';'
  · obtain ⟨body, rfl⟩ := List.head?_eq_some_iff.mp comment
    rw [Trivia.piece?, Option.map_eq_none_iff,
      Trivia.throughBlockEnd?_eq_none_iff] at bare
    exact .inr ⟨'(' :: ';' :: body, [], (List.append_nil _).symm, .comment bare⟩
  · exact .inl ⟨.leftParen, ['('], rest, rfl, .leftParen comment⟩

theorem starts_quote (rest : List Char) : Starts ('"' :: rest) := by
  rcases StringLiteral.written_or_malformed rest with
    ⟨bytes, literal, behind, whole, written⟩ | ⟨literal, behind, whole,
      malformed⟩
  · exact .inl ⟨.string bytes, literal, behind, whole, .string written⟩
  · exact .inr ⟨literal, behind, whole, .literal malformed⟩

theorem starts_digit {character : Char} {rest : List Char}
    (decimal : isDigit 10 character = true) : Starts (character :: rest) := by
  obtain ⟨number, text, behind, whole, written⟩ :=
    Numeral.exists_written decimal
  rcases Nat.lt_or_ge number (2 ^ 64) with small | large
  · left
    refine ⟨.unsigned (UInt64.ofNat number), text, behind, whole, .unsigned ?_⟩
    rwa [UInt64.toNat_ofNat_of_lt' small]
  · exact .inr ⟨text, behind, whole, .numeral written large⟩

theorem starts_keyword {character : Char} {rest : List Char}
    (identifier : isIdentifier character = true)
    (notDigit : isDigit 10 character = false) :
    Starts (character :: rest) := by
  refine .inl ⟨_, character :: rest.takeWhile isIdentifier,
    rest.dropWhile isIdentifier, ?_,
    .keyword identifier notDigit ?_ (any_head?_dropWhile isIdentifier rest)⟩
  · rw [List.cons_append, List.takeWhile_append_dropWhile]
  · intro other member
    exact List.mem_takeWhile_imp member

/-- Where no trivia starts, a token starts or the text is not placed. -/
theorem starts_of_piece?_eq_none {text : List Char}
    (bare : Trivia.piece? text = none) (remaining : text ≠ []) :
    Starts text := by
  obtain ⟨character, rest, rfl⟩ := List.exists_cons_of_ne_nil remaining
  by_cases leftParen : character = '('
  · subst leftParen
    exact starts_leftParen bare
  by_cases rightParen : character = ')'
  · subst rightParen
    exact .inl ⟨.rightParen, [')'], rest, rfl, .rightParen⟩
  by_cases quote : character = '"'
  · subst quote
    exact starts_quote rest
  by_cases semicolon : character = ';'
  · subst semicolon
    refine .inr ⟨[';'], rest, rfl, .semicolon ?_⟩
    intro comment
    obtain ⟨body, rfl⟩ := List.head?_eq_some_iff.mp comment
    cases bare
  cases decimal : isDigit 10 character with
  | true => exact starts_digit decimal
  | false =>
      cases identifier : isIdentifier character with
      | true => exact starts_keyword identifier decimal
      | false =>
          refine .inr ⟨[character], rest, rfl, .character ?_⟩
          refine ⟨?_, identifier, semicolon, leftParen, rightParen, quote⟩
          cases blank : isBlank character with
          | false => rfl
          | true =>
              have found := Trivia.piece?_eq_some_iff.mpr
                ⟨rest, List.singleton_append.symm, .blank blank⟩
              rw [bare] at found
              cases found

end Lexeme

end Wasm
