import Wasm.Proofs.Text.ExactNumerals

/-!
# Items of string literals

A string literal is a sequence of items between quotes, and its bytes are those
of the items in order.  Where the text is no literal, it breaks off at the first
character that no item allows, or at the end of the source.  Every text behind a
quote is of exactly one of these kinds, which decides the token.  The kinds are
stated without the tests of the lexer, and each is then shown to be what the
lexer tests for.

The digits of a code are counted in a signed number of 32 bits.  Up to `2 ^ 31`
digits the count makes no difference.  Behind them it wraps around, and a code
is not read where its count is not positive.
-/

namespace Wasm.Text.StringLiteral

open Numeral

/-! ## Forms of items -/

/-- Characters of the two control ranges. -/
def Control (character : Char) : Prop :=
  character.toNat ≤ 0x1F ∨ 0x7F ≤ character.toNat ∧ character.toNat ≤ 0x9F

/-- The letters that name a byte behind a backslash. -/
def namedEscapes : List (Char × UInt8) :=
  [('t', 0x09), ('n', 0x0A), ('r', 0x0D), ('"', 0x22), (Char.ofNat 0x27, 0x27),
    ('\\', 0x5C)]

/-- A hexadecimal digit, then hexadecimal digits and underscores in any order,
and what the digits stand for. -/
inductive CodeFigures : List Char → List Nat → Prop where
  | first {character : Char} {digit : Nat} :
      Stands 16 character digit → CodeFigures [character] [digit]
  | digit {figures : List Char} {digits : List Nat} {character : Char}
      {digit : Nat} : CodeFigures figures digits → Stands 16 character digit →
      CodeFigures (figures ++ [character]) (digits ++ [digit])
  | underscore {figures : List Char} {digits : List Nat} :
      CodeFigures figures digits → CodeFigures (figures ++ ['_']) digits

/-- Figures of a code whose digits are counted as they are read.  An underscore
stands only where the count of the digits before it is positive. -/
inductive CountedFigures : List Char → List Nat → Prop where
  | first {character : Char} {digit : Nat} :
      Stands 16 character digit → CountedFigures [character] [digit]
  | digit {figures : List Char} {digits : List Nat} {character : Char}
      {digit : Nat} :
      CountedFigures figures digits → Stands 16 character digit →
      CountedFigures (figures ++ [character]) (digits ++ [digit])
  | underscore {figures : List Char} {digits : List Nat} :
      CountedFigures figures digits → Counts digits.length →
      CountedFigures (figures ++ ['_']) digits

/-- An item of a literal and the bytes that it denotes. -/
inductive Denotes : List Char → List UInt8 → Prop where
  | raw {character : Char} :
      character ≠ '"' → character ≠ '\\' → ¬ Control character →
      Denotes [character] (String.utf8EncodeChar character)
  | named {character : Char} {byte : UInt8} :
      (character, byte) ∈ namedEscapes → Denotes ['\\', character] [byte]
  | byte {first second : Char} {high low : Nat} :
      Stands 16 first high → Stands 16 second low →
      Denotes ['\\', first, second] [UInt8.ofNat (high * 16 + low)]
  | scalar {figures : List Char} {digits : List Nat} {character : Char} :
      CountedFigures figures digits → Counts digits.length →
      number 16 digits = character.toNat →
      Denotes ('\\' :: 'u' :: '{' :: figures ++ ['}'])
        (String.utf8EncodeChar character)

/-- The start of an item, up to a character that may not stand there. -/
inductive Fails : List Char → Prop where
  | control {character : Char} : Control character → Fails [character]
  | escape {character : Char} :
      (∀ byte, (character, byte) ∉ namedEscapes) → character ≠ 'u' →
      (∀ digit, ¬ Stands 16 character digit) → Fails ['\\', character]
  | byte {first second : Char} {high : Nat} :
      Stands 16 first high → (∀ digit, ¬ Stands 16 second digit) →
        Fails ['\\', first, second]
  | brace {character : Char} : character ≠ '{' → Fails ['\\', 'u', character]
  | first {character : Char} :
      (∀ digit, ¬ Stands 16 character digit) → Fails ['\\', 'u', '{', character]
  | figure {figures : List Char} {digits : List Nat} {character : Char} :
      CountedFigures figures digits → number 16 digits < 2 ^ 32 →
      (∀ digit, ¬ Stands 16 character digit) →
      (character = '_' ∨ character = '}' → ¬ Counts digits.length) →
      Fails ('\\' :: 'u' :: '{' :: figures ++ [character])
  | large {figures : List Char} {digits : List Nat} {character : Char}
      {digit : Nat} :
      CountedFigures figures digits → number 16 digits < 2 ^ 32 →
      Stands 16 character digit → 2 ^ 32 ≤ number 16 (digits ++ [digit]) →
      Fails ('\\' :: 'u' :: '{' :: figures ++ [character])
  | scalar {figures : List Char} {digits : List Nat} :
      CountedFigures figures digits → number 16 digits < 2 ^ 32 →
      Counts digits.length →
      (∀ character : Char, character.toNat ≠ number 16 digits) →
      Fails ('\\' :: 'u' :: '{' :: figures ++ ['}'])

/-- The start of an item that may still become one. -/
inductive CutOff : List Char → Prop where
  | nothing : CutOff []
  | escape : CutOff ['\\']
  | byte {character : Char} {digit : Nat} :
      Stands 16 character digit → CutOff ['\\', character]
  | brace : CutOff ['\\', 'u']
  | first : CutOff ['\\', 'u', '{']
  | figure {figures : List Char} {digits : List Nat} :
      CountedFigures figures digits → number 16 digits < 2 ^ 32 →
      CutOff ('\\' :: 'u' :: '{' :: figures)

/-- The bytes of a literal, and the literal: items between quotes. -/
def Literal (bytes : List UInt8) (literal : List Char) : Prop :=
  ∃ items : List (List Char × List UInt8),
    (∀ item ∈ items, Denotes item.1 item.2) ∧
    literal = '"' :: (items.flatMap Prod.fst ++ ['"']) ∧
      bytes = items.flatMap Prod.snd

/-- Text from a quote on that is no literal, and what stands behind it.  Behind
complete items it ends with the character at which the next item fails, or the
source ends within an item. -/
def NoLiteral (text behind : List Char) : Prop :=
  ∃ (items : List (List Char × List UInt8)) (part : List Char),
    (∀ item ∈ items, Denotes item.1 item.2) ∧
    text = '"' :: (items.flatMap Prod.fst ++ part) ∧
      (Fails part ∨ CutOff part ∧ behind = [])

/-! ## The forms that the lexer tests for -/

theorem control_iff {character : Char} :
    isControl character = true ↔ Control character := by
  simp [Control, isControl]

theorem not_control_iff {character : Char} :
    isControl character = false ↔ ¬ Control character := by
  rw [← control_iff, Bool.not_eq_true]

theorem namedEscape?_eq_some_iff {character : Char} {byte : UInt8} :
    namedEscape? character = some byte ↔ (character, byte) ∈ namedEscapes := by
  have apostrophe : character.toNat = 0x27 ↔ character = Char.ofNat 0x27 := by
    rw [← Char.toNat_inj]
    rfl
  constructor
  · intro found
    simp only [namedEscape?, apostrophe] at found
    split_ifs at found with tab newline carriage quote single backslash
    all_goals
      cases found
      subst character
      decide
  · intro member
    simp only [namedEscapes, List.mem_cons, Prod.mk.injEq, List.not_mem_nil,
      or_false] at member
    rcases member with
        ⟨rfl, rfl⟩ | ⟨rfl, rfl⟩ | ⟨rfl, rfl⟩ | ⟨rfl, rfl⟩ | ⟨rfl, rfl⟩ |
          ⟨rfl, rfl⟩
    all_goals rfl

theorem namedEscape?_eq_none_iff {character : Char} :
    namedEscape? character = none ↔
      ∀ byte, (character, byte) ∉ namedEscapes := by
  simp only [← namedEscape?_eq_some_iff, Option.eq_none_iff_forall_ne_some]

theorem hexValue?_eq_some_iff_stands {character : Char} {digit : Nat} :
    hexValue? character = some digit ↔ Stands 16 character digit := by
  rw [← digitValue?_sixteen, digitValue?_eq_some_iff (Nat.le_refl 16)]

theorem hexValue?_eq_none_iff {character : Char} :
    hexValue? character = none ↔ ∀ digit, ¬ Stands 16 character digit := by
  simp only [← hexValue?_eq_some_iff_stands, Option.eq_none_iff_forall_ne_some]

theorem isDigit_sixteen_iff_stands {character : Char} :
    isDigit 16 character = true ↔ ∃ digit, Stands 16 character digit :=
  isDigit_iff (Nat.le_refl 16)

theorem not_isValidChar_iff {code : Nat} :
    ¬ code.isValidChar ↔ ∀ character : Char, character.toNat ≠ code := by
  constructor
  · rintro invalid character rfl
    exact invalid character.valid
  · intro missing valid
    exact missing (Char.ofNat code) (toNat_ofNat_of_valid valid)

theorem CountedFigures.codeFigures {figures : List Char} {digits : List Nat}
    (form : CountedFigures figures digits) : CodeFigures figures digits := by
  induction form with
  | first stands => exact .first stands
  | digit _ stands induction => exact .digit induction stands
  | underscore _ _ induction => exact .underscore induction

theorem CodeFigures.digits_ne_nil {figures : List Char} {digits : List Nat}
    (form : CodeFigures figures digits) : digits ≠ [] := by
  induction form with
  | first => exact List.cons_ne_nil _ _
  | digit => exact List.concat_ne_nil _ _
  | underscore _ induction => exact induction

theorem CodeFigures.counts {figures : List Char} {digits : List Nat}
    (form : CodeFigures figures digits) (few : digits.length < 2 ^ 31) :
    Counts digits.length :=
  counts_of_few (List.length_pos_iff.mpr form.digits_ne_nil) few

/-- Up to `2 ^ 31` digits the count is positive wherever it is asked for. -/
theorem CodeFigures.counted {figures : List Char} {digits : List Nat}
    (form : CodeFigures figures digits) (few : digits.length < 2 ^ 31) :
    CountedFigures figures digits := by
  induction form with
  | first stands => exact .first stands
  | digit _ stands induction =>
      rw [List.length_append] at few
      exact .digit (induction (by omega)) stands
  | underscore form induction =>
      exact .underscore (induction few) (form.counts few)

/-- Up to `2 ^ 31` digits a code is any sequence of figures. -/
theorem countedFigures_iff {figures : List Char} {digits : List Nat}
    (few : digits.length < 2 ^ 31) :
    CountedFigures figures digits ∧ Counts digits.length ↔
      CodeFigures figures digits := by
  constructor
  · intro counted
    exact counted.1.codeFigures
  · intro form
    exact ⟨form.counted few, form.counts few⟩

/-- A code that the lexer reads, with its number and the count of its digits. -/
theorem CountedFigures.code {figures : List Char} {digits : List Nat}
    (form : CountedFigures figures digits) :
    Code figures ∧ value 16 figures = number 16 digits ∧
      digitCount figures = digits.length := by
  induction form with
  | first stands =>
      have isDigit := isDigit_sixteen_iff_stands.mpr ⟨_, stands⟩
      have found := hexValue?_eq_some_iff_stands.mpr stands
      refine ⟨Code.nil.digit isDigit, ?_, ?_⟩
      · rw [value_singleton found]
        simp [number]
      · exact digitCount_concat_digit isDigit []
  | digit _ stands induction =>
      obtain ⟨code, worth, count⟩ := induction
      have isDigit := isDigit_sixteen_iff_stands.mpr ⟨_, stands⟩
      have found := hexValue?_eq_some_iff_stands.mpr stands
      refine ⟨code.digit isDigit, ?_, ?_⟩
      · rw [value_concat found, worth, number_concat]
      · rw [digitCount_concat_digit isDigit, count, List.length_append,
          List.length_singleton]
  | underscore _ counts induction =>
      obtain ⟨code, worth, count⟩ := induction
      rw [← count] at counts
      rw [value_concat_underscore, digitCount_concat_underscore]
      exact ⟨code.underscore counts, worth, count⟩

theorem Code.exists_figures {figures : List Char} (code : Code figures)
    (nonempty : figures ≠ []) :
    ∃ digits, CountedFigures figures digits ∧
      value 16 figures = number 16 digits ∧
      digitCount figures = digits.length := by
  have form : ∃ digits, CountedFigures figures digits := by
    induction code with
    | nil => exact absurd rfl nonempty
    | @digit figures character _ isDigit induction =>
        obtain ⟨digit, stands⟩ := isDigit_sixteen_iff_stands.mp isDigit
        by_cases first : figures = []
        · subst first
          exact ⟨[digit], .first stands⟩
        · obtain ⟨digits, form⟩ := induction first
          exact ⟨digits ++ [digit], .digit form stands⟩
    | @underscore figures _ counts induction =>
        -- Nothing has been counted before the first digit.
        have behind : figures ≠ [] := by
          rintro rfl
          exact not_counts_zero counts
        obtain ⟨digits, form⟩ := induction behind
        rw [form.code.2.2] at counts
        exact ⟨digits, .underscore form counts⟩
  obtain ⟨digits, form⟩ := form
  exact ⟨digits, form, form.code.2⟩

/-- The figures of a code are none, or as many as the count of them tells. -/
theorem Code.empty_or_figures {figures : List Char} (code : Code figures) :
    figures = [] ∨ ∃ digits, CountedFigures figures digits ∧
      value 16 figures = number 16 digits ∧
      digitCount figures = digits.length := by
  by_cases empty : figures = []
  · exact .inl empty
  · exact .inr (code.exists_figures empty)

theorem denotes_iff {item : List Char} {bytes : List UInt8} :
    Denotes item bytes ↔ Item item bytes := by
  constructor
  · intro denotes
    cases denotes with
    | raw notQuote notEscape printable =>
        exact .raw notQuote notEscape (not_control_iff.mpr printable)
    | named member => exact .named (namedEscape?_eq_some_iff.mpr member)
    | byte high low =>
        exact .byte (hexValue?_eq_some_iff_stands.mpr high)
          (hexValue?_eq_some_iff_stands.mpr low)
    | scalar form counts worth =>
        obtain ⟨code, value, count⟩ := form.code
        rw [← count] at counts
        exact .scalar code counts (value.trans worth)
  · intro item
    cases item with
    | raw notQuote notEscape printable =>
        exact .raw notQuote notEscape (not_control_iff.mp printable)
    | named found => exact .named (namedEscape?_eq_some_iff.mp found)
    | byte high low =>
        exact .byte (hexValue?_eq_some_iff_stands.mp high)
          (hexValue?_eq_some_iff_stands.mp low)
    | scalar code counts worth =>
        rcases code.empty_or_figures with rfl | ⟨digits, form, value, count⟩
        · exact absurd counts not_counts_zero
        · rw [count] at counts
          exact .scalar form counts (value.symm.trans worth)

theorem Fails.broken {part : List Char} (fails : Fails part) : Broken part := by
  cases fails with
  | control control => exact .control (control_iff.mpr control)
  | escape unnamed notCode missing =>
      exact .escape (namedEscape?_eq_none_iff.mpr unnamed) notCode
        (hexValue?_eq_none_iff.mpr missing)
  | byte high missing =>
      exact .byte (hexValue?_eq_some_iff_stands.mpr high)
        (hexValue?_eq_none_iff.mpr missing)
  | brace closed => exact .brace closed
  | first missing =>
      exact .figure .nil (by decide) (hexValue?_eq_none_iff.mpr missing)
        fun _ => not_counts_zero
  | figure form small missing uncounted =>
      obtain ⟨code, value, count⟩ := form.code
      rw [← value] at small
      rw [← count] at uncounted
      exact .figure code small (hexValue?_eq_none_iff.mpr missing) uncounted
  | large form small stands large =>
      obtain ⟨code, value, _⟩ := form.code
      obtain ⟨_, longer, _⟩ := (form.digit stands).code
      rw [← value] at small
      rw [← longer] at large
      exact .large code small (isDigit_sixteen_iff_stands.mpr ⟨_, stands⟩) large
  | scalar form small counts missing =>
      obtain ⟨code, value, count⟩ := form.code
      rw [← value] at small missing
      rw [← count] at counts
      exact .scalar code small counts (not_isValidChar_iff.mpr missing)

theorem Broken.fails {part : List Char} (broken : Broken part) :
    Fails part := by
  cases broken with
  | control control => exact .control (control_iff.mp control)
  | escape unnamed notCode missing =>
      exact .escape (namedEscape?_eq_none_iff.mp unnamed) notCode
        (hexValue?_eq_none_iff.mp missing)
  | byte high missing =>
      exact .byte (hexValue?_eq_some_iff_stands.mp high)
        (hexValue?_eq_none_iff.mp missing)
  | brace closed => exact .brace closed
  | figure code small missing uncounted =>
      rcases code.empty_or_figures with rfl | ⟨digits, form, value, count⟩
      · exact .first (hexValue?_eq_none_iff.mp missing)
      · rw [value] at small
        rw [count] at uncounted
        exact .figure form small (hexValue?_eq_none_iff.mp missing) uncounted
  | large code small isDigit large =>
      obtain ⟨digit, stands⟩ := isDigit_sixteen_iff_stands.mp isDigit
      rcases code.empty_or_figures with rfl | ⟨digits, form, value, _⟩
      · -- No code of one digit is too large.
        have found := hexValue?_eq_some_iff_stands.mpr stands
        have range := hexValue?_eq_some_iff.mp found
        rw [List.nil_append, value_singleton found] at large
        omega
      · obtain ⟨_, longer, _⟩ := (form.digit stands).code
        rw [value] at small
        rw [longer] at large
        exact .large form small stands large
  | scalar code small counts invalid =>
      rcases code.empty_or_figures with rfl | ⟨digits, form, value, count⟩
      · exact absurd counts not_counts_zero
      · rw [value] at small invalid
        rw [count] at counts
        exact .scalar form small counts (not_isValidChar_iff.mp invalid)

theorem cutOff_iff {part : List Char} :
    CutOff part ↔ ∃ state, Begun part state := by
  constructor
  · intro cut
    cases cut with
    | nothing => exact ⟨_, .plain⟩
    | escape => exact ⟨_, .escape⟩
    | byte stands => exact ⟨_, .byte (hexValue?_eq_some_iff_stands.mpr stands)⟩
    | brace => exact ⟨_, .brace⟩
    | first => exact ⟨_, .code .nil (by decide)⟩
    | figure form small =>
        obtain ⟨code, value, _⟩ := form.code
        rw [← value] at small
        exact ⟨_, .code code small⟩
  · rintro ⟨state, begun⟩
    cases begun with
    | plain => exact .nothing
    | escape => exact .escape
    | byte found => exact .byte (hexValue?_eq_some_iff_stands.mp found)
    | brace => exact .brace
    | code code small =>
        rcases code.empty_or_figures with rfl | ⟨digits, form, value, _⟩
        · exact .first
        · rw [value] at small
          exact .figure form small

/-! ## Literals -/

theorem items_iff {text : List Char} {bytes : List UInt8} :
    Items text bytes ↔
      ∃ items : List (List Char × List UInt8),
        (∀ item ∈ items, Denotes item.1 item.2) ∧
        text = items.flatMap Prod.fst ∧ bytes = items.flatMap Prod.snd := by
  constructor
  · intro complete
    induction complete with
    | nil => exact ⟨[], nofun, rfl, rfl⟩
    | @concat _ item _ more _ last induction =>
        obtain ⟨items, denote, rfl, rfl⟩ := induction
        refine ⟨items ++ [(item, more)], ?_, by simp, by simp⟩
        exact List.forall_mem_append.mpr
          ⟨denote, List.forall_mem_singleton.mpr (denotes_iff.mpr last)⟩
  · rintro ⟨items, denote, rfl, rfl⟩
    -- `Items` grows at its end, and so the list is taken apart there.
    induction items using List.reverseRecOn with
    | nil => exact .nil
    | append_singleton items item induction =>
        obtain ⟨before, last⟩ := List.forall_mem_append.mp denote
        rw [List.flatMap_append, List.flatMap_append, List.flatMap_singleton,
          List.flatMap_singleton]
        exact .concat (induction before)
          (denotes_iff.mp (last item List.mem_cons_self))

theorem literal_iff {bytes : List UInt8} {literal : List Char} :
    Literal bytes literal ↔ Written bytes literal := by
  constructor
  · rintro ⟨items, denote, rfl, same⟩
    exact .mk (items_iff.mpr ⟨items, denote, rfl, same⟩)
  · intro written
    cases written with
    | mk complete =>
        obtain ⟨items, denote, rfl, same⟩ := items_iff.mp complete
        exact ⟨items, denote, rfl, same⟩

theorem noLiteral_iff {text behind : List Char} :
    NoLiteral text behind ↔ Malformed text behind := by
  constructor
  · rintro ⟨items, part, denote, rfl, fails | ⟨cut, rfl⟩⟩
    · exact .broken (items_iff.mpr ⟨items, denote, rfl, rfl⟩) fails.broken
    · obtain ⟨state, begun⟩ := cutOff_iff.mp cut
      exact .unclosed (items_iff.mpr ⟨items, denote, rfl, rfl⟩) begun
  · intro malformed
    cases malformed with
    | broken complete broken =>
        obtain ⟨items, denote, rfl, rfl⟩ := items_iff.mp complete
        exact ⟨items, _, denote, rfl, .inl broken.fails⟩
    | unclosed complete begun =>
        obtain ⟨items, denote, rfl, rfl⟩ := items_iff.mp complete
        exact ⟨items, _, denote, rfl, .inr ⟨cutOff_iff.mpr ⟨_, begun⟩, rfl⟩⟩

/-- Text that starts with a quote starts with a literal, or with text that is
none. -/
theorem literal_or_noLiteral (rest : List Char) :
    (∃ bytes literal behind, '"' :: rest = literal ++ behind ∧
      Literal bytes literal) ∨
    ∃ text behind, '"' :: rest = text ++ behind ∧ NoLiteral text behind := by
  simp only [literal_iff, noLiteral_iff]
  exact written_or_malformed rest

end Wasm.Text.StringLiteral

namespace Wasm.Lexer

open Text Text.Numeral Text.StringLiteral

section Quote

variable {source : String} {calls : Nat} {front rest text behind : List Char}
  {bytes : List UInt8}

theorem TokenStart.finds_of_literal
    (start : TokenStart source calls front (text ++ behind))
    (form : Literal bytes text) :
    Finds source calls (.string bytes) front text behind := by
  have spelled : Token.Spelled (.string bytes) text behind :=
    .string (literal_iff.mp form)
  exact start.finds (Trivia.piece?_of_spelled spelled)
    (Lexeme.first?_of_spelled spelled)

theorem TokenStart.finds_of_noLiteral
    (start : TokenStart source calls front (text ++ behind))
    (form : NoLiteral text behind) :
    Finds source calls (.unknown (String.ofList text)) front text behind := by
  have unplaced : Unplaced text behind := .literal (noLiteral_iff.mp form)
  exact start.finds (Trivia.piece?_of_unplaced unplaced)
    (Lexeme.first?_of_unplaced unplaced)

/-- The call finds the literal, or else the text that is none. -/
theorem TokenStart.quote_cases
    (start : TokenStart source calls front ('"' :: rest)) :
    (∃ bytes literal behind, '"' :: rest = literal ++ behind ∧
      Literal bytes literal ∧
      Finds source calls (.string bytes) front literal behind) ∨
    ∃ text behind, '"' :: rest = text ++ behind ∧ NoLiteral text behind ∧
      Finds source calls (.unknown (String.ofList text)) front text behind := by
  rcases literal_or_noLiteral rest with
    ⟨bytes, literal, behind, whole, form⟩ | ⟨text, behind, whole, form⟩
  · rw [whole] at start
    exact .inl ⟨bytes, literal, behind, whole, form,
      start.finds_of_literal form⟩
  · rw [whole] at start
    exact .inr ⟨text, behind, whole, form, start.finds_of_noLiteral form⟩

theorem TokenStart.literal_of_finds
    (start : TokenStart source calls front ('"' :: rest))
    (whole : '"' :: rest = text ++ behind)
    (finds : Finds source calls (.string bytes) front text behind) :
    Literal bytes text := by
  rcases start.quote_cases with
      ⟨_, _, _, split, form, also⟩ | ⟨_, _, _, _, also⟩
  · obtain ⟨same, rfl⟩ := finds.unique also
    cases same
    rw [List.append_cancel_right (whole.symm.trans split)]
    exact form
  · cases (finds.unique also).1

theorem TokenStart.noLiteral_of_finds
    (start : TokenStart source calls front ('"' :: rest))
    (whole : '"' :: rest = text ++ behind)
    (finds :
      Finds source calls (.unknown (String.ofList text)) front text behind) :
    NoLiteral text behind := by
  rcases start.quote_cases with
      ⟨_, _, _, _, _, also⟩ | ⟨_, _, split, form, also⟩
  · cases (finds.unique also).1
  · obtain ⟨_, rfl⟩ := finds.unique also
    rw [List.append_cancel_right (whole.symm.trans split)]
    exact form

end Quote

end Wasm.Lexer
