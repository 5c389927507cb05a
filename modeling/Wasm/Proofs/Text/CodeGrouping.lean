import Wasm.Proofs.Text.LiteralItems

/-!
# Underscores in codes and in numerals

The code of a character within braces is written with hexadecimal digits and
underscores, as a hexadecimal numeral is.  A numeral has single underscores
between its digits only, whereas a code may have any number of them behind its
first digit.  Where underscores are single and stand before a digit, the two
have the same form and denote the same number.
-/

namespace Wasm.Text

/-- Underscores that stand alone and not at the end. -/
structure Tidy (text : List Char) : Prop where
  single : ¬ ['_', '_'] <:+: text
  inside : text.getLast? ≠ some '_'

theorem tidy_singleton {character : Char} (notUnderscore : character ≠ '_') :
    Tidy [character] := by
  constructor
  · intro doubled
    exact absurd doubled.length_le (by simp)
  · simpa using notUnderscore

theorem Tidy.cons {character : Char} {rest : List Char} (tidy : Tidy rest)
    (nonempty : rest ≠ []) (single : character = '_' → rest.head? ≠ some '_') :
    Tidy (character :: rest) := by
  constructor
  · rw [List.infix_cons_iff]
    rintro (doubled | later)
    · obtain ⟨behind, same⟩ := doubled
      cases same
      exact single rfl rfl
    · exact tidy.single later
  · rw [List.getLast?_cons_of_ne_nil nonempty]
    exact tidy.inside

namespace Numeral

theorem Stands.ne {character other : Char} {digit : Nat}
    (stands : Stands 16 character digit) (missing : hexValue? other = none) :
    character ≠ other :=
  StringLiteral.ne_of_hexValue?
    (StringLiteral.hexValue?_eq_some_iff_stands.mpr stands) missing

namespace Figures

variable {text : List Char} {digits : List Nat}

theorem exists_cons (form : Figures 16 text digits) :
    ∃ character rest digit, text = character :: rest ∧
      Stands 16 character digit := by
  cases form with
  | last stands => exact ⟨_, _, _, rfl, stands⟩
  | digit stands _ => exact ⟨_, _, _, rfl, stands⟩
  | group stands _ => exact ⟨_, _, _, rfl, stands⟩

theorem tidy (form : Figures 16 text digits) : Tidy text := by
  induction form with
  | last stands => exact tidy_singleton (stands.ne (by decide))
  | digit stands rest induction =>
      obtain ⟨next, others, _, rfl, _⟩ := rest.exists_cons
      exact induction.cons (List.cons_ne_nil _ _) fun same =>
        absurd same (stands.ne (by decide))
  | group stands rest induction =>
      obtain ⟨next, others, _, rfl, nextStands⟩ := rest.exists_cons
      have grouped : Tidy ('_' :: next :: others) := by
        apply induction.cons (List.cons_ne_nil _ _)
        intro _ same
        exact nextStands.ne (by decide) (Option.some.inj same)
      exact grouped.cons (List.cons_ne_nil _ _) fun same =>
        absurd same (stands.ne (by decide))

/-- A digit may follow, with or without an underscore before it. -/
theorem concat {separator : List Char}
    (optional : separator = [] ∨ separator = ['_']) {character : Char}
    {digit : Nat} (form : Figures 16 text digits)
    (stands : Stands 16 character digit) :
    Figures 16 (text ++ separator ++ [character]) (digits ++ [digit]) := by
  induction form with
  | last first =>
      rcases optional with rfl | rfl
      · exact .digit first (.last stands)
      · exact .group first (.last stands)
  | digit first _ induction => exact .digit first induction
  | group first _ induction => exact .group first induction

end Figures

end Numeral

namespace StringLiteral

open Numeral

namespace CodeFigures

variable {text : List Char} {digits : List Nat}

theorem append {back : List Char} {others : List Nat}
    (before : CodeFigures text digits) (behind : CodeFigures back others) :
    CodeFigures (text ++ back) (digits ++ others) := by
  induction behind with
  | first stands => exact .digit before stands
  | digit _ stands induction =>
      rw [← List.append_assoc, ← List.append_assoc]
      exact .digit induction stands
  | underscore _ induction =>
      rw [← List.append_assoc]
      exact .underscore induction

/-- Without two underscores in a row, a code is a numeral, or one with an
underscore behind it. -/
theorem figures_or_underscore (form : CodeFigures text digits)
    (single : ¬ ['_', '_'] <:+: text) :
    Figures 16 text digits ∨ ∃ front, text = front ++ ['_'] ∧
      Figures 16 front digits := by
  induction form with
  | first stands => exact .inl (.last stands)
  | digit _ stands induction =>
      have before := mt List.infix_append_of_infix_left single
      -- A digit takes up the underscore that may be left before it.
      rcases induction before with numeral | ⟨front, rfl, numeral⟩
      · have longer := numeral.concat (.inl rfl) stands
        rw [List.append_nil] at longer
        exact .inl longer
      · exact .inl (numeral.concat (.inr rfl) stands)
  | underscore _ induction =>
      have before := mt List.infix_append_of_infix_left single
      rcases induction before with numeral | ⟨front, rfl, _⟩
      · exact .inr ⟨_, rfl, numeral⟩
      · exact absurd ⟨front, [], by simp⟩ single

theorem digits_eq (form : CodeFigures text digits) :
    digits = text.filterMap hexValue? := by
  induction form with
  | first stands =>
      simp [hexValue?_eq_some_iff_stands.mpr stands]
  | digit _ stands induction =>
      simp [hexValue?_eq_some_iff_stands.mpr stands, ← induction]
  | underscore _ induction =>
      have noDigit : hexValue? '_' = none := by decide
      simp [noDigit, ← induction]

end CodeFigures

theorem codeFigures_of_figures {text : List Char} {digits : List Nat}
    (form : Figures 16 text digits) : CodeFigures text digits := by
  induction form with
  | last stands => exact .first stands
  | digit stands _ induction =>
      exact (CodeFigures.first stands).append induction
  | group stands _ induction =>
      exact (CodeFigures.first stands).underscore.append induction

theorem figures_iff_codeFigures {text : List Char} {digits : List Nat} :
    Figures 16 text digits ↔ CodeFigures text digits ∧ Tidy text := by
  constructor
  · intro form
    exact ⟨codeFigures_of_figures form, form.tidy⟩
  · rintro ⟨form, tidy⟩
    rcases form.figures_or_underscore tidy.single with numeral | ⟨front, rfl, _⟩
    · exact numeral
    · exact absurd List.getLast?_concat tidy.inside

/-- A numeral of fewer than `2 ^ 31` digits can be read as a code. -/
theorem countedFigures_of_figures {text : List Char} {digits : List Nat}
    (form : Figures 16 text digits) (few : digits.length < 2 ^ 31) :
    CountedFigures text digits ∧ Counts digits.length :=
  (countedFigures_iff few).mpr (codeFigures_of_figures form)

theorem Denotes.ne_nil {item : List Char} {bytes : List UInt8}
    (denotes : Denotes item bytes) :
    item ≠ [] := by
  cases denotes with
  | raw => exact List.cons_ne_nil _ _
  | named => exact List.cons_ne_nil _ _
  | byte => exact List.cons_ne_nil _ _
  | scalar => exact List.cons_ne_nil _ _

/-- An item at the start of a text that starts with the mark of a code is a
code. -/
theorem Denotes.code_of_mark {item rest behind : List Char} {bytes : List UInt8}
    (denotes : Denotes item bytes)
    (whole : item ++ behind = '\\' :: 'u' :: rest) :
    ∃ figures digits character, CountedFigures figures digits ∧
      Counts digits.length ∧ number 16 digits = character.toNat ∧
      bytes = String.utf8EncodeChar character ∧
      rest = '{' :: (figures ++ '}' :: behind) := by
  cases denotes with
  | raw _ notEscape _ => exact absurd (List.cons.inj whole).1 notEscape
  | named member =>
      obtain ⟨rfl, _⟩ := List.cons.inj (List.cons.inj whole).2
      exact absurd member (by simp [namedEscapes])
  | byte high _ =>
      obtain ⟨rfl, _⟩ := List.cons.inj (List.cons.inj whole).2
      exact absurd rfl (high.ne (by decide))
  | @scalar figures digits character form counts worth =>
      obtain ⟨_, inner⟩ := List.cons.inj (List.cons.inj whole).2
      refine ⟨figures, digits, character, form, counts, worth, rfl, ?_⟩
      simpa using inner.symm

/-- A literal at the start of a single code in quotes is all of it. -/
theorem Literal.code_of_braces {inside literal behind : List Char}
    {bytes : List UInt8} (form : Literal bytes literal)
    (unclosed : '}' ∉ inside)
    (whole : '"' :: '\\' :: 'u' :: '{' :: (inside ++ ['}', '"']) =
      literal ++ behind) :
    ∃ digits character, CountedFigures inside digits ∧ Counts digits.length ∧
      number 16 digits = character.toNat ∧
      bytes = String.utf8EncodeChar character := by
  obtain ⟨items, denote, rfl, rfl⟩ := form
  cases items with
  | nil => cases (List.cons.inj (List.cons.inj whole).2).1
  | cons item items =>
      obtain ⟨first, others⟩ := List.forall_mem_cons.mp denote
      have inner : item.1 ++ (items.flatMap Prod.fst ++ '"' :: behind) =
          '\\' :: 'u' :: '{' :: (inside ++ ['}', '"']) := by
        simpa using whole.symm
      obtain ⟨figures, digits, character, code, counts, worth, same, split⟩ :=
        first.code_of_mark inner
      have parts : inside ++ '}' :: ['"'] =
          figures ++ '}' :: (items.flatMap Prod.fst ++ '"' :: behind) :=
        (List.cons.inj split).2
      obtain ⟨rfl, _, rest⟩ :=
        (List.append_cons_inj_of_notMem unclosed (by decide)).mp parts
      -- Only the closing quote is left, so there is no other item.
      have alone : items = [] := by
        cases items with
        | nil => rfl
        | cons next items =>
            have positive :=
              List.length_pos_iff.mpr (others next List.mem_cons_self).ne_nil
            have length := congrArg List.length rest
            simp only [List.flatMap_cons, List.length_append, List.length_cons,
              List.length_nil] at length
            omega
      subst alone
      refine ⟨digits, character, code, counts, worth, ?_⟩
      simpa using same

theorem literal_of_countedFigures {inside : List Char} {digits : List Nat}
    {character : Char} (form : CountedFigures inside digits)
    (counts : Counts digits.length)
    (worth : number 16 digits = character.toNat) :
    Literal (String.utf8EncodeChar character)
      ('"' :: '\\' :: 'u' :: '{' :: (inside ++ ['}', '"'])) := by
  have item :
      Denotes ('\\' :: 'u' :: '{' :: inside ++ ['}'])
        (String.utf8EncodeChar character) :=
    .scalar form counts worth
  refine ⟨[(_, String.utf8EncodeChar character)],
    List.forall_mem_singleton.mpr item, ?_, ?_⟩
  · simp
  · rw [List.flatMap_singleton]

end StringLiteral

end Wasm.Text

namespace Wasm.Lexer

open Text Text.Numeral Text.StringLiteral

/-! ## Sources of one token -/

theorem tokenStart_ofString (source : String) :
    TokenStart source 0 [] source.toList :=
  ⟨rfl, rfl, [], .nil, rfl⟩

theorem next_ofString (source : String) :
    (ofString source).next = (answer source 0, after source 1) :=
  rfl

/-- The tokens of a source. -/
def tokens (source : String) : List Token :=
  (ofString source).run.1.map Prod.fst

theorem first_of_run {source : String} {token : Token} {stop : Nat}
    {others : List (Token × Nat)}
    (run : (ofString source).run.1 = (token, stop) :: others) :
    answer source 0 = some token ∧ (after source 1).position = stop := by
  have step := next_ofString source
  cases first : answer source 0 with
  | none =>
      rw [first] at step
      rw [run_of_none step] at run
      cases run
  | some other =>
      rw [first] at step
      rw [run_of_some step] at run
      cases run
      exact ⟨rfl, rfl⟩

theorem answer_of_tokens {source : String} {token : Token} {others : List Token}
    (lexed : tokens source = token :: others) :
    answer source 0 = some token := by
  obtain ⟨⟨_, stop⟩, entries, run, rfl, _⟩ := List.map_eq_cons_iff.mp lexed
  exact (first_of_run run).1

/-- A token that takes the whole source is its only one. -/
theorem Finds.run_eq {source : String} {token : Token} {lexeme : List Char}
    (finds : Finds source 0 token [] lexeme []) :
    (ofString source).run.1 = [(token, String.utf8Len lexeme)] := by
  have step := next_ofString source
  have finished : (after source 1).Finished := by
    cases halted : (after source 1).halted with
    | true => exact finished_of_halted halted
    | false => exact finished_of_rest_eq_nil halted finds.rest
  rw [finds.answers] at step
  rw [run_of_some step, run_of_none finished, finds.position]
  rfl

/-! ## Codes in quotes and hexadecimal numerals -/

/-- A literal of one code, with a text within its braces. -/
def codeSource (inside : List Char) : String :=
  String.ofList ('"' :: '\\' :: 'u' :: '{' :: (inside ++ ['}', '"']))

/-- A text behind the mark of a hexadecimal numeral. -/
def markedSource (inside : List Char) : String :=
  String.ofList ('0' :: 'x' :: inside)

/-- The text behind the mark belongs to one numeral, which may be too large for
a token. -/
def WholeNumeral (inside : List Char) : Prop :=
  ∃ token,
    ((∃ value, token = .unsigned value) ∨
      token = .unknown (markedSource inside)) ∧
    (ofString (markedSource inside)).run.1 =
      [(token, (markedSource inside).utf8ByteSize)]

theorem tokens_codeSource_iff {inside : List Char} (unclosed : '}' ∉ inside)
    {bytes : List UInt8} :
    tokens (codeSource inside) = [.string bytes] ↔
      ∃ digits character, CountedFigures inside digits ∧
        Counts digits.length ∧ number 16 digits = character.toNat ∧
        bytes = String.utf8EncodeChar character := by
  have start := tokenStart_ofString (codeSource inside)
  rw [codeSource, String.toList_ofList, ← codeSource] at start
  constructor
  · intro lexed
    have found := answer_of_tokens lexed
    rcases start.quote_cases with
        ⟨_, literal, behind, whole, form, finds⟩ | ⟨_, _, _, _, finds⟩
    · rw [finds.answers] at found
      cases found
      exact form.code_of_braces unclosed whole
    · rw [finds.answers] at found
      cases found
  · rintro ⟨digits, character, form, counts, worth, rfl⟩
    rw [← List.append_nil ('"' :: _)] at start
    have literal := literal_of_countedFigures form counts worth
    rw [tokens, (start.finds_of_literal literal).run_eq]
    rfl

/-- A numeral that starts with the mark is the mark and digits. -/
theorem grouped_of_written {worth : Nat} {inside : List Char}
    (written : Written worth ('0' :: 'x' :: inside) []) :
    Grouped 16 inside := by
  cases written with
  | decimal grouped _ _ =>
      cases grouped with
      | digit _ rest =>
          obtain ⟨_, _, same, isDigit⟩ := rest.exists_cons
          cases same
          exact absurd isDigit (by decide)
  | hexadecimal grouped _ => exact grouped

/-- The lexer finds one numeral exactly if the digits have the form of a
numeral. -/
theorem wholeNumeral_iff {inside : List Char} :
    WholeNumeral inside ↔ ∃ digits, Figures 16 inside digits := by
  have start := tokenStart_ofString (markedSource inside)
  have text : (markedSource inside).toList = '0' :: 'x' :: inside :=
    String.toList_ofList
  have size :
      (markedSource inside).utf8ByteSize =
        String.utf8Len ('0' :: 'x' :: inside) := by
    rw [← text, String.utf8Len_toList]
  rw [text] at start
  rw [← grouped_iff (Nat.le_refl 16), WholeNumeral, size]
  constructor
  · rintro ⟨token, _, run⟩
    have zero : isDigit 10 '0' = true := by decide
    obtain ⟨worth, lexeme, behind, whole, written⟩ := exists_written zero
    rw [whole] at start run
    have stop :=
      (start.finds_of_numeral written).position.symm.trans (first_of_run run).2
    cases eq_nil_of_utf8Len_append stop.symm
    rw [List.append_nil] at whole
    rw [← whole] at written
    exact grouped_of_written written
  · intro grouped
    have written : Written (value 16 inside) ('0' :: 'x' :: inside) [] :=
      .hexadecimal grouped (not_continues_nil 16)
    rw [← List.append_nil ('0' :: _)] at start
    refine ⟨_, ?_, (start.finds_of_numeral written).run_eq⟩
    split
    · exact .inl ⟨_, rfl⟩
    · exact .inr rfl

/-- The text within the braces of a code is read exactly if it is one numeral
behind the mark whose number is that of a character, and then as the bytes of
that character. -/
def SameGrouping (inside : List Char) : Prop :=
  ∀ bytes, tokens (codeSource inside) = [.string bytes] ↔
    WholeNumeral inside ∧ ∃ digits character, Figures 16 inside digits ∧
      number 16 digits = character.toNat ∧
        bytes = String.utf8EncodeChar character

/-- A text that is one numeral with the number of a character is read as the
code of that character. -/
def ReadsNumerals (inside : List Char) : Prop :=
  ∀ digits (character : Char), Figures 16 inside digits →
    number 16 digits = character.toNat →
    CountedFigures inside digits ∧ Counts digits.length

theorem readsNumerals_of_few {inside : List Char}
    (few : ∀ digits, Figures 16 inside digits → digits.length < 2 ^ 31) :
    ReadsNumerals inside := by
  intro digits _ numeral _
  exact countedFigures_of_figures numeral (few digits numeral)

theorem sameGrouping_iff {inside : List Char} (unclosed : '}' ∉ inside) :
    SameGrouping inside ↔
      (Tidy inside ∨ ∀ bytes, tokens (codeSource inside) ≠ [.string bytes]) ∧
        ReadsNumerals inside := by
  constructor
  · intro same
    constructor
    · by_cases accepted : ∃ bytes, tokens (codeSource inside) = [.string bytes]
      · obtain ⟨bytes, lexed⟩ := accepted
        obtain ⟨_, _, _, numeral, _⟩ := (same bytes).mp lexed
        exact .inl numeral.tidy
      · exact .inr (not_exists.mp accepted)
    · intro digits character numeral worth
      have lexed := (same _).mpr ⟨wholeNumeral_iff.mpr ⟨digits, numeral⟩,
        digits, character, numeral, worth, rfl⟩
      obtain ⟨others, _, form, counts, _⟩ :=
        (tokens_codeSource_iff unclosed).mp lexed
      have alike : others = digits := form.codeFigures.digits_eq.trans
        (codeFigures_of_figures numeral).digits_eq.symm
      rw [← alike]
      exact ⟨form, counts⟩
  · rintro ⟨tidy | refused, reads⟩ bytes
    · rw [tokens_codeSource_iff unclosed, wholeNumeral_iff]
      constructor
      · rintro ⟨digits, character, form, _, worth⟩
        have numeral := figures_iff_codeFigures.mpr ⟨form.codeFigures, tidy⟩
        exact ⟨⟨digits, numeral⟩, digits, character, numeral, worth⟩
      · rintro ⟨_, digits, character, numeral, worth, same⟩
        obtain ⟨form, counts⟩ := reads digits character numeral worth
        exact ⟨digits, character, form, counts, worth, same⟩
    · refine ⟨fun lexed => absurd lexed (refused bytes), ?_⟩
      rintro ⟨_, digits, character, numeral, worth, same⟩
      obtain ⟨form, counts⟩ := reads digits character numeral worth
      have lexed := (tokens_codeSource_iff unclosed).mpr
        ⟨digits, character, form, counts, worth, same⟩
      exact absurd lexed (refused bytes)

/-- A code is read exactly if it is a hexadecimal digit, then hexadecimal digits
and underscores, and its number is that of a character.  A numeral is a code
whose underscores are single and stand before a digit.  Codes and numerals are
read alike exactly where the underscores are so or the code is refused.  All
this holds of the codes whose digits can be counted, and with fewer than
`2 ^ 31` digits they can. -/
theorem codes_match_numerals_when_tidy {inside : List Char}
    (unclosed : '}' ∉ inside) :
    (∀ bytes, tokens (codeSource inside) = [.string bytes] ↔
      ∃ digits character, CountedFigures inside digits ∧
        Counts digits.length ∧ number 16 digits = character.toNat ∧
        bytes = String.utf8EncodeChar character) ∧
    (WholeNumeral inside ↔ ∃ digits, Figures 16 inside digits) ∧
    (∀ digits, Figures 16 inside digits ↔
      CodeFigures inside digits ∧ Tidy inside) ∧
    (SameGrouping inside ↔
      (Tidy inside ∨ ∀ bytes, tokens (codeSource inside) ≠ [.string bytes]) ∧
        ReadsNumerals inside) ∧
    (∀ digits, digits.length < 2 ^ 31 →
      (CountedFigures inside digits ∧ Counts digits.length ↔
        CodeFigures inside digits)) ∧
    ((∀ digits, Figures 16 inside digits → digits.length < 2 ^ 31) →
      (SameGrouping inside ↔ Tidy inside ∨
        ∀ bytes, tokens (codeSource inside) ≠ [.string bytes])) := by
  refine ⟨fun _ => tokens_codeSource_iff unclosed, wholeNumeral_iff,
    fun _ => figures_iff_codeFigures, sameGrouping_iff unclosed,
    fun _ => countedFigures_iff, ?_⟩
  intro few
  rw [sameGrouping_iff unclosed, and_iff_left (readsNumerals_of_few few)]

/-- One underscore between two digits. -/
theorem codes_match_numerals_with_one_underscore :
    SameGrouping ['4', '_', '1'] ∧
      tokens (codeSource ['4', '_', '1']) = [.string [0x41]] ∧
        WholeNumeral ['4', '_', '1'] := by
  have tidy : Tidy ['4', '_', '1'] := ⟨by decide, by decide⟩
  have lexed : tokens (codeSource ['4', '_', '1']) = [.string [0x41]] := by
    decide +kernel
  have few : ∀ digits, Figures 16 ['4', '_', '1'] digits →
      digits.length < 2 ^ 31 := by
    intro digits numeral
    rw [(codeFigures_of_figures numeral).digits_eq]
    decide
  obtain ⟨_, _, _, _, _, same⟩ :=
    codes_match_numerals_when_tidy (by decide : '}' ∉ ['4', '_', '1'])
  have grouping := (same few).mpr (.inl tidy)
  exact ⟨grouping, lexed, ((grouping _).mp lexed).1⟩

/-- A code may end with an underscore and have two of them in a row, but no
numeral may. -/
theorem codes_admit_more_underscores :
    (tokens (codeSource ['1', '_']) = [.string [0x01]] ∧
      ¬ SameGrouping ['1', '_']) ∧
      tokens (codeSource ['4', '_', '_', '1']) = [.string [0x41]] ∧
        ¬ SameGrouping ['4', '_', '_', '1'] := by
  have trailing : tokens (codeSource ['1', '_']) = [.string [0x01]] := by
    decide +kernel
  have doubled :
      tokens (codeSource ['4', '_', '_', '1']) = [.string [0x41]] := by
    decide +kernel
  refine ⟨⟨trailing, ?_⟩, doubled, ?_⟩
  · intro same
    obtain ⟨_, _, _, numeral, _⟩ := (same _).mp trailing
    exact numeral.tidy.inside rfl
  · intro same
    obtain ⟨_, _, _, numeral, _⟩ := (same _).mp doubled
    exact numeral.tidy.single (by decide)

end Wasm.Lexer
