import Mathlib.Data.List.Forall2
import Wasm.Proofs.Text.Separation

/-!
# Printed tokens

Tokens that are printed with single spaces between them are read back.  Numbers
may be printed in decimal or in hexadecimal, and the bytes of a string as
escapes.
-/

namespace Wasm

open Text

/-- A byte as an escape of two hexadecimal digits, each of either case. -/
def HexEscape (byte : UInt8) (text : List Char) : Prop :=
  ∃ high low : Char, text = ['\\', high, low] ∧
    high.toLower = Nat.digitChar (byte.toNat / 16) ∧
      low.toLower = Nat.digitChar (byte.toNat % 16)

/-- The ways to print a token. -/
inductive Token.Printed : Token → List Char → Prop where
  | leftParen : Printed .leftParen ['(']
  | rightParen : Printed .rightParen [')']
  | decimal (value : UInt64) :
      Printed (.unsigned value) (Nat.toDigits 10 value.toNat)
  | hexadecimal {value : UInt64} {digits : List Char} :
      digits.map Char.toLower = Nat.toDigits 16 value.toNat →
      Printed (.unsigned value) ('0' :: 'x' :: digits)
  | string {bytes : List UInt8} {escapes : List (List Char)} :
      List.Forall₂ HexEscape bytes escapes →
      Printed (.string bytes) ('"' :: (escapes.flatten ++ ['"']))
  | keyword {character : Char} {rest : List Char} :
      isIdentifier character = true → isDigit 10 character = false →
      (∀ other ∈ rest, isIdentifier other = true) →
      Printed (.keyword (String.ofList (character :: rest))) (character :: rest)

namespace Text

theorem toNat_digitChar {digit : Nat} (small : digit < 16) :
    (Nat.digitChar digit).toNat = if digit < 10 then digit + 48
      else digit + 87 := by
  revert digit
  decide

theorem toNat_toLower (character : Char) :
    character.toLower.toNat =
      if 65 ≤ character.toNat ∧ character.toNat ≤ 90 then character.toNat + 32
      else character.toNat := by
  have upper : character.val ≥ 'A'.val ∧ character.val ≤ 'Z'.val ↔
      65 ≤ character.toNat ∧ character.toNat ≤ 90 := by
    simp only [ge_iff_le, UInt32.le_iff_toNat_le]
    exact Iff.rfl
  unfold Char.toLower
  split
  · rename_i range
    rw [upper] at range
    rw [if_pos range]
    change (character.val + 32).toNat = character.val.toNat + 32
    rw [UInt32.toNat_add]
    exact Nat.mod_eq_of_lt (by change character.toNat + 32 < 2 ^ 32; omega)
  · rename_i range
    rw [upper] at range
    rw [if_neg range]

/-- A digit of either case has the value that it is printed for. -/
theorem hexValue?_of_toLower {character : Char} {digit : Nat}
    (small : digit < 16) (same : character.toLower = Nat.digitChar digit) :
    hexValue? character = some digit := by
  have codes := congrArg Char.toNat same
  rw [toNat_toLower, toNat_digitChar small] at codes
  rw [hexValue?_eq_some_iff]
  split at codes <;> split at codes <;> omega

namespace Numeral

theorem grouped_of_digits {radix : Nat} {figures : List Char}
    (nonempty : figures ≠ [])
    (digits : ∀ character ∈ figures, isDigit radix character = true) :
    Grouped radix figures := by
  induction figures with
  | nil => exact absurd rfl nonempty
  | cons character rest induction =>
      obtain ⟨first, others⟩ := List.forall_mem_cons.mp digits
      by_cases last : rest = []
      · rw [last]
        exact .last first
      · exact .digit first (induction last others)

theorem digitValue?_of_toLower {radix digit : Nat} {character : Char}
    (atMost : radix ≤ 16) (small : digit < radix)
    (same : character.toLower = Nat.digitChar digit) :
    digitValue? radix character = some digit := by
  have found := hexValue?_of_toLower (Nat.lt_of_lt_of_le small atMost) same
  simp [digitValue?, found, small]

/-- Printed digits of either case denote the number they are printed for. -/
theorem value_of_toDigits {radix number : Nat} {figures : List Char}
    (atLeast : 1 < radix) (atMost : radix ≤ 16)
    (printed : figures.map Char.toLower = Nat.toDigits radix number) :
    (∀ character ∈ figures, isDigit radix character = true) ∧
      value radix figures = number := by
  induction number using Nat.strong_induction_on generalizing figures with
  | _ number induction =>
      rw [Nat.toDigits_eq_if atLeast] at printed
      split at printed
      · rename_i small
        obtain ⟨character, rfl, same⟩ := List.map_eq_singleton_iff.mp printed
        have found := digitValue?_of_toLower atMost small same
        simp [isDigit, value, found]
      · rename_i large
        obtain ⟨front, last, rfl, frontPrinted, lastPrinted⟩ :=
          List.map_eq_append_iff.mp printed
        obtain ⟨character, rfl, same⟩ :=
          List.map_eq_singleton_iff.mp lastPrinted
        have found :=
          digitValue?_of_toLower atMost (Nat.mod_lt number (by omega)) same
        have less : number / radix < number :=
          Nat.div_lt_self (by omega) atLeast
        obtain ⟨digits, denotes⟩ := induction (number / radix) less frontPrinted
        constructor
        · intro other member
          rcases List.mem_append.mp member with inFront | isLast
          · exact digits other inFront
          · rw [List.mem_singleton.mp isLast]
            simp [isDigit, found]
        · rw [value_concat_digit found, denotes, Nat.div_add_mod']

theorem grouped_of_toDigits {radix number : Nat} {figures : List Char}
    (atLeast : 1 < radix) (atMost : radix ≤ 16)
    (printed : figures.map Char.toLower = Nat.toDigits radix number) :
    Grouped radix figures := by
  apply grouped_of_digits ?_ (value_of_toDigits atLeast atMost printed).1
  rintro rfl
  exact Nat.toDigits_ne_nil printed.symm

theorem toLower_toDigits_ten (number : Nat) :
    (Nat.toDigits 10 number).map Char.toLower = Nat.toDigits 10 number := by
  calc
    (Nat.toDigits 10 number).map Char.toLower =
      (Nat.toDigits 10 number).map id := by
      apply List.map_congr_left
      intro character member
      have digit := Nat.isDigit_of_mem_toDigits (by decide) (by decide) member
      simp only [Char.isDigit_iff_toNat, Char.reduceToNat] at digit
      have notUpper : ¬ (65 ≤ character.toNat ∧ character.toNat ≤ 90) := by
        omega
      exact Char.toNat_inj.mp (by rw [toNat_toLower, if_neg notUpper]; rfl)
    _ = Nat.toDigits 10 number := List.map_id _

end Numeral

namespace StringLiteral

theorem item_of_hexEscape {byte : UInt8} {text : List Char}
    (escape : HexEscape byte text) :
    Item text [byte] := by
  obtain ⟨high, low, rfl, highPrinted, lowPrinted⟩ := escape
  have highSmall : byte.toNat / 16 < 16 := by
    have := byte.toNat_lt
    omega
  have highFound := hexValue?_of_toLower highSmall highPrinted
  have lowFound := hexValue?_of_toLower (Nat.mod_lt _ (by decide)) lowPrinted
  have item := Item.byte highFound lowFound
  rwa [Nat.div_add_mod', UInt8.ofNat_toNat] at item

theorem Items.append_hexEscapes {items : List Char} {front bytes : List UInt8}
    {escapes : List (List Char)} (complete : Items items front)
    (printed : List.Forall₂ HexEscape bytes escapes) :
    Items (items ++ escapes.flatten) (front ++ bytes) := by
  induction printed generalizing items front with
  | nil => simpa using complete
  | cons escape _ induction =>
      simpa using induction (complete.concat (item_of_hexEscape escape))

end StringLiteral

end Text

/-- A printed token is a lexeme of the token, at the end of a source. -/
theorem Token.Printed.spelled {token : Token} {text : List Char}
    (printed : token.Printed text) :
    token.Spelled text [] := by
  cases printed with
  | leftParen => exact .leftParen nofun
  | rightParen => exact .rightParen
  | decimal value =>
      have printed := Numeral.toLower_toDigits_ten value.toNat
      have grouped :=
        Numeral.grouped_of_toDigits (by decide) (by decide) printed
      have written :=
        Numeral.Written.decimal grouped (Numeral.not_continues_nil 10)
        fun _ => Numeral.not_marks_nil
      rw [(Numeral.value_of_toDigits (by decide) (by decide) printed).2]
        at written
      exact .unsigned written
  | hexadecimal printed =>
      have grouped :=
        Numeral.grouped_of_toDigits (by decide) (by decide) printed
      have written :=
        Numeral.Written.hexadecimal grouped (Numeral.not_continues_nil 16)
      rw [(Numeral.value_of_toDigits (by decide) (by decide) printed).2]
        at written
      exact .unsigned written
  | string printed =>
      exact .string (.mk (StringLiteral.Items.nil.append_hexEscapes printed))
  | keyword identifier notDigit inside =>
      exact .keyword identifier notDigit inside rfl

namespace Lexer

theorem exists_division_of_printed {tokens : List Token}
    {texts : List (List Char)}
    (printed : List.Forall₂ Token.Printed tokens texts) (offset : Nat) :
    ∃ entries, entries.map Prod.fst = tokens ∧
      Division offset ([' '].intercalate texts) entries
        (offset + String.utf8Len ([' '].intercalate texts)) := by
  induction printed generalizing offset with
  | nil => exact ⟨[], rfl, .finish .nil⟩
  | @cons token text tokens texts first others induction =>
      by_cases last : texts = []
      · subst last
        cases others
        have reading :
            Reading offset text [] [(token, offset + String.utf8Len text)] :=
          .single .nil first.spelled
        have division := reading.append_division (.finish .nil)
        rw [List.append_nil] at division
        rw [List.intercalate_singleton]
        exact ⟨_, rfl, division⟩
      · let rest := [' '].intercalate texts
        have spelled : token.Spelled text ([' '] ++ rest) := by
          have atEnd : token.Spelled text ([] ++ []) := first.spelled
          exact (separates_of_isBlank rfl).spelled atEnd
        have reading :
            Reading offset text ([' '] ++ rest)
              [(token, offset + String.utf8Len text)] :=
          .single .nil spelled
        have space : Trivia.Sequence [' '] rest := .cons (.blank rfl) .nil
        obtain ⟨entries, rfl, division⟩ :=
          induction (offset + String.utf8Len (text ++ [' ']))
        have joined := reading.append_trivia space division
        rw [Nat.add_assoc, ← String.utf8Len_append, List.append_assoc] at joined
        rw [List.intercalate_cons_of_ne_nil last, List.append_assoc]
        exact ⟨_, rfl, joined⟩

/-- Printed tokens with single spaces between them are read back, and nothing is
left. -/
theorem lexing_undoes_printing (tokens : List Token) (texts : List String)
    (printed :
      List.Forall₂ (fun token text => token.Printed text.toList) tokens texts) :
    (ofString (" ".intercalate texts)).run.1.map Prod.fst = tokens ∧
      (ofString (" ".intercalate texts)).run.2.position =
        (" ".intercalate texts).utf8ByteSize := by
  obtain ⟨entries, rfl, division⟩ :=
    exists_division_of_printed (List.forall₂_map_right_iff.mpr printed) 0
  have text :
      [' '].intercalate (texts.map String.toList) =
        (" ".intercalate texts).toList := by
    rw [String.toList_intercalate]
    rfl
  rw [text, Nat.zero_add, String.utf8Len_toList] at division
  obtain ⟨read, stop⟩ := run_of_division division
  exact ⟨by rw [read], stop⟩

/-- A keyword that looks like the end of a numeral, the greatest number with
digits of both cases, and bytes that are no UTF-8. -/
theorem lexing_undoes_printing_greatest_number :
    List.Forall₂ (fun token text => Token.Printed token text.toList)
        [.keyword "_2", .unsigned 18446744073709551615, .string [0xFF, 0x00]]
        ["_2", "0xFFFFFFFFffffffff", "\"\\Ff\\00\""] ∧
      (ofString
        (" ".intercalate ["_2", "0xFFFFFFFFffffffff",
          "\"\\Ff\\00\""])).run.1.map
          Prod.fst =
        [.keyword "_2", .unsigned 18446744073709551615,
          .string [0xFF, 0x00]] := by
  have printed :
      List.Forall₂ (fun token text => Token.Printed token text.toList)
        [.keyword "_2", .unsigned 18446744073709551615, .string [0xFF, 0x00]]
        ["_2", "0xFFFFFFFFffffffff", "\"\\Ff\\00\""] := by
    have digits : "FFFFFFFFffffffff".toList.map Char.toLower =
        Nat.toDigits 16 (18446744073709551615 : UInt64).toNat := by
      decide +kernel
    have escapes :
        List.Forall₂ HexEscape [0xFF, 0x00] [['\\', 'F', 'f'],
          ['\\', '0', '0']] :=
      .cons ⟨'F', 'f', rfl, rfl, rfl⟩ (.cons ⟨'0', '0', rfl, rfl, rfl⟩ .nil)
    have number :
        Token.Printed (.unsigned 18446744073709551615)
          "0xFFFFFFFFffffffff".toList :=
      .hexadecimal digits
    have keyword : Token.Printed (.keyword "_2") "_2".toList :=
      .keyword rfl rfl (List.forall_mem_singleton.mpr rfl)
    exact .cons keyword (.cons number (.cons (.string escapes) .nil))
  exact ⟨printed, (lexing_undoes_printing _ _ printed).1⟩

end Lexer

end Wasm
