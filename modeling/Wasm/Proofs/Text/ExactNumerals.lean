import Mathlib.Data.Nat.Digits.Defs
import Wasm.Proofs.Text.Printing
import Wasm.Proofs.Text.TokenStarts

/-!
# Exact numerals

A numeral is the longest text of its form, and it denotes the number that its
digits denote in their radix.  The number is exact however many digits there
are, so that a numeral of more than 64 bits is told from every other one.  Steps
of 64 bits that are each checked for overflow come to the same.
-/

namespace Wasm.Text.Numeral

/-! ## Digits and their numbers -/

/-- A digit of either case that stands for a number less than the radix. -/
def Stands (radix : Nat) (character : Char) (digit : Nat) : Prop :=
  digit < radix ∧ character.toLower = Nat.digitChar digit

/-- The number that digits denote, the most significant first. -/
def number (radix : Nat) (digits : List Nat) : Nat :=
  Nat.ofDigits radix digits.reverse

/-- Digits with single underscores between them, and what the digits stand
for. -/
inductive Figures (radix : Nat) : List Char → List Nat → Prop where
  | last {character : Char} {digit : Nat} :
      Stands radix character digit → Figures radix [character] [digit]
  | digit {character : Char} {digit : Nat} {rest : List Char}
      {digits : List Nat} :
      Stands radix character digit → Figures radix rest digits →
      Figures radix (character :: rest) (digit :: digits)
  | group {character : Char} {digit : Nat} {rest : List Char}
      {digits : List Nat} :
      Stands radix character digit → Figures radix rest digits →
      Figures radix (character :: '_' :: rest) (digit :: digits)

/-- No longer text of this form stands at the start of the text. -/
structure Longest (radix : Nat) (text figures : List Char) (digits : List Nat) :
    Prop where
  starts : figures <+: text
  form : Figures radix figures digits
  longest : ∀ longer others, longer <+: text → Figures radix longer others →
    longer.length ≤ figures.length

/-- A text that starts with `0x` and a hexadecimal digit. -/
def Hexadecimal (text : List Char) : Prop :=
  ∃ character digit rest, text = '0' :: 'x' :: character :: rest ∧
    Stands 16 character digit

/-- The numeral that a text starts with: its radix, its lexeme and its
digits. -/
inductive Heads (text : List Char) : Nat → List Char → List Nat → Prop where
  | hexadecimal {figures : List Char} {digits : List Nat} :
      Hexadecimal text → Longest 16 (text.drop 2) figures digits →
      Heads text 16 ('0' :: 'x' :: figures) digits
  | decimal {figures : List Char} {digits : List Nat} :
      ¬ Hexadecimal text → Longest 10 text figures digits →
        Heads text 10 figures digits

@[simp]
theorem number_concat (radix digit : Nat) (digits : List Nat) :
    number radix (digits ++ [digit]) = number radix digits * radix + digit := by
  rw [number, List.reverse_concat, Nat.ofDigits_cons, ← number]
  simp [Nat.mul_comm, Nat.add_comm]

theorem number_eq_foldl (radix : Nat) (digits : List Nat) :
    digits.foldl (fun total digit => total * radix + digit) 0 =
      number radix digits := by
  induction digits using List.reverseRecOn with
  | nil => rfl
  | append_singleton digits digit induction =>
      rw [List.foldl_concat, induction, number_concat]

theorem digitValue?_eq_some_iff {radix digit : Nat} {character : Char}
    (atMost : radix ≤ 16) :
    digitValue? radix character = some digit ↔
      Stands radix character digit := by
  constructor
  · intro found
    obtain ⟨value, small⟩ := Option.filter_eq_some_iff.mp found
    have less : digit < radix := of_decide_eq_true small
    have range := hexValue?_eq_some_iff.mp value
    refine ⟨less, Char.toNat_inj.mp ?_⟩
    rw [toNat_toLower, toNat_digitChar (Nat.lt_of_lt_of_le less atMost)]
    split <;> split <;> omega
  · intro stands
    exact digitValue?_of_toLower atMost stands.1 stands.2

theorem isDigit_iff {radix : Nat} {character : Char} (atMost : radix ≤ 16) :
    isDigit radix character = true ↔ ∃ digit, Stands radix character digit := by
  simp only [isDigit, Option.isSome_iff_exists, digitValue?_eq_some_iff atMost]

theorem isDigit_ten {character : Char} (decimal : character.isDigit = true) :
    isDigit 10 character = true := by
  simp only [Char.isDigit_iff_toNat, Char.reduceToNat] at decimal
  have found : hexValue? character = some (character.toNat - 48) :=
    hexValue?_eq_some_iff.mpr (by omega)
  have small : character.toNat - 48 < 10 := by omega
  simp [isDigit, digitValue?, found, small]

/-! ## Forms and values -/

/-- Digits are passed whatever stands behind them. -/
theorem Grouped.prefix_digits {radix : Nat} {figures : List Char}
    (grouped : Grouped radix figures) (behind : List Char) :
    figures <+: digits radix (figures ++ behind) := by
  induction grouped with
  | last isDigit =>
      rw [List.singleton_append, digits_of_continues (.digit isDigit)]
      exact List.prefix_append [_] _
  | digit isDigit _ induction =>
      rw [List.cons_append, digits_of_continues (.digit isDigit),
        List.prefix_cons_inj]
      exact induction
  | group isDigit rest induction =>
      rw [digits_of_group isDigit rest, List.prefix_cons_inj,
        List.prefix_cons_inj]
      exact induction

section Forms

variable {radix : Nat} (atMost : radix ≤ 16) {figures : List Char}

include atMost

theorem grouped_iff :
    Grouped radix figures ↔ ∃ digits, Figures radix figures digits := by
  constructor
  · intro grouped
    induction grouped with
    | last isDigit =>
        obtain ⟨digit, stands⟩ := (isDigit_iff atMost).mp isDigit
        exact ⟨[digit], .last stands⟩
    | digit isDigit _ induction =>
        obtain ⟨digit, stands⟩ := (isDigit_iff atMost).mp isDigit
        obtain ⟨digits, form⟩ := induction
        exact ⟨digit :: digits, .digit stands form⟩
    | group isDigit _ induction =>
        obtain ⟨digit, stands⟩ := (isDigit_iff atMost).mp isDigit
        obtain ⟨digits, form⟩ := induction
        exact ⟨digit :: digits, .group stands form⟩
  · rintro ⟨digits, form⟩
    induction form with
    | last stands => exact .last ((isDigit_iff atMost).mpr ⟨_, stands⟩)
    | digit stands _ induction =>
        exact .digit ((isDigit_iff atMost).mpr ⟨_, stands⟩) induction
    | group stands _ induction =>
        exact .group ((isDigit_iff atMost).mpr ⟨_, stands⟩) induction

theorem Figures.filterMap {digits : List Nat}
    (form : Figures radix figures digits) :
    figures.filterMap (digitValue? radix) = digits := by
  have noValue : digitValue? radix '_' = none := by
    have missing : hexValue? '_' = none := by decide
    simp [digitValue?, missing]
  induction form with
  | last stands => simp [(digitValue?_eq_some_iff atMost).mpr stands]
  | digit stands _ induction =>
      simp [(digitValue?_eq_some_iff atMost).mpr stands, induction]
  | group stands _ induction =>
      simp [(digitValue?_eq_some_iff atMost).mpr stands, noValue, induction]

theorem Figures.value_eq {digits : List Nat}
    (form : Figures radix figures digits) :
    value radix figures = number radix digits := by
  rw [value, form.filterMap atMost, number_eq_foldl]

/-- Digits that nothing behind them continues are the longest at the start of
the text. -/
theorem longest_of_grouped {behind : List Char}
    (grouped : Grouped radix figures) (ended : ¬ Continues radix behind) :
    ∃ digits, Longest radix (figures ++ behind) figures digits ∧
      value radix figures = number radix digits := by
  obtain ⟨digits, form⟩ := (grouped_iff atMost).mp grouped
  refine ⟨digits, ⟨List.prefix_append figures behind, form, ?_⟩,
    form.value_eq atMost⟩
  intro longer others starts other
  have otherGrouped : Grouped radix longer :=
    (grouped_iff atMost).mpr ⟨others, other⟩
  obtain ⟨rest, whole⟩ := starts
  have inside := otherGrouped.prefix_digits rest
  rw [whole, grouped.digits_append ended] at inside
  exact inside.length_le

end Forms

theorem hexadecimal_iff {text : List Char} :
    Hexadecimal text ↔ ∃ rest, text = '0' :: rest ∧ Marks rest := by
  constructor
  · rintro ⟨character, digit, rest, rfl, stands⟩
    exact ⟨_, rfl, character, rest, rfl,
      (isDigit_iff (Nat.le_refl 16)).mpr ⟨digit, stands⟩⟩
  · rintro ⟨_, rfl, character, rest, rfl, isDigit⟩
    obtain ⟨digit, stands⟩ := (isDigit_iff (Nat.le_refl 16)).mp isDigit
    exact ⟨character, digit, rest, rfl, stands⟩

/-- A numeral stands at the start of its text as the longest one, and is worth
its digits. -/
theorem Written.heads {worth : Nat} {lexeme behind : List Char}
    (written : Written worth lexeme behind) :
    ∃ radix digits, Heads (lexeme ++ behind) radix lexeme digits ∧
      worth = number radix digits := by
  cases written with
  | decimal grouped ended zero =>
      obtain ⟨digits, longest, value⟩ :=
        longest_of_grouped (by decide) grouped ended
      refine ⟨10, digits, .decimal ?_ longest, value⟩
      rw [hexadecimal_iff]
      rintro ⟨rest, whole, marks⟩
      obtain ⟨character, others, rfl, _⟩ := grouped.exists_cons
      cases whole
      exact grouped.not_marks_append (fun alone => zero (by rw [alone])) marks
  | @hexadecimal figures _ grouped ended =>
      obtain ⟨digits, longest, value⟩ :=
        longest_of_grouped (Nat.le_refl 16) grouped ended
      refine ⟨16, digits, .hexadecimal ?_ longest, value⟩
      obtain ⟨character, others, rfl, isDigit⟩ := grouped.exists_cons
      exact hexadecimal_iff.mpr ⟨_, rfl, character, others ++ behind,
        rfl, isDigit⟩

/-! ## Steps of 64 bits -/

/-- A product, if it has no more than 64 bits. -/
def checkedMul (left right : UInt64) : Option UInt64 :=
  if left.toNat * right.toNat < 2 ^ 64 then some (left * right) else none

/-- A sum, if it has no more than 64 bits. -/
def checkedAdd (left right : UInt64) : Option UInt64 :=
  if left.toNat + right.toNat < 2 ^ 64 then some (left + right) else none

/-- Puts a digit behind a number.  Nothing comes back from an overflow. -/
def addDigit (radix : Nat) (total : Option UInt64) (digit : Nat) :
    Option UInt64 :=
  (total.bind (checkedMul · (UInt64.ofNat radix))).bind
    (checkedAdd · (UInt64.ofNat digit))

/-- A number in a word, if it has no more than 64 bits. -/
def ofNumber (worth : Nat) : Option UInt64 :=
  if worth < 2 ^ 64 then some (UInt64.ofNat worth) else none

theorem ofNumber_of_lt {worth : Nat} (fits : worth < 2 ^ 64) :
    ofNumber worth = some (UInt64.ofNat worth) :=
  if_pos fits

theorem ofNumber_of_le {worth : Nat} (large : 2 ^ 64 ≤ worth) :
    ofNumber worth = none :=
  if_neg (Nat.not_lt_of_le large)

theorem checkedMul_ofNat {left right : Nat} (leftFits : left < 2 ^ 64)
    (rightFits : right < 2 ^ 64) :
    checkedMul (UInt64.ofNat left) (UInt64.ofNat right) =
      ofNumber (left * right) := by
  rw [checkedMul, UInt64.toNat_ofNat_of_lt' leftFits,
    UInt64.toNat_ofNat_of_lt' rightFits, ofNumber, UInt64.ofNat_mul]

theorem checkedAdd_ofNat {left right : Nat} (leftFits : left < 2 ^ 64)
    (rightFits : right < 2 ^ 64) :
    checkedAdd (UInt64.ofNat left) (UInt64.ofNat right) =
      ofNumber (left + right) := by
  rw [checkedAdd, UInt64.toNat_ofNat_of_lt' leftFits,
    UInt64.toNat_ofNat_of_lt' rightFits, ofNumber, UInt64.ofNat_add]

theorem addDigit_ofNumber {radix digit worth : Nat} (positive : 0 < radix)
    (atMost : radix ≤ 16) (small : digit < radix) :
    addDigit radix (ofNumber worth) digit =
      ofNumber (worth * radix + digit) := by
  -- The number never gets less, so that an overflow is not undone by a later
  -- digit.
  have grows : worth ≤ worth * radix := Nat.le_mul_of_pos_right worth positive
  unfold addDigit
  rcases Nat.lt_or_ge worth (2 ^ 64) with fits | large
  · rw [ofNumber_of_lt fits, Option.bind_some, checkedMul_ofNat fits (by omega)]
    rcases Nat.lt_or_ge (worth * radix) (2 ^ 64) with product | overflow
    · rw [ofNumber_of_lt product, Option.bind_some,
        checkedAdd_ofNat product (by omega)]
    · rw [ofNumber_of_le overflow, ofNumber_of_le (by omega)]
      rfl
  · rw [ofNumber_of_le large, ofNumber_of_le (by omega)]
    rfl

/-- Steps that are each checked overflow exactly if the number of all digits
does. -/
theorem foldl_addDigit {radix : Nat} (positive : 0 < radix)
    (atMost : radix ≤ 16) {digits : List Nat}
    (small : ∀ digit ∈ digits, digit < radix) :
    digits.foldl (addDigit radix) (some 0) =
      ofNumber (number radix digits) := by
  induction digits using List.reverseRecOn with
  | nil => rfl
  | append_singleton digits digit induction =>
      obtain ⟨before, last⟩ := List.forall_mem_append.mp small
      rw [List.foldl_concat, induction before, number_concat]
      exact addDigit_ofNumber positive atMost (last digit List.mem_cons_self)

theorem Figures.lt {radix : Nat} {figures : List Char} {digits : List Nat}
    (form : Figures radix figures digits) :
    ∀ digit ∈ digits, digit < radix := by
  induction form with
  | last stands => exact List.forall_mem_singleton.mpr stands.1
  | digit stands _ induction =>
      exact List.forall_mem_cons.mpr ⟨stands.1, induction⟩
  | group stands _ induction =>
      exact List.forall_mem_cons.mpr ⟨stands.1, induction⟩

theorem Heads.foldl_addDigit {text lexeme : List Char} {radix : Nat}
    {digits : List Nat} (heads : Heads text radix lexeme digits) :
    digits.foldl (addDigit radix) (some 0) =
      ofNumber (number radix digits) := by
  cases heads with
  | hexadecimal _ longest =>
      exact Numeral.foldl_addDigit (by decide) (Nat.le_refl 16) longest.form.lt
  | decimal _ longest =>
      exact Numeral.foldl_addDigit (by decide) (by decide) longest.form.lt

/-- The token of a numeral whose digits are added in steps of 64 bits. -/
def stepwise (radix : Nat) (lexeme : List Char) (digits : List Nat) : Token :=
  match digits.foldl (addDigit radix) (some 0) with
  | some value => .unsigned value
  | none => .unknown (String.ofList lexeme)

end Wasm.Text.Numeral

namespace Wasm.Lexer

open Text Text.Numeral

theorem TokenStart.finds_of_numeral {source : String} {calls worth : Nat}
    {front lexeme behind : List Char}
    (start : TokenStart source calls front (lexeme ++ behind))
    (written : Written worth lexeme behind) :
    Finds source calls
      (if worth < 2 ^ 64 then .unsigned (UInt64.ofNat worth)
        else .unknown (String.ofList lexeme))
      front lexeme behind := by
  apply start.finds (Trivia.piece?_of_numeral written)
  rw [Lexeme.first?_of_numeral written]
  split
  · rfl
  · rfl

/-- Where a token starts with a decimal digit, the call finds the longest
numeral that stands there and stops right behind it.  The token is the number of
the digits if that has no more than 64 bits, and else unknown text, behind which
nothing is read.  Steps of 64 bits find the same token. -/
theorem numerals_are_exact {source : String} {calls : Nat}
    {front rest : List Char} {character : Char}
    (start : TokenStart source calls front (character :: rest))
    (decimal : character.isDigit = true) :
    ∃ radix lexeme digits behind, character :: rest = lexeme ++ behind ∧
      Heads (character :: rest) radix lexeme digits ∧
      (number radix digits < 2 ^ 64 →
        ∃ value : UInt64, value.toNat = number radix digits ∧
        Finds source calls (.unsigned value) front lexeme behind) ∧
      (2 ^ 64 ≤ number radix digits →
        Finds source calls (.unknown (String.ofList lexeme)) front
          lexeme behind ∧
        ∀ later > calls, answer source later = none) ∧
      Finds source calls (stepwise radix lexeme digits) front lexeme
        behind := by
  obtain ⟨worth, lexeme, behind, whole, written⟩ :=
    exists_written (isDigit_ten decimal)
  obtain ⟨radix, digits, heads, rfl⟩ := written.heads
  have stepped := heads.foldl_addDigit
  rw [whole] at start ⊢
  have finds := start.finds_of_numeral written
  refine ⟨radix, lexeme, digits, behind, rfl, heads, ?_⟩
  unfold stepwise
  rcases Nat.lt_or_ge (number radix digits) (2 ^ 64) with fits | large
  · rw [if_pos fits] at finds
    rw [stepped, ofNumber_of_lt fits]
    exact ⟨fun _ => ⟨_, UInt64.toNat_ofNat_of_lt' fits, finds⟩,
      fun large => absurd fits (Nat.not_lt_of_le large), finds⟩
  · rw [if_neg (Nat.not_lt_of_le large)] at finds
    rw [stepped, ofNumber_of_le large]
    exact ⟨fun small => absurd small (Nat.not_lt_of_le large),
      fun _ => ⟨finds, fun _ => finds.answer_eq_none⟩, finds⟩

/-- A numeral behind two tokens, with two underscores behind it. -/
theorem numeral_before_underscores_is_exact :
    TokenStart "1_ 0x0_F__g" 2 "1_ ".toList "0x0_F__g".toList ∧
      answer "1_ 0x0_F__g" 2 = some (.unsigned 15) ∧
      ∃ radix lexeme digits behind, "0x0_F__g".toList = lexeme ++ behind ∧
        Heads "0x0_F__g".toList radix lexeme digits ∧
        Finds "1_ 0x0_F__g" 2 (stepwise radix lexeme digits) "1_ ".toList lexeme
          behind := by
  have start : TokenStart "1_ 0x0_F__g" 2 "1_ ".toList "0x0_F__g".toList := by
    refine ⟨by decide +kernel, by decide, [' '],
      .cons (.blank (by decide)) .nil, ?_⟩
    decide +kernel
  obtain ⟨radix, lexeme, digits, behind, whole, heads, _, _, finds⟩ :=
    numerals_are_exact start (by decide)
  exact ⟨start,
    by decide +kernel, radix, lexeme, digits, behind, whole, heads, finds⟩

end Wasm.Lexer
