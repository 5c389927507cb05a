import Mathlib.Tactic.NormNum
import Wasm.Text.Numeral

/-!
# What counts as a numeral

A numeral is described by its form and by what may not stand behind it.  Every
text that starts with a decimal digit starts with exactly one numeral.
-/

namespace Wasm.Text

theorem hexValue?_eq_some_iff {character : Char} {digit : Nat} :
    hexValue? character = some digit ↔
      (48 ≤ character.toNat ∧ character.toNat ≤ 57 ∧
        digit + 48 = character.toNat) ∨
      (97 ≤ character.toNat ∧ character.toNat ≤ 102 ∧
        digit + 87 = character.toNat) ∨
      (65 ≤ character.toNat ∧ character.toNat ≤ 70 ∧
        digit + 55 = character.toNat) := by
  have atLeast : ∀ bound : Char, bound ≤ character ↔
      bound.toNat ≤ character.toNat :=
    fun _ => Iff.rfl
  have atMost : ∀ bound : Char, character ≤ bound ↔
      character.toNat ≤ bound.toNat :=
    fun _ => Iff.rfl
  simp only [hexValue?, Bool.and_eq_true, decide_eq_true_eq, atLeast, atMost,
    Char.reduceToNat]
  split
  · simp
    omega
  · split
    · simp
      omega
    · split
      · simp
        omega
      · simp
        omega

theorem digitValue?_sixteen (character : Char) :
    digitValue? 16 character = hexValue? character := by
  cases found : hexValue? character with
  | none => simp [digitValue?, found]
  | some digit =>
      have small : digit < 16 := by
        have := hexValue?_eq_some_iff.mp found
        omega
      simp [digitValue?, found, small]

theorem isDigit_sixteen_iff {character : Char} :
    isDigit 16 character = true ↔
      ∃ digit, hexValue? character = some digit := by
  rw [isDigit, digitValue?_sixteen, Option.isSome_iff_exists]

namespace Numeral

/-- Digits with single underscores between them. -/
inductive Grouped (radix : Nat) : List Char → Prop where
  | last {character : Char} :
      isDigit radix character = true → Grouped radix [character]
  | digit {character : Char} {rest : List Char} :
      isDigit radix character = true → Grouped radix rest →
        Grouped radix (character :: rest)
  | group {character : Char} {rest : List Char} :
      isDigit radix character = true → Grouped radix rest →
        Grouped radix (character :: '_' :: rest)

/-- Text that belongs to the digits before it: another digit, or an underscore
and a digit. -/
inductive Continues (radix : Nat) : List Char → Prop where
  | digit {character : Char} {rest : List Char} :
      isDigit radix character = true → Continues radix (character :: rest)
  | group {character : Char} {rest : List Char} :
      isDigit radix character = true →
        Continues radix ('_' :: character :: rest)

/-- Text that makes a zero before it the mark of a hexadecimal numeral. -/
def Marks (text : List Char) : Prop :=
  ∃ character rest, text = 'x' :: character :: rest ∧
    isDigit 16 character = true

/-- The number that a numeral denotes, the numeral, and what stands behind
it. -/
inductive Written : Nat → List Char → List Char → Prop where
  | decimal {figures behind : List Char} :
      Grouped 10 figures → ¬ Continues 10 behind →
        (figures = ['0'] → ¬ Marks behind) →
      Written (value 10 figures) figures behind
  | hexadecimal {figures behind : List Char} :
      Grouped 16 figures → ¬ Continues 16 behind →
      Written (value 16 figures) ('0' :: 'x' :: figures) behind

theorem value_concat_digit {radix digit : Nat} {character : Char}
    (found : digitValue? radix character = some digit) (text : List Char) :
    value radix (text ++ [character]) = value radix text * radix + digit := by
  simp [value, List.filterMap_append, found]

theorem value_concat_underscore (radix : Nat) (text : List Char) :
    value radix (text ++ ['_']) = value radix text := by
  have noValue : hexValue? '_' = none := by decide
  simp [value, List.filterMap_append, digitValue?, noValue]

theorem Grouped.exists_cons {radix : Nat} {figures : List Char}
    (grouped : Grouped radix figures) :
    ∃ character rest, figures = character :: rest ∧
      isDigit radix character = true := by
  cases grouped with
  | last decimal => exact ⟨_, _, rfl, decimal⟩
  | digit decimal _ => exact ⟨_, _, rfl, decimal⟩
  | group decimal _ => exact ⟨_, _, rfl, decimal⟩

theorem Written.exists_cons {number : Nat} {text behind : List Char}
    (written : Written number text behind) :
    ∃ character rest, text = character :: rest ∧
      isDigit 10 character = true := by
  cases written with
  | decimal grouped _ _ => exact grouped.exists_cons
  | hexadecimal _ _ => exact ⟨_, _, rfl, by decide⟩

theorem continues_cons_iff {radix : Nat} {character : Char} {rest : List Char} :
    Continues radix (character :: rest) ↔
      (isDigit radix character ||
        (character == '_' && rest.head?.any (isDigit radix))) = true := by
  rw [Bool.or_eq_true, Bool.and_eq_true, beq_iff_eq]
  constructor
  · intro continues
    cases continues with
    | digit isDigit => exact .inl isDigit
    | group isDigit => exact .inr ⟨rfl, isDigit⟩
  · rintro (isDigit | ⟨rfl, isDigit⟩)
    · exact .digit isDigit
    · cases rest with
      | nil => cases isDigit
      | cons next rest => exact .group isDigit

theorem marks_cons_iff {character : Char} {rest : List Char} :
    Marks (character :: rest) ↔
      character = 'x' ∧ rest.head?.any (isDigit 16) = true := by
  cases rest with
  | nil => simp [Marks]
  | cons next rest =>
      constructor
      · rintro ⟨digit, others, same, isDigit⟩
        cases same
        exact ⟨rfl, isDigit⟩
      · rintro ⟨rfl, isDigit⟩
        exact ⟨next, rest, rfl, isDigit⟩

theorem not_continues_nil (radix : Nat) : ¬ Continues radix [] :=
  nofun

theorem not_marks_nil : ¬ Marks [] := by
  rintro ⟨_, _, whole, _⟩
  cases whole

theorem digits_of_continues {radix : Nat} {character : Char} {rest : List Char}
    (continues : Continues radix (character :: rest)) :
    digits radix (character :: rest) = character :: digits radix rest := by
  rw [digits, if_pos (continues_cons_iff.mp continues)]

theorem digits_of_not_continues {radix : Nat} {text : List Char}
    (ended : ¬ Continues radix text) : digits radix text = [] := by
  cases text with
  | nil => rfl
  | cons character rest => rw [digits, if_neg (mt continues_cons_iff.mpr ended)]

/-- An underscore between digits is passed with the digit before it. -/
theorem digits_of_group {radix : Nat} {character : Char}
    {rest behind : List Char} (digit : isDigit radix character = true)
    (grouped : Grouped radix rest) :
    digits radix (character :: '_' :: rest ++ behind) =
      character :: '_' :: digits radix (rest ++ behind) := by
  obtain ⟨next, others, rfl, nextDigit⟩ := grouped.exists_cons
  have follows : Continues radix ('_' :: (next :: others ++ behind)) :=
    .group nextDigit
  rw [List.cons_append, List.cons_append, digits_of_continues (.digit digit),
    digits_of_continues follows]

theorem Grouped.digits_append {radix : Nat} {figures behind : List Char}
    (grouped : Grouped radix figures) (ended : ¬ Continues radix behind) :
    digits radix (figures ++ behind) = figures := by
  induction grouped with
  | last isDigit =>
      rw [List.singleton_append, digits_of_continues (.digit isDigit),
        digits_of_not_continues ended]
  | digit isDigit _ induction =>
      rw [List.cons_append, digits_of_continues (.digit isDigit), induction]
  | group isDigit rest induction =>
      rw [digits_of_group isDigit rest, induction]

theorem exists_digits_append (radix : Nat) (text : List Char) :
    ∃ behind, text = digits radix text ++ behind ∧
      ¬ Continues radix behind := by
  induction text with
  | nil => exact ⟨[], rfl, not_continues_nil radix⟩
  | cons character rest induction =>
      by_cases continues : Continues radix (character :: rest)
      · obtain ⟨behind, whole, ended⟩ := induction
        refine ⟨behind, ?_, ended⟩
        rw [digits_of_continues continues, List.cons_append, ← whole]
      · exact ⟨character :: rest,
          by rw [digits_of_not_continues continues]; rfl, continues⟩

theorem grouped_digits {radix : Nat} {character : Char} {rest : List Char}
    (first : isDigit radix character = true) :
    Grouped radix (digits radix (character :: rest)) := by
  rw [digits_of_continues (.digit first)]
  by_cases continues : Continues radix rest
  · cases continues with
    | digit next => exact .digit first (grouped_digits next)
    | group next =>
        rw [digits_of_continues (.group next)]
        exact .group first (grouped_digits next)
  · rw [digits_of_not_continues continues]
    exact .last first
termination_by rest.length

theorem radixMark_of_marks {rest : List Char} (marks : Marks rest) :
    radixMark ('0' :: rest) = (16, ['0', 'x']) := by
  obtain ⟨character, others, rfl, isDigit⟩ := marks
  rw [radixMark, if_pos isDigit]

theorem radixMark_of_not_marks {text : List Char}
    (unmarked : ∀ rest, text = '0' :: rest → ¬ Marks rest) :
    radixMark text = (10, []) := by
  unfold radixMark
  split
  · rename_i character rest
    rw [if_neg]
    intro isDigit
    exact unmarked _ rfl ⟨character, rest, rfl, isDigit⟩
  · rfl

theorem Grouped.not_marks_append {rest behind : List Char}
    (grouped : Grouped 10 ('0' :: rest)) (ended : rest = [] → ¬ Marks behind) :
    ¬ Marks (rest ++ behind) := by
  intro marks
  cases grouped with
  | last _ => exact ended rfl marks
  | digit _ others =>
      obtain ⟨next, others, rfl, nextDigit⟩ := others.exists_cons
      obtain ⟨_, _, same, _⟩ := marks
      obtain ⟨rfl, _⟩ := List.cons.inj same
      revert nextDigit
      decide
  | group _ _ =>
      obtain ⟨_, _, same, _⟩ := marks
      cases (List.cons.inj same).1

theorem scan_eq {text : List Char} {radix : Nat} {mark : List Char}
    (found : radixMark text = (radix, mark)) :
    scan text =
      if value radix (digits radix (text.drop mark.length)) < 2 ^ 64 then
        ⟨.unsigned (UInt64.ofNat
            (value radix (digits radix (text.drop mark.length)))),
          mark ++ digits radix (text.drop mark.length)⟩
      else
        .unknown (mark ++ digits radix (text.drop mark.length)) := by
  have bound : (2 : Nat) ^ 64 = 18446744073709551616 := by norm_num
  unfold scan
  rw [found, bound]

/-- The lexeme of a numeral is the numeral, and its token the number if it fits
in 64 bits. -/
theorem scan_append {number : Nat} {text behind : List Char}
    (written : Written number text behind) :
    scan (text ++ behind) =
      if number < 2 ^ 64 then ⟨.unsigned (UInt64.ofNat number), text⟩
        else .unknown text := by
  cases written with
  | decimal grouped ended zero =>
      have unmarked : ∀ rest, text ++ behind = '0' :: rest → ¬ Marks rest := by
        intro rest whole
        obtain ⟨character, others, rfl, _⟩ := grouped.exists_cons
        cases whole
        exact grouped.not_marks_append fun alone => zero (by rw [alone])
      rw [scan_eq (radixMark_of_not_marks unmarked), List.length_nil,
        List.drop_zero, grouped.digits_append ended, List.nil_append]
  | @hexadecimal figures _ grouped ended =>
      have marks : Marks ('x' :: figures ++ behind) := by
        obtain ⟨character, others, rfl, isDigit⟩ := grouped.exists_cons
        exact ⟨character, others ++ behind, rfl, isDigit⟩
      rw [List.cons_append, scan_eq (radixMark_of_marks marks)]
      simp only [List.length_cons, List.length_nil, List.cons_append,
        List.drop_succ_cons, List.drop_zero, grouped.digits_append ended,
        List.nil_append]

theorem exists_written {character : Char} {rest : List Char}
    (first : isDigit 10 character = true) :
    ∃ number text behind, character :: rest = text ++ behind ∧
      Written number text behind := by
  by_cases marked : character = '0' ∧ Marks rest
  · obtain ⟨rfl, next, rest, rfl, isDigit⟩ := marked
    obtain ⟨behind, whole, ended⟩ := exists_digits_append 16 (next :: rest)
    have grouped : Grouped 16 (digits 16 (next :: rest)) :=
      grouped_digits isDigit
    refine ⟨_, _, behind, ?_, .hexadecimal grouped ended⟩
    rw [List.cons_append, List.cons_append, ← whole]
  · obtain ⟨behind, whole, ended⟩ := exists_digits_append 10 (character :: rest)
    refine ⟨_, _, behind, whole, .decimal (grouped_digits first) ended ?_⟩
    intro zero marks
    apply marked
    rw [zero] at whole
    cases whole
    exact ⟨rfl, marks⟩

end Numeral

end Wasm.Text
