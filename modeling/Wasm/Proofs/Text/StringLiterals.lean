import Mathlib.Data.List.Induction
import Wasm.Proofs.Text.Numerals
import Wasm.Text.StringLiteral

/-!
# What counts as a string literal

A literal is a sequence of items between quotes, and each item stands for some
bytes.  Every text behind a quote is a literal and more, or breaks an item at a
character, or ends before the literal does.
-/

namespace Wasm.Text.StringLiteral

/-! ## The count of digits -/

/-- The number of hexadecimal digits of a text. -/
def digitCount (figures : List Char) : Nat :=
  figures.countP (isDigit 16)

/-- A number of digits is positive in the 32 bits in which it is counted. -/
def Counts (number : Nat) : Prop :=
  0 < Int32.ofNat number

instance (number : Nat) : Decidable (Counts number) :=
  inferInstanceAs (Decidable (0 < Int32.ofNat number))

/-- Half of every `2 ^ 32` numbers are positive. -/
theorem counts_iff {number : Nat} :
    Counts number ↔ 0 < number % 2 ^ 32 ∧ number % 2 ^ 32 < 2 ^ 31 := by
  have size : (Int32.size : Int) = 2 ^ 32 := by decide
  rw [Counts, Int32.lt_iff_toInt_lt, Int32.toInt_ofNat', Int32.toInt_zero,
    Int.bmod_def, size]
  split <;> omega

example : Counts (2 ^ 31 - 1) ∧ ¬ Counts (2 ^ 31) := by
  decide

theorem counts_of_few {number : Nat} (positive : 0 < number)
    (few : number < 2 ^ 31) : Counts number := by
  rw [counts_iff, Nat.mod_eq_of_lt (by omega)]
  exact ⟨positive, few⟩

theorem not_counts_zero : ¬ Counts 0 := by
  decide

/-- The largest count is that of the first digits before it wraps around. -/
theorem ofNat_eq_maxValue_iff {number : Nat} :
    Int32.ofNat number = Int32.maxValue ↔ number % 2 ^ 32 = 2 ^ 31 - 1 := by
  rw [← Int32.toBitVec_inj, ← BitVec.toNat_inj, Int32.toBitVec_ofNat']
  exact Iff.rfl

theorem digitCount_concat_digit {character : Char}
    (digit : isDigit 16 character = true) (figures : List Char) :
    digitCount (figures ++ [character]) = digitCount figures + 1 := by
  simp [digitCount, List.countP_append, digit]

theorem digitCount_concat_underscore (figures : List Char) :
    digitCount (figures ++ ['_']) = digitCount figures := by
  have noDigit : isDigit 16 '_' = false := by decide
  simp [digitCount, List.countP_append, noDigit]

/-- Where the reading of a literal stands behind the figures of a code. -/
def codeState (figures : List Char) : State :=
  .digits (Numeral.value 16 figures) (Int32.ofNat (digitCount figures))

/-! ## Items and literals -/

/-- Hexadecimal digits and underscores.  An underscore stands only where the
count of the digits before it is positive. -/
inductive Code : List Char → Prop where
  | nil : Code []
  | digit {figures : List Char} {character : Char} :
      Code figures → isDigit 16 character = true →
      Code (figures ++ [character])
  | underscore {figures : List Char} :
      Code figures → Counts (digitCount figures) → Code (figures ++ ['_'])

/-- An item of a literal, and the bytes it stands for. -/
inductive Item : List Char → List UInt8 → Prop where
  | raw {character : Char} :
      character ≠ '"' → character ≠ '\\' → isControl character = false →
      Item [character] (String.utf8EncodeChar character)
  | named {character : Char} {byte : UInt8} :
      namedEscape? character = some byte → Item ['\\', character] [byte]
  | byte {first second : Char} {high low : Nat} :
      hexValue? first = some high → hexValue? second = some low →
      Item ['\\', first, second] [UInt8.ofNat (high * 16 + low)]
  | scalar {figures : List Char} {character : Char} :
      Code figures → Counts (digitCount figures) →
      Numeral.value 16 figures = character.toNat →
      Item ('\\' :: 'u' :: '{' :: figures ++ ['}'])
        (String.utf8EncodeChar character)

/-- Items one after the other, and the bytes they stand for. -/
inductive Items : List Char → List UInt8 → Prop where
  | nil : Items [] []
  | concat {items item : List Char} {bytes more : List UInt8} :
      Items items bytes → Item item more → Items (items ++ item) (bytes ++ more)

/-- What has been read of an item that is not complete. -/
inductive Begun : List Char → State → Prop where
  | plain : Begun [] .plain
  | escape : Begun ['\\'] .escape
  | byte {first : Char} {high : Nat} :
      hexValue? first = some high → Begun ['\\', first] (.byte high)
  | brace : Begun ['\\', 'u'] .brace
  | code {figures : List Char} :
      Code figures → Numeral.value 16 figures < 2 ^ 32 →
      Begun ('\\' :: 'u' :: '{' :: figures) (codeState figures)

/-- The start of an item up to a character that may not stand there. -/
inductive Broken : List Char → Prop where
  | control {character : Char} : isControl character = true → Broken [character]
  | escape {character : Char} :
      namedEscape? character = none → character ≠ 'u' →
        hexValue? character = none →
      Broken ['\\', character]
  | byte {first second : Char} {high : Nat} :
      hexValue? first = some high → hexValue? second = none →
        Broken ['\\', first, second]
  | brace {character : Char} : character ≠ '{' → Broken ['\\', 'u', character]
  | figure {figures : List Char} {character : Char} :
      Code figures → Numeral.value 16 figures < 2 ^ 32 →
      hexValue? character = none →
      (character = '_' ∨ character = '}' → ¬ Counts (digitCount figures)) →
      Broken ('\\' :: 'u' :: '{' :: figures ++ [character])
  | large {figures : List Char} {character : Char} :
      Code figures → Numeral.value 16 figures < 2 ^ 32 →
      isDigit 16 character = true →
      2 ^ 32 ≤ Numeral.value 16 (figures ++ [character]) →
      Broken ('\\' :: 'u' :: '{' :: figures ++ [character])
  | scalar {figures : List Char} :
      Code figures → Numeral.value 16 figures < 2 ^ 32 →
      Counts (digitCount figures) →
      ¬ (Numeral.value 16 figures).isValidChar →
      Broken ('\\' :: 'u' :: '{' :: figures ++ ['}'])

/-- The bytes of a literal, and the literal. -/
inductive Written : List UInt8 → List Char → Prop where
  | mk {items : List Char} {bytes : List UInt8} :
      Items items bytes → Written bytes ('"' :: (items ++ ['"']))

/-- Text that starts like a literal and is none, and what stands behind it.  It
stops at the character that breaks an item, or at the end. -/
inductive Malformed : List Char → List Char → Prop where
  | broken {items part behind : List Char} {bytes : List UInt8} :
      Items items bytes → Broken part →
        Malformed ('"' :: (items ++ part)) behind
  | unclosed {items part : List Char} {bytes : List UInt8} {state : State} :
      Items items bytes → Begun part state →
        Malformed ('"' :: (items ++ part)) []

theorem Written.exists_cons {bytes : List UInt8} {literal : List Char}
    (written : Written bytes literal) : ∃ body, literal = '"' :: body := by
  obtain ⟨_⟩ := written
  exact ⟨_, rfl⟩

theorem Malformed.exists_cons {literal behind : List Char}
    (malformed : Malformed literal behind) : ∃ body, literal = '"' :: body := by
  cases malformed with
  | broken => exact ⟨_, rfl⟩
  | unclosed => exact ⟨_, rfl⟩

theorem scanFrom_of_go {state next : State} {character : Char}
    {bytes : List UInt8} (goes : step state character = .go bytes next)
    (rest : List Char) :
    scanFrom state (character :: rest) =
      ((scanFrom next rest).1.map (bytes ++ ·),
        character :: (scanFrom next rest).2) := by
  rw [scanFrom, goes]

theorem scanFrom_of_close {state : State} {character : Char}
    (closes : step state character = .close) (rest : List Char) :
    scanFrom state (character :: rest) = (some [], [character]) := by
  rw [scanFrom, closes]

theorem scanFrom_of_refuse {state : State} {character : Char}
    (refuses : step state character = .refuse) (rest : List Char) :
    scanFrom state (character :: rest) = (none, [character]) := by
  rw [scanFrom, refuses]

/-- Read from the start, the text leads to the state and completes the bytes. -/
def Reads (text : List Char) (bytes : List UInt8) (state : State) : Prop :=
  ∀ rest, scanFrom .plain (text ++ rest) =
    ((scanFrom state rest).1.map (bytes ++ ·), text ++ (scanFrom state rest).2)

theorem reads_nil : Reads [] [] .plain := by
  intro rest
  simp

theorem Reads.append {text more : List Char} {bytes others : List UInt8}
    {state : State} (first : Reads text bytes .plain)
    (second : Reads more others state) :
    Reads (text ++ more) (bytes ++ others) state := by
  intro rest
  rw [List.append_assoc, first, second]
  simp [Function.comp_def]

theorem Reads.step {text : List Char} {bytes more : List UInt8}
    {state next : State} {character : Char} (reads : Reads text bytes state)
    (goes : StringLiteral.step state character = .go more next) :
    Reads (text ++ [character]) (bytes ++ more) next := by
  intro rest
  rw [List.append_assoc, List.singleton_append, reads, scanFrom_of_go goes]
  simp [Function.comp_def]

theorem ne_of_hexValue? {character other : Char} {digit : Nat}
    (found : hexValue? character = some digit)
    (missing : hexValue? other = none) :
    character ≠ other := by
  rintro rfl
  rw [missing] at found
  cases found

/-- A hexadecimal digit is neither a named escape nor the mark of a code. -/
theorem step_escape_of_hexValue? {character : Char} {high : Nat}
    (found : hexValue? character = some high) :
    step .escape character = .go [] (.byte high) := by
  have notQuote : character.toNat ≠ 0x27 := by
    have range := hexValue?_eq_some_iff.mp found
    omega
  have unnamed : namedEscape? character = none := by
    rw [namedEscape?, if_neg (ne_of_hexValue? found (by decide)),
      if_neg (ne_of_hexValue? found (by decide)),
      if_neg (ne_of_hexValue? found (by decide)),
      if_neg (ne_of_hexValue? found (by decide)), if_neg notQuote,
      if_neg (ne_of_hexValue? found (by decide))]
  have notCode : character ≠ 'u' := ne_of_hexValue? found (by decide)
  simp [step, unnamed, notCode, found]

theorem toNat_ofNat_of_valid {code : Nat} (valid : code.isValidChar) :
    (Char.ofNat code).toNat = code := by
  rw [Char.ofNat, dif_pos valid]
  rfl

theorem value_singleton {character : Char} {digit : Nat}
    (found : hexValue? character = some digit) :
    Numeral.value 16 [character] = digit := by
  simp [Numeral.value, digitValue?_sixteen, found]

theorem value_concat {character : Char} {digit : Nat}
    (found : hexValue? character = some digit) (digits : List Char) :
    Numeral.value 16 (digits ++ [character]) =
      Numeral.value 16 digits * 16 + digit :=
  Numeral.value_concat_digit (by rw [digitValue?_sixteen, found]) digits

theorem step_codeState_of_hexValue? {character : Char} {digit : Nat}
    (found : hexValue? character = some digit) (figures : List Char) :
    step (codeState figures) character =
      if Numeral.value 16 (figures ++ [character]) < 2 ^ 32 then
        .go [] (codeState (figures ++ [character]))
      else
        .refuse := by
  have isDigit := isDigit_sixteen_iff.mpr ⟨digit, found⟩
  have notClose : character ≠ '}' := ne_of_hexValue? found (by decide)
  have notUnderscore : character ≠ '_' := ne_of_hexValue? found (by decide)
  rw [codeState, codeState, value_concat found, digitCount_concat_digit isDigit]
  simp [step, notClose, notUnderscore, digitStep, found]

theorem step_codeState_of_underscore {figures : List Char}
    (counts : Counts (digitCount figures)) :
    step (codeState figures) '_' = .go [] (codeState (figures ++ ['_'])) := by
  have positive : 0 < Int32.ofNat (digitCount figures) := counts
  rw [codeState, codeState, Numeral.value_concat_underscore,
    digitCount_concat_underscore]
  simp [step, positive]

theorem step_codeState_of_close {figures : List Char}
    (counts : Counts (digitCount figures)) :
    step (codeState figures) '}' =
      if (Numeral.value 16 figures).isValidChar then
        .go (String.utf8EncodeChar (Char.ofNat (Numeral.value 16 figures)))
          .plain
      else
        .refuse := by
  have positive : 0 < Int32.ofNat (digitCount figures) := counts
  simp [codeState, step, positive]

/-- An underscore or a closing brace is refused like any other character that
is no digit, where the count is not positive. -/
theorem step_codeState_of_refused {figures : List Char} {character : Char}
    (missing : hexValue? character = none)
    (uncounted :
      character = '_' ∨ character = '}' → ¬ Counts (digitCount figures)) :
    step (codeState figures) character = .refuse := by
  have notClose :
      ¬ (character = '}' ∧ 0 < Int32.ofNat (digitCount figures)) :=
    fun closes => uncounted (.inr closes.1) closes.2
  have notUnderscore :
      ¬ (character = '_' ∧ 0 < Int32.ofNat (digitCount figures)) :=
    fun separates => uncounted (.inl separates.1) separates.2
  simp only [codeState, step, if_neg notClose, if_neg notUnderscore, digitStep,
    missing]

theorem reads_escape : Reads ['\\'] [] .escape :=
  reads_nil.step rfl

theorem reads_brace : Reads ['\\', 'u'] [] .brace :=
  reads_escape.step rfl

theorem Code.reads {figures : List Char} (code : Code figures)
    (small : Numeral.value 16 figures < 2 ^ 32) :
    Reads ('\\' :: 'u' :: '{' :: figures) [] (codeState figures) := by
  induction code with
  | nil => exact reads_brace.step rfl
  | @digit figures character _ isDigit induction =>
      obtain ⟨digit, found⟩ := isDigit_sixteen_iff.mp isDigit
      have goes := step_codeState_of_hexValue? found figures
      rw [if_pos small] at goes
      rw [value_concat found] at small
      exact (induction (by omega)).step goes
  | underscore _ counts induction =>
      rw [Numeral.value_concat_underscore] at small
      exact (induction small).step (step_codeState_of_underscore counts)

theorem Begun.reads {part : List Char} {state : State}
    (begun : Begun part state) :
    Reads part [] state := by
  cases begun with
  | plain => exact reads_nil
  | escape => exact reads_escape
  | byte found => exact reads_escape.step (step_escape_of_hexValue? found)
  | brace => exact reads_brace
  | code code small => exact code.reads small

theorem Item.reads {item : List Char} {bytes : List UInt8}
    (form : Item item bytes) :
    Reads item bytes .plain := by
  cases form with
  | @raw character notQuote notEscape printable =>
      have goes :
          step .plain character =
            .go (String.utf8EncodeChar character) .plain := by
        simp [step, notQuote, notEscape, printable]
      exact reads_nil.step goes
  | named found => exact reads_escape.step (by simp [step, found])
  | byte high low =>
      have begun : Begun ['\\', _] (.byte _) := .byte high
      exact begun.reads.step (by simp [step, low])
  | @scalar figures character code counts value =>
      have small : Numeral.value 16 figures < 2 ^ 32 := by
        rw [value]
        exact character.val.toNat_lt
      have valid : (Numeral.value 16 figures).isValidChar := by
        rw [value]
        exact character.valid
      have goes := step_codeState_of_close counts
      rw [if_pos valid, value, Char.ofNat_toNat] at goes
      exact (code.reads small).step goes

theorem Items.reads {items : List Char} {bytes : List UInt8}
    (form : Items items bytes) :
    Reads items bytes .plain := by
  induction form with
  | nil => exact reads_nil
  | concat _ item induction => exact induction.append item.reads

/-- What a character does to an item that is not complete: it closes the
literal, breaks the item, completes it or becomes part of it. -/
inductive Effect (part : List Char) (character : Char) : Step → Prop where
  | close : part = [] → character = '"' → Effect part character .close
  | breaks : Broken (part ++ [character]) → Effect part character .refuse
  | complete {bytes : List UInt8} :
      Item (part ++ [character]) bytes →
        Effect part character (.go bytes .plain)
  | extend {next : State} :
      Begun (part ++ [character]) next → Effect part character (.go [] next)

theorem effect_plain (character : Char) :
    Effect [] character (step .plain character) := by
  rw [step]
  split
  · rename_i quote
    exact .close rfl quote
  · rename_i notQuote
    split
    · rename_i escape
      rw [escape]
      exact .extend .escape
    · rename_i notEscape
      cases control : isControl character with
      | true => exact .breaks (.control control)
      | false => exact .complete (.raw notQuote notEscape control)

theorem effect_escape (character : Char) :
    Effect ['\\'] character (step .escape character) := by
  cases named : namedEscape? character with
  | some byte =>
      simp only [step, named]
      exact .complete (.named named)
  | none =>
      simp only [step, named]
      split
      · rename_i code
        rw [code]
        exact .extend .brace
      · rename_i notCode
        cases found : hexValue? character with
        | some high => exact .extend (.byte found)
        | none => exact .breaks (.escape named notCode found)

theorem Code.effect {figures : List Char} (code : Code figures)
    (small : Numeral.value 16 figures < 2 ^ 32) (character : Char) :
    Effect ('\\' :: 'u' :: '{' :: figures) character
      (step (codeState figures) character) := by
  cases found : hexValue? character with
  | some digit =>
      have isDigit := isDigit_sixteen_iff.mpr ⟨digit, found⟩
      rw [step_codeState_of_hexValue? found]
      split
      · rename_i stillSmall
        exact .extend (.code (code.digit isDigit) stillSmall)
      · rename_i large
        exact .breaks (.large code small isDigit (Nat.le_of_not_lt large))
  | none =>
      by_cases counts : Counts (digitCount figures)
      · by_cases closes : character = '}'
        · rw [closes, step_codeState_of_close counts]
          split
          · rename_i valid
            exact .complete
              (.scalar code counts (toNat_ofNat_of_valid valid).symm)
          · rename_i invalid
            exact .breaks (.scalar code small counts invalid)
        by_cases separates : character = '_'
        · rw [separates, step_codeState_of_underscore counts]
          rw [← Numeral.value_concat_underscore] at small
          exact .extend (.code (code.underscore counts) small)
        have neither :
            character = '_' ∨ character = '}' →
              ¬ Counts (digitCount figures) := by
          simp [closes, separates]
        rw [step_codeState_of_refused found neither]
        exact .breaks (.figure code small found neither)
      · rw [step_codeState_of_refused found fun _ => counts]
        exact .breaks (.figure code small found fun _ => counts)

theorem Begun.effect {part : List Char} {state : State}
    (begun : Begun part state) (character : Char) :
    Effect part character (step state character) := by
  cases begun with
  | plain => exact effect_plain character
  | escape => exact effect_escape character
  | byte first =>
      cases found : hexValue? character with
      | some low =>
          simp only [step, found]
          exact .complete (.byte first found)
      | none =>
          simp only [step, found]
          exact .breaks (.byte first found)
  | brace =>
      rw [step]
      split
      · rename_i opens
        rw [opens]
        exact .extend (.code .nil (by decide))
      · rename_i closed
        exact .breaks (.brace closed)
  | code code small => exact code.effect small character

/-- The count overflows at a digit behind so many digits that their count is
the largest one. -/
theorem overflows_codeState_iff {figures : List Char} {character : Char} :
    overflows (codeState figures) character = true ↔
      digitCount figures % 2 ^ 32 = 2 ^ 31 - 1 ∧
        isDigit 16 character = true ∧
        Numeral.value 16 (figures ++ [character]) < 2 ^ 32 := by
  rw [codeState, overflows, Bool.and_eq_true, beq_iff_eq, bne_iff_ne,
    ofNat_eq_maxValue_iff]
  apply and_congr_right
  intro _
  cases found : hexValue? character with
  | none =>
      have noDigit : ¬ isDigit 16 character = true := by
        simp [isDigit_sixteen_iff, found]
      simp [digitStep, found, noDigit]
  | some digit =>
      have isDigit := isDigit_sixteen_iff.mpr ⟨digit, found⟩
      rw [value_concat found]
      simp [digitStep, found, isDigit]

theorem Begun.exists_code_of_overflows {part : List Char} {state : State}
    {character : Char} (begun : Begun part state)
    (full : overflows state character = true) :
    ∃ figures, part = '\\' :: 'u' :: '{' :: figures ∧ Code figures ∧
      digitCount figures % 2 ^ 32 = 2 ^ 31 - 1 ∧
      isDigit 16 character = true := by
  cases begun with
  | code code _ =>
      obtain ⟨largest, isDigit, _⟩ := overflows_codeState_iff.mp full
      exact ⟨_, rfl, code, largest, isDigit⟩
  | plain => cases full
  | escape => cases full
  | byte => cases full
  | brace => cases full

/-- A hexadecimal digit, and then hexadecimal digits and underscores. -/
def PlainCode (text : List Char) : Prop :=
  ∃ first rest, text = first :: rest ∧ isDigit 16 first = true ∧
    ∀ character ∈ rest, isDigit 16 character = true ∨ character = '_'

theorem PlainCode.concat {text : List Char} {character : Char}
    (plain : PlainCode text)
    (allowed : isDigit 16 character = true ∨ character = '_') :
    PlainCode (text ++ [character]) := by
  obtain ⟨first, rest, rfl, isDigit, others⟩ := plain
  refine ⟨first, rest ++ [character], rfl, isDigit, ?_⟩
  exact List.forall_mem_append.mpr ⟨others,
    List.forall_mem_singleton.mpr allowed⟩

theorem Code.plainCode {text : List Char} (code : Code text)
    (nonempty : text ≠ []) : PlainCode text := by
  induction code with
  | nil => exact absurd rfl nonempty
  | @digit text character _ isDigit induction =>
      by_cases first : text = []
      · subst first
        exact ⟨character, [], rfl, isDigit, nofun⟩
      · exact (induction first).concat (.inl isDigit)
  | @underscore text _ counts induction =>
      have behind : text ≠ [] := by
        rintro rfl
        exact not_counts_zero counts
      exact (induction behind).concat (.inr rfl)

theorem PlainCode.digitCount_pos {text : List Char} (plain : PlainCode text) :
    0 < digitCount text := by
  obtain ⟨first, rest, rfl, isDigit, _⟩ := plain
  exact List.countP_pos_iff.mpr ⟨first, List.mem_cons_self, isDigit⟩

/-- Up to `2 ^ 31` digits the count is positive wherever it is asked for. -/
theorem PlainCode.code {text : List Char} (plain : PlainCode text)
    (few : digitCount text < 2 ^ 31) : Code text := by
  obtain ⟨first, rest, rfl, isDigit, allowed⟩ := plain
  induction rest using List.reverseRecOn with
  | nil => exact Code.nil.digit isDigit
  | append_singleton rest character induction =>
      obtain ⟨others, last⟩ := List.forall_mem_append.mp allowed
      have before : PlainCode (first :: rest) :=
        ⟨first, rest, rfl, isDigit, others⟩
      rw [← List.cons_append] at few ⊢
      rcases last character List.mem_cons_self with digit | rfl
      · rw [digitCount_concat_digit digit] at few
        exact (induction (by omega) others).digit digit
      · rw [digitCount_concat_underscore] at few
        exact (induction few others).underscore
          (counts_of_few before.digitCount_pos few)

theorem code_iff_plainCode {text : List Char} (few : digitCount text < 2 ^ 31) :
    Code text ∧ Counts (digitCount text) ↔ PlainCode text := by
  constructor
  · rintro ⟨code, counts⟩
    apply code.plainCode
    rintro rfl
    exact not_counts_zero counts
  · intro plain
    exact ⟨plain.code few, counts_of_few plain.digitCount_pos few⟩

theorem code_zeros (number : Nat) : Code (List.replicate number '0') := by
  induction number with
  | zero => exact .nil
  | succ number induction =>
      rw [List.replicate_succ']
      exact induction.digit (by decide)

theorem digitCount_zeros (number : Nat) :
    digitCount (List.replicate number '0') = number := by
  have digit : isDigit 16 '0' = true := by decide
  simp [digitCount, List.countP_replicate, digit]

theorem value_zeros (number : Nat) :
    Numeral.value 16 (List.replicate number '0') = 0 := by
  induction number with
  | zero => rfl
  | succ number induction =>
      have zero : hexValue? '0' = some 0 := by decide
      rw [List.replicate_succ', value_concat zero, induction]

/-- Every code within the text has fewer than `2 ^ 31` digits. -/
def FewDigits (text : List Char) : Prop :=
  ∀ figures, '\\' :: 'u' :: '{' :: figures <:+: text → Code figures →
    digitCount figures < 2 ^ 31

theorem FewDigits.overflows_eq_false {text part : List Char} {state : State}
    {character : Char} (few : FewDigits text) (begun : Begun part state)
    (inside : part ++ [character] <:+: text) :
    overflows state character = false := by
  rw [Bool.eq_false_iff]
  intro full
  obtain ⟨figures, rfl, code, largest, isDigit⟩ :=
    begun.exists_code_of_overflows full
  have bound := few (figures ++ [character]) inside (code.digit isDigit)
  rw [digitCount_concat_digit isDigit] at bound
  omega

/-- Reading from the start of an item ends at the close of the literal, at a
broken item or at the end of the text.  The items before and the item begun are
the invariant. -/
theorem exists_of_begun {items part : List Char} {bytes : List UInt8}
    {state : State} (complete : Items items bytes) (begun : Begun part state)
    (rest : List Char) :
    (∃ body total behind, Items body total ∧
      items ++ part ++ rest = body ++ '"' :: behind) ∨
    (∃ literal behind, Malformed ('"' :: literal) behind ∧
      items ++ part ++ rest = literal ++ behind) := by
  induction rest generalizing items part bytes state with
  | nil => exact .inr ⟨items ++ part, [], .unclosed complete begun, rfl⟩
  | cons character rest induction =>
      have effect := begun.effect character
      generalize step state character = outcome at effect
      cases effect with
      | close empty quote =>
          subst empty quote
          exact .inl ⟨items, bytes, rest, complete, by simp⟩
      | breaks broken =>
          exact .inr ⟨items ++ (part ++ [character]), rest,
            .broken complete broken, by simp⟩
      | complete item =>
          simpa using induction (complete.concat item) .plain
      | extend longer =>
          simpa using induction complete longer

theorem written_or_malformed (text : List Char) :
    (∃ bytes literal behind, '"' :: text = literal ++ behind ∧
      Written bytes literal) ∨
    (∃ literal behind, '"' :: text = literal ++ behind ∧
      Malformed literal behind) := by
  rcases exists_of_begun .nil .plain text with
    ⟨body, bytes, behind, items, whole⟩ | ⟨literal, behind, malformed, whole⟩
  · left
    refine ⟨bytes, _, behind, ?_, .mk items⟩
    simpa using whole
  · right
    refine ⟨_, behind, ?_, malformed⟩
    simpa using whole

theorem scan_of_written {bytes : List UInt8} {body : List Char}
    (written : Written bytes ('"' :: body)) (behind : List Char) :
    scan (body ++ behind) = ⟨.string bytes, '"' :: body⟩ := by
  cases written with
  | @mk items _ complete =>
      have read :
          scanFrom .plain (items ++ '"' :: behind) =
            (some bytes, items ++ ['"']) := by
        rw [complete.reads, scanFrom_of_close rfl]
        simp
      have whole : (items ++ ['"']) ++ behind = items ++ '"' :: behind := by
        simp
      unfold scan
      rw [whole, read]

theorem Broken.exists_refuse {part : List Char} (broken : Broken part) :
    ∃ front character state, part = front ++ [character] ∧ Begun front state ∧
      step state character = .refuse := by
  cases broken with
  | @control character control =>
      have notQuote : character ≠ '"' := by
        rintro rfl
        cases control
      have notEscape : character ≠ '\\' := by
        rintro rfl
        cases control
      exact ⟨[], character, .plain, rfl, .plain,
        by simp [step, notQuote, notEscape, control]⟩
  | @escape character unnamed notCode missing =>
      exact ⟨['\\'], character, .escape, rfl, .escape,
        by simp [step, unnamed, notCode, missing]⟩
  | @byte first second high found missing =>
      exact ⟨['\\', first], second, .byte high, rfl, .byte found,
        by simp [step, missing]⟩
  | @brace character closed =>
      exact ⟨['\\', 'u'], character, .brace, rfl, .brace,
        by simp [step, closed]⟩
  | @figure figures character code small missing uncounted =>
      exact ⟨_, character, _, rfl, .code code small,
        step_codeState_of_refused missing uncounted⟩
  | @large figures character code small isDigit large =>
      obtain ⟨digit, found⟩ := isDigit_sixteen_iff.mp isDigit
      refine ⟨_, character, _, rfl, .code code small, ?_⟩
      rw [step_codeState_of_hexValue? found, if_neg (Nat.not_lt_of_le large)]
  | @scalar figures code small counts invalid =>
      refine ⟨_, '}', _, rfl, .code code small, ?_⟩
      rw [step_codeState_of_close counts, if_neg invalid]

theorem scan_of_malformed {body behind : List Char}
    (malformed : Malformed ('"' :: body) behind) :
    scan (body ++ behind) = .unknown ('"' :: body) := by
  cases malformed with
  | @broken items part _ bytes complete broken =>
      obtain ⟨front, character, state, rfl, begun, refuses⟩ :=
        broken.exists_refuse
      have read : scanFrom .plain (items ++ front ++ character :: behind) =
          (none, items ++ front ++ [character]) := by
        rw [complete.reads.append begun.reads, scanFrom_of_refuse refuses]
        rfl
      have whole : (items ++ (front ++ [character])) ++ behind =
          items ++ front ++ character :: behind := by simp
      unfold scan
      rw [whole, read]
      simp
  | @unclosed items part bytes state complete begun =>
      have read :
          scanFrom .plain (items ++ part ++ []) =
            (none, items ++ part ++ []) := by
        rw [complete.reads.append begun.reads, scanFrom]
        rfl
      unfold scan
      rw [read]
      simp

end Wasm.Text.StringLiteral
