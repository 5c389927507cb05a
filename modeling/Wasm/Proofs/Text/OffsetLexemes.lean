import Wasm.Proofs.Text.OffsetScanner

/-!
# Lexemes at byte offsets

Each step of a scan by byte offsets passes the lexeme or the trivia that stands
at the place.  No slice fails on the way, neither where a step is tried and
taken back nor where it stops.
-/

namespace Wasm.Text.OffsetScanner

section Behaviour

variable {source : List Char} {place : Place}

theorem keyword_eq {text : List Char} (running : place.halted = false)
    (ahead : Ahead source place text) :
    keyword source place.position place =
      some (place.reading
        ⟨.keyword (String.ofList (text.takeWhile isIdentifier)),
          text.takeWhile isIdentifier⟩) := by
  have parts :
      text = text.takeWhile isIdentifier ++ text.dropWhile isIdentifier :=
    List.takeWhile_append_dropWhile.symm
  rw [Place.reading_of_known running rfl]
  refine (bind_of_some (skipWhile_eq isIdentifier ahead)).trans ?_
  rw [parts] at ahead
  exact bind_of_some (sliceFrom_behind ahead)

section Digits

variable {radix : Nat} {character : Char} {rest : List Char}

theorem digits_of_figure {digit : Nat} (total : Nat)
    (ahead : Ahead source place (character :: rest))
    (figure : digitValue? radix character = some digit) :
    digits source radix total place =
      digits source radix (total * radix + digit)
        (place.behind [character]) := by
  apply loop_of_again ahead.singleton_append (List.cons_ne_nil _ _)
  refine (bind_of_some (peek_eq ahead)).trans ?_
  simp only [List.head?_cons, figure]
  exact bind_of_some (advance_cons ahead)

theorem digits_of_underscore (total : Nat)
    (ahead : Ahead source place ('_' :: rest))
    (noFigure : digitValue? radix '_' = none)
    (follows : rest.head?.any (Text.isDigit radix) = true) :
    digits source radix total place =
      digits source radix total (place.behind ['_']) := by
  apply loop_of_again ahead.singleton_append (List.cons_ne_nil _ _)
  refine (bind_of_some (peek_eq ahead)).trans ?_
  simp only [List.head?_cons, noFigure, if_true]
  refine (get_bind _).trans ((advance_peek_bind ahead).trans ?_)
  rw [follows]
  rfl

/-- Where the digits end, an underscore that has been passed on trial is taken
back. -/
theorem digits_of_stop (total : Nat) {text : List Char}
    (ahead : Ahead source place text) (ended : ¬ Numeral.Continues radix text) :
    digits source radix total place = some (total, place) := by
  apply loop_of_done
  refine (bind_of_some (peek_eq ahead)).trans ?_
  cases text with
  | nil => rfl
  | cons character rest =>
      rw [Numeral.continues_cons_iff, Bool.not_eq_true,
        Bool.or_eq_false_iff] at ended
      have noFigure : digitValue? radix character = none := by
        simpa [isDigit] using ended.1
      simp only [List.head?_cons, noFigure]
      by_cases underscore : character = '_'
      · subst underscore
        have alone : rest.head?.any (Text.isDigit radix) = false := by
          simpa using ended.2
        simp only [if_true]
        refine (get_bind _).trans ((advance_peek_bind ahead).trans ?_)
        rw [alone]
        rfl
      · simp only [if_neg underscore]
        rfl

end Digits

theorem digits_eq (radix total : Nat) {text : List Char}
    (ahead : Ahead source place text) :
    digits source radix total place =
      some (((Numeral.digits radix text).filterMap (digitValue? radix)).foldl
          (fun total digit => total * radix + digit) total,
        place.behind (Numeral.digits radix text)) := by
  induction text generalizing place total with
  | nil => exact digits_of_stop total ahead (Numeral.not_continues_nil radix)
  | cons character rest induction =>
      by_cases continues : Numeral.Continues radix (character :: rest)
      · rw [Numeral.digits_of_continues continues, Place.behind_cons]
        cases figure : digitValue? radix character with
        | some digit =>
            rw [digits_of_figure total ahead figure, induction _ ahead.tail,
              List.filterMap_cons_some figure, List.foldl_cons]
        | none =>
            rw [Numeral.continues_cons_iff, isDigit, figure] at continues
            obtain ⟨rfl, follows⟩ :
                character = '_' ∧ rest.head?.any (Text.isDigit radix) =
                  true := by
              simpa using continues
            rw [digits_of_underscore total ahead figure follows,
              induction _ ahead.tail, List.filterMap_cons_none figure]
      · rw [digits_of_stop total ahead continues,
          Numeral.digits_of_not_continues continues]
        rfl

theorem figures_eq (radix : Nat) {mark rest : List Char}
    (running : place.halted = false) (ahead : Ahead source place (mark ++ rest))
    (marked : Numeral.radixMark (mark ++ rest) = (radix, mark)) :
    figures source place.position radix (place.behind mark) =
      some (place.reading (Numeral.scan (mark ++ rest))) := by
  have bound : (2 : Nat) ^ 64 = 0x10000000000000000 := by norm_num
  rw [Numeral.scan_eq marked, List.drop_left]
  refine (bind_of_some (digits_eq radix 0 ahead.behind)).trans ?_
  rw [← Place.behind_append]
  change (if Numeral.value radix (Numeral.digits radix rest) < _ then _
    else _ : Scan Token) _ = _
  rw [bound]
  split
  · rw [Place.reading_of_known running rfl]
    rfl
  · obtain ⟨behind, whole, _⟩ := Numeral.exists_digits_append radix rest
    rw [whole, ← List.append_assoc] at ahead
    exact halt_behind ahead

theorem marksHexadecimal_cases {character : Char} {rest : List Char}
    (ahead : Ahead source place (character :: rest)) :
    (character = '0' ∧ Numeral.Marks rest ∧
        marksHexadecimal source place = some (true, place.behind ['0', 'x'])) ∨
      ¬ (character = '0' ∧ Numeral.Marks rest) ∧
        ∃ after, marksHexadecimal source place = some (false, after) := by
  have first := advance_cons ahead
  by_cases zero : character = '0'
  · subst zero
    cases rest with
    | nil =>
        have second := advance_nil ahead.tail
        refine .inr ⟨fun marked => Numeral.not_marks_nil marked.2,
          place.behind ['0'], ?_⟩
        exact (bind_of_some first).trans (bind_of_some second)
    | cons next others =>
        have second := advance_cons ahead.tail
        by_cases mark : next = 'x'
        · subst mark
          have third := peek_eq ahead.tail.tail
          have read : marksHexadecimal source place =
              some (others.head?.any (isDigit 16),
                place.behind ['0', 'x']) := by
            rw [place.behind_cons '0' ['x']]
            exact (bind_of_some first).trans
              ((bind_of_some second).trans (bind_of_some third))
          cases figure : others.head?.any (isDigit 16) with
          | true =>
              rw [figure] at read
              exact .inl ⟨rfl, Numeral.marks_cons_iff.mpr ⟨rfl, figure⟩, read⟩
          | false =>
              rw [figure] at read
              refine .inr ⟨?_, _, read⟩
              rintro ⟨_, marks⟩
              have isFigure := (Numeral.marks_cons_iff.mp marks).2
              rw [figure] at isFigure
              cases isFigure
        · refine .inr ⟨?_, (place.behind ['0']).behind [next], ?_⟩
          · rintro ⟨_, marks⟩
            exact mark (Numeral.marks_cons_iff.mp marks).1
          · refine (bind_of_some first).trans ((bind_of_some second).trans ?_)
            simp only [Option.some.injEq, if_neg mark]
            rfl
  · refine .inr ⟨fun marked => zero marked.1, place.behind [character], ?_⟩
    refine (bind_of_some first).trans ?_
    simp only [Option.some.injEq, if_neg zero]
    rfl

theorem numeral_eq {character : Char} {rest : List Char}
    (running : place.halted = false)
    (ahead : Ahead source place (character :: rest)) :
    numeral source place.position place =
      some (place.reading (Numeral.scan (character :: rest))) := by
  rcases marksHexadecimal_cases ahead with
      ⟨rfl, marks, tried⟩ | ⟨unmarked, after, tried⟩
  · refine (get_bind _).trans ((bind_of_some tried).trans ?_)
    have mark := Numeral.radixMark_of_marks marks
    obtain ⟨figure, others, rfl, _⟩ := marks
    exact figures_eq 16 running
      (show Ahead source place (['0', 'x'] ++ figure :: others) from ahead) mark
  · refine (get_bind _).trans ((bind_of_some tried).trans ?_)
    have plain : ∀ others, character :: rest = '0' :: others →
        ¬ Numeral.Marks others := by
      intro others same marks
      obtain ⟨rfl, rfl⟩ := List.cons.inj same
      exact unmarked ⟨rfl, marks⟩
    exact figures_eq 10 running
      (show Ahead source place ([] ++ character :: rest) from ahead)
      (Numeral.radixMark_of_not_marks plain)

section Counting

variable {counting : Counting}

/-- The lexeme of a literal, from what has been read of it and the outcome of
the rest. -/
def literalLexeme (opening : List Char) (bytes : List UInt8) :
    Option (List UInt8) × List Char → Lexeme
  | (some more, read) => ⟨.string (bytes ++ more), opening ++ read⟩
  | (none, read) => .unknown (opening ++ read)

theorem literalLexeme_concat (opening : List Char) (bytes more : List UInt8)
    (character : Char) (outcome : Option (List UInt8) × List Char) :
    literalLexeme (opening ++ [character]) (bytes ++ more) outcome =
      literalLexeme opening bytes (outcome.1.map (more ++ ·),
        character :: outcome.2) := by
  obtain ⟨_ | others, read⟩ := outcome
  · simp [literalLexeme]
  · simp [literalLexeme]

/-- The count has room for the digits of every code in the source, or wraps
around. -/
def Counting.Fits (counting : Counting) (source : List Char) : Prop :=
  counting = .checked → StringLiteral.FewDigits source

/-- A character that does not complete the literal is passed, where the count
does not overflow. -/
theorem literal_of_go {start : Nat} {character : Char}
    {rest : List Char} {state following : StringLiteral.State}
    {bytes more : List UInt8} (ahead : Ahead source place (character :: rest))
    (room : ¬ (counting = .checked ∧
      StringLiteral.overflows state character = true))
    (goes : StringLiteral.step state character = .go more following) :
    literal source counting start (state, bytes) place =
      literal source counting start (following, bytes ++ more)
        (place.behind [character]) := by
  apply loop_of_again ahead.singleton_append (List.cons_ne_nil _ _)
  refine (bind_of_some (advance_cons ahead)).trans ?_
  simp only [if_neg room, goes]
  rfl

/-- The item that has been begun is the end of what has been read.  It tells
how many digits have been counted, and so that there is room for one more. -/
theorem literal_eq {opening part text : List Char}
    {state : StringLiteral.State} (begun : StringLiteral.Begun part state)
    (ends : part <:+ opening) (bytes : List UInt8)
    (fits : counting.Fits source) (running : place.halted = false)
    (ahead : Ahead source place (opening ++ text)) :
    literal source counting place.position (state, bytes)
        (place.behind opening) =
      some (place.reading (literalLexeme opening bytes
        (StringLiteral.scanFrom state text))) := by
  induction text generalizing opening part state bytes with
  | nil =>
      rw [StringLiteral.scanFrom, literalLexeme, List.append_nil]
      apply loop_of_done
      refine (bind_of_some (advance_nil ahead.behind)).trans ?_
      exact map_of_some (halt_behind ahead) _
  | cons character rest induction =>
      have further : Ahead source place (opening ++ [character] ++ rest) := by
        rwa [List.append_assoc]
      have longer : part ++ [character] <:+ opening ++ [character] :=
        (List.suffix_append_self_iff).mpr ends
      have room : ¬ (counting = .checked ∧
          StringLiteral.overflows state character = true) := by
        rintro ⟨checked, full⟩
        obtain ⟨front, whole, _⟩ := further
        have inside : part ++ [character] <:+: source := by
          rw [whole]
          exact longer.isInfix.trans ⟨front, rest, by simp⟩
        rw [(fits checked).overflows_eq_false begun inside] at full
        cases full
      have next := advance_cons ahead.behind
      have effect := begun.effect character
      cases taken : StringLiteral.step state character with
      | close =>
          rw [StringLiteral.scanFrom_of_close taken, literalLexeme,
            List.append_nil, Place.reading_of_known running rfl,
            Place.behind_append]
          apply loop_of_done
          refine (bind_of_some next).trans ?_
          simp only [if_neg room, taken]
          rfl
      | refuse =>
          rw [← Place.behind_append] at next
          rw [StringLiteral.scanFrom_of_refuse taken]
          apply loop_of_done
          refine (bind_of_some next).trans ?_
          simp only [if_neg room, taken]
          exact map_of_some (halt_behind further) _
      | go more following =>
          rw [literal_of_go ahead.behind room taken, ← Place.behind_append,
            StringLiteral.scanFrom_of_go taken, ← literalLexeme_concat]
          rw [taken] at effect
          cases effect with
          | complete => exact induction .plain (List.nil_suffix) _ further
          | extend begun => exact induction begun longer _ further

/-- Nothing is counted before the first figure of a code. -/
theorem literal_of_mark {start : Nat} {rest : List Char} (bytes : List UInt8)
    (ahead : Ahead source place ('\\' :: 'u' :: '{' :: rest)) :
    literal source counting start (.plain, bytes) place =
      literal source counting start (.digits 0 0, bytes)
        (place.behind ['\\', 'u', '{']) := by
  have notFull : ∀ state character,
      StringLiteral.overflows state character = false →
      ¬ (counting = .checked ∧
        StringLiteral.overflows state character = true) := by
    intro state character free full
    rw [free] at full
    cases full.2
  rw [literal_of_go ahead (notFull _ _ rfl) rfl,
    literal_of_go ahead.tail (notFull _ _ rfl) rfl,
    literal_of_go ahead.tail.tail (notFull _ _ rfl) rfl,
    ← Place.behind_append, ← Place.behind_append]
  simp only [List.append_nil]
  rfl

/-- The figures of a code are passed, up to the last digit that can be
counted. -/
theorem literal_of_code {start : Nat} {figures rest : List Char}
    (code : StringLiteral.Code figures)
    (small : Numeral.value 16 figures < 2 ^ 32)
    (few : StringLiteral.digitCount figures < 2 ^ 31) (bytes : List UInt8)
    (ahead : Ahead source place (figures ++ rest)) :
    literal source counting start (.digits 0 0, bytes) place =
      literal source counting start (StringLiteral.codeState figures, bytes)
        (place.behind figures) := by
  induction code generalizing rest with
  | nil => rfl
  | @digit figures character _ isDigit induction =>
      obtain ⟨digit, found⟩ := isDigit_sixteen_iff.mp isDigit
      have goes := StringLiteral.step_codeState_of_hexValue? found figures
      rw [if_pos small] at goes
      rw [StringLiteral.value_concat found] at small
      rw [StringLiteral.digitCount_concat_digit isDigit] at few
      have room : ¬ (counting = .checked ∧
          StringLiteral.overflows (StringLiteral.codeState figures) character =
            true) := by
        rw [StringLiteral.overflows_codeState_iff]
        omega
      rw [List.append_assoc] at ahead
      rw [induction (by omega) (by omega) ahead,
        literal_of_go ahead.behind room goes, ← Place.behind_append,
        List.append_nil]
  | @underscore figures _ counts induction =>
      have goes := StringLiteral.step_codeState_of_underscore counts
      have noDigit : ¬ isDigit 16 '_' = true := by decide
      rw [Numeral.value_concat_underscore] at small
      rw [StringLiteral.digitCount_concat_underscore] at few
      have room : ¬ (counting = .checked ∧
          StringLiteral.overflows (StringLiteral.codeState figures) '_' =
            true) := by
        simp [StringLiteral.overflows_codeState_iff, noDigit]
      rw [List.append_assoc] at ahead
      rw [induction small few ahead, literal_of_go ahead.behind room goes,
        ← Place.behind_append, List.append_nil]

theorem literal_of_overflow {start : Nat} {character : Char}
    {rest : List Char} {state : StringLiteral.State} (bytes : List UInt8)
    (ahead : Ahead source place (character :: rest))
    (full : StringLiteral.overflows state character = true) :
    literal source .checked start (state, bytes) place = none := by
  apply loop_of_none
  refine (bind_of_some (advance_cons ahead)).trans ?_
  simp only [full, and_self, if_true]
  rfl

theorem token_eq {character : Char} {rest : List Char} {lexeme : Lexeme}
    (fits : counting.Fits source) (running : place.halted = false)
    (ahead : Ahead source place (character :: rest))
    (notOpening : character ≠ '(')
    (found : Lexeme.first? (character :: rest) = some lexeme) :
    token source counting character place = some (place.reading lexeme) := by
  have first := advance_cons ahead
  refine (get_bind _).trans ?_
  by_cases closing : character = ')'
  · subst closing
    cases found
    rw [if_pos rfl, Place.reading_of_known running rfl]
    exact bind_of_some first
  rw [if_neg closing]
  by_cases quote : character = '"'
  · subst quote
    cases found
    rw [if_pos rfl]
    refine (bind_of_some first).trans ?_
    have read := literal_eq .plain List.nil_suffix [] fits running
      (show Ahead source place (['"'] ++ rest) from ahead)
    rw [read, StringLiteral.scan]
    cases StringLiteral.scanFrom .plain rest with
    | mk bytes text => cases bytes <;> rfl
  rw [if_neg quote]
  rw [Lexeme.first?] at found
  · by_cases decimal : isDigit 10 character = true
    · rw [if_pos decimal] at found ⊢
      cases found
      exact numeral_eq running ahead
    rw [if_neg decimal] at found ⊢
    by_cases identifier : isIdentifier character = true
    · rw [if_pos identifier] at found ⊢
      cases found
      rw [keyword_eq running ahead, List.takeWhile_cons_of_pos identifier]
    rw [if_neg identifier] at found ⊢
    cases found
    exact (bind_of_some first).trans
      (halt_behind ahead.singleton_append)
  · exact notOpening
  · exact closing
  · exact quote

section FirstCharacter

variable {rest : List Char}

theorem scan_blank {character : Char}
    (ahead : Ahead source place (character :: rest))
    (blank : isBlank character = true) :
    scan source counting place =
      scan source counting (place.behind [character]) := by
  apply loop_of_again ahead.singleton_append (List.cons_ne_nil _ _)
  refine (get_peek_bind ahead).trans ?_
  simp only [List.head?_cons, blank, if_true]
  exact bind_of_some (advance_cons ahead)

theorem scan_lineComment (ahead : Ahead source place (';' :: rest))
    (comment : rest.head? = some ';') :
    scan source counting place =
      scan source counting
        (place.behind (';' :: rest.takeWhile (· != '\n'))) := by
  have whole : Ahead source place
      (';' :: rest.takeWhile (· != '\n') ++ rest.dropWhile (· != '\n')) := by
    rwa [List.cons_append, List.takeWhile_append_dropWhile]
  have skipped := skipWhile_eq (· != '\n') ahead.tail
  rw [← Place.behind_cons] at skipped
  apply loop_of_again whole (List.cons_ne_nil _ _)
  refine (get_peek_bind ahead).trans ?_
  refine (advance_peek_bind ahead).trans ?_
  rw [if_pos comment]
  exact bind_of_some skipped

theorem scan_loneSemicolon (ahead : Ahead source place (';' :: rest))
    (notComment : rest.head? ≠ some ';') :
    scan source counting place =
      some (some (place.reading (.unknown [';'])).1,
        (place.reading (.unknown [';'])).2) := by
  apply loop_of_done
  refine (get_peek_bind ahead).trans ?_
  refine (advance_peek_bind ahead).trans ?_
  rw [if_neg notComment]
  exact map_of_some (halt_behind ahead.singleton_append) _

theorem scan_leftParen (ahead : Ahead source place ('(' :: rest))
    (notComment : rest.head? ≠ some ';') :
    scan source counting place =
      some (some .leftParen, place.behind ['(']) := by
  apply loop_of_done
  refine (get_peek_bind ahead).trans ?_
  refine (advance_peek_bind ahead).trans ?_
  rw [if_neg notComment]
  rfl

theorem skipBlock_behind_opening
    (ahead : Ahead source place ('(' :: ';' :: rest)) :
    skipBlock source ((place.behind ['(']).behind [';']) =
      match Trivia.throughBlockEnd? rest with
      | some body => some (true, place.behind ('(' :: ';' :: body))
      | none => some (false, place.behind ('(' :: ';' :: rest)) := by
  have whole : ∀ body, ((place.behind ['(']).behind [';']).behind body =
      place.behind ('(' :: ';' :: body) := by
    intro body
    rw [← Place.behind_cons, ← Place.behind_cons]
  rw [skipBlock_eq ahead.tail.tail]
  cases Trivia.throughBlockEnd? rest with
  | none => simp only [whole]
  | some body => simp only [whole]

theorem scan_closedComment {body : List Char}
    (ahead : Ahead source place ('(' :: ';' :: (body ++ rest)))
    (closed : Trivia.throughBlockEnd? (body ++ rest) = some body) :
    scan source counting place =
      scan source counting (place.behind ('(' :: ';' :: body)) := by
  have skipped := skipBlock_behind_opening ahead
  rw [closed] at skipped
  apply loop_of_again (show Ahead source place ('(' :: ';' :: body ++ rest) from
    ahead) (List.cons_ne_nil _ _)
  refine (get_peek_bind ahead).trans ?_
  refine (advance_peek_bind ahead).trans ?_
  exact (bind_of_some (advance_cons ahead.tail)).trans (bind_of_some skipped)

theorem scan_openComment (ahead : Ahead source place ('(' :: ';' :: rest))
    (unclosed : Trivia.throughBlockEnd? rest = none) :
    scan source counting place =
      some (some (place.reading (.unknown ('(' :: ';' :: rest))).1,
        (place.reading (.unknown ('(' :: ';' :: rest))).2) := by
  have skipped := skipBlock_behind_opening ahead
  rw [unclosed] at skipped
  have whole : Ahead source place ('(' :: ';' :: rest ++ []) := by
    rwa [List.append_nil]
  apply loop_of_done
  refine (get_peek_bind ahead).trans ?_
  refine (advance_peek_bind ahead).trans ?_
  refine (bind_of_some (advance_cons ahead.tail)).trans
    ((bind_of_some skipped).trans ?_)
  exact map_of_some (halt_behind whole) _

theorem scan_other {character : Char}
    (ahead : Ahead source place (character :: rest))
    (notBlank : isBlank character = false) (notSemicolon : character ≠ ';')
    (notOpening : character ≠ '(') {read : Token × Place}
    (found : token source counting character place = some read) :
    scan source counting place = some (some read.1, read.2) := by
  apply loop_of_done
  refine (get_peek_bind ahead).trans ?_
  simp only [List.head?_cons, notBlank, Bool.false_eq_true, if_false,
    if_neg notSemicolon, if_neg notOpening]
  exact map_of_some found _

theorem scan_of_fault {character : Char}
    (ahead : Ahead source place (character :: rest))
    (notBlank : isBlank character = false) (notSemicolon : character ≠ ';')
    (notOpening : character ≠ '(')
    (fault : token source counting character place = none) :
    scan source counting place = none := by
  apply loop_of_none
  refine (get_peek_bind ahead).trans ?_
  simp only [List.head?_cons, notBlank, Bool.false_eq_true, if_false,
    if_neg notSemicolon, if_neg notOpening]
  exact map_of_none fault _

end FirstCharacter

/-- A scan passes a blank or a comment and goes on behind it. -/
theorem scan_of_piece {piece behind : List Char}
    (ahead : Ahead source place (piece ++ behind))
    (form : Trivia.Piece piece behind) :
    scan source counting place = scan source counting (place.behind piece) := by
  cases form with
  | blank blank => exact scan_blank ahead blank
  | @line body _ inside stops =>
      have kept : ∀ character ∈ ';' :: body, (character != '\n') = true := by
        intro character member
        rcases List.mem_cons.mp member with rfl | inBody
        · rfl
        · simpa using ne_of_mem_of_not_mem inBody inside
      have passed : scan source counting place = _ := scan_lineComment
        (show Ahead source place (';' :: (';' :: body ++ behind)) from
          ahead) rfl
      rwa [takeWhile_append_of_stop kept (Trivia.endsLine_iff.mp stops)]
        at passed
  | @block body _ first =>
      exact scan_closedComment
        (show Ahead source place
          ('(' :: ';' :: (body ++ Trivia.blockEnd ++ behind)) from ahead)
        (Trivia.throughBlockEnd?_append first)

/-- A scan passes all the trivia before a text. -/
theorem scan_of_sequence {blank behind : List Char}
    (trivia : Trivia.Sequence blank behind)
    (ahead : Ahead source place (blank ++ behind)) :
    scan source counting place = scan source counting (place.behind blank) := by
  induction trivia generalizing place with
  | nil => rfl
  | cons form _ induction =>
      rw [List.append_assoc] at ahead
      rw [scan_of_piece ahead form, induction ahead.behind, Place.behind_append]

theorem isSome_first?_cons (character : Char) (rest : List Char) :
    (Lexeme.first? (character :: rest)).isSome = true := by
  unfold Lexeme.first?
  split
  · rename_i empty
    cases empty
  · split <;> rfl
  · rfl
  · rfl
  · split
    · rfl
    · split <;> rfl

/-- Where no trivia starts, a scan reads the lexeme. -/
theorem scan_of_bare {text : List Char} (ahead : Ahead source place text)
    (fits : counting.Fits source) (running : place.halted = false)
    (bare : Trivia.piece? text = none) :
    scan source counting place =
      some (match Lexeme.first? text with
        | none => (none, place)
        | some lexeme =>
            (some (place.reading lexeme).1, (place.reading lexeme).2)) := by
  cases text with
  | nil =>
      exact loop_of_done (get_peek_bind ahead)
  | cons character rest =>
      by_cases opening : character = '('
      · subst opening
        by_cases comment : rest.head? = some ';'
        · obtain ⟨body, rfl⟩ := List.head?_eq_some_iff.mp comment
          rw [Trivia.piece?, Option.map_eq_none_iff] at bare
          exact scan_openComment ahead bare
        · have read :
              place.reading ⟨.leftParen, ['(']⟩ =
                (.leftParen, place.behind ['(']) :=
            Place.reading_of_known running rfl
          rw [scan_leftParen ahead comment, Lexeme.first?, if_neg comment]
          simp only [read]
      by_cases semicolon : character = ';'
      · subst semicolon
        have notComment : rest.head? ≠ some ';' := by
          intro comment
          obtain ⟨body, rfl⟩ := List.head?_eq_some_iff.mp comment
          cases bare
        exact scan_loneSemicolon ahead notComment
      have notBlank : isBlank character = false := by
        rw [Bool.eq_false_iff]
        intro blank
        have found := Trivia.piece?_eq_some_iff.mpr
          ⟨rest, List.singleton_append.symm, .blank blank⟩
        rw [bare] at found
        cases found
      obtain ⟨lexeme, found⟩ :=
        Option.isSome_iff_exists.mp (isSome_first?_cons character rest)
      rw [found]
      exact scan_other ahead notBlank semicolon opening
        (token_eq fits running ahead opening found)

/-- Where the digits are counted by checked additions, a literal whose first
item is a code has no outcome if one of its digits is too many. -/
theorem scan_of_overflow {figures rest : List Char} {character : Char}
    (code : StringLiteral.Code figures)
    (largest : StringLiteral.digitCount figures = 2 ^ 31 - 1)
    (isDigit : Text.isDigit 16 character = true)
    (small : Numeral.value 16 (figures ++ [character]) < 2 ^ 32)
    (ahead : Ahead source place
      ('"' :: '\\' :: 'u' :: '{' :: (figures ++ character :: rest))) :
    scan source .checked place = none := by
  have full : StringLiteral.overflows (StringLiteral.codeState figures)
      character = true :=
    StringLiteral.overflows_codeState_iff.mpr
      ⟨by omega, isDigit, small⟩
  have smaller : Numeral.value 16 figures < 2 ^ 32 := by
    obtain ⟨digit, found⟩ := isDigit_sixteen_iff.mp isDigit
    rw [StringLiteral.value_concat found] at small
    omega
  have inside : Ahead source ((place.behind ['"']).behind ['\\', 'u', '{'])
      (figures ++ character :: rest) :=
    (show Ahead source (place.behind ['"'])
      (['\\', 'u', '{'] ++ (figures ++ character :: rest))
      from ahead.tail).behind
  apply scan_of_fault ahead rfl (by decide) (by decide)
  refine (get_bind _).trans ?_
  rw [if_neg (by decide), if_pos rfl]
  refine (bind_of_some (advance_cons ahead)).trans ?_
  rw [literal_of_mark [] ahead.tail,
    literal_of_code code smaller (by omega) [] inside]
  exact literal_of_overflow [] inside.behind full

end Counting

end Behaviour

end Wasm.Text.OffsetScanner
