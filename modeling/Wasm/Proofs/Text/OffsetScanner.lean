import Mathlib.Data.String.Basic
import Wasm.Proofs.Text.Lexemes

/-!
# Lexing by byte offsets

The lexer can be run on nothing but a byte offset into its source.  Every
character is then had by slicing the source, and a slice fails where an offset
lies within a character or out of order.  A loop that does not move on fails as
well, and so does a checked addition that overflows.  No slice and no loop of
such a scan fails, and the scan finds what the lexer finds.
-/

namespace Wasm.Text.OffsetScanner

/-! ## Slices -/

/-- The parts of a text before and behind a byte offset, if it lies between two
characters. -/
def splitAt? (offset : Nat) : List Char → Option (List Char × List Char)
  | [] => if offset = 0 then some ([], []) else none
  | character :: text =>
      if offset = 0 then
        some ([], character :: text)
      else if offset < character.utf8Size then
        none
      else
        (splitAt? (offset - character.utf8Size) text).map fun (front, rest) =>
          (character :: front, rest)

/-- The text between two byte offsets, if both lie between characters and are in
order. -/
def slice? (source : List Char) (start stop : Nat) : Option (List Char) :=
  if start ≤ stop then
    (splitAt? start source).bind fun (_, rest) =>
      (splitAt? (stop - start) rest).map Prod.fst
  else
    none

theorem append_of_splitAt? {offset : Nat} {text front rest : List Char}
    (found : splitAt? offset text = some (front, rest)) :
    text = front ++ rest ∧ String.utf8Len front = offset := by
  induction text generalizing offset front with
  | nil =>
      rw [splitAt?] at found
      split at found
      · rename_i start
        cases found
        exact ⟨rfl, start.symm⟩
      · cases found
  | cons character text induction =>
      rw [splitAt?] at found
      split at found
      · rename_i start
        cases found
        exact ⟨rfl, start.symm⟩
      · split at found
        · cases found
        · rename_i large
          obtain ⟨⟨inner, behind⟩, innerFound, same⟩ :=
            Option.map_eq_some_iff.mp found
          cases same
          obtain ⟨rfl, length⟩ := induction innerFound
          refine ⟨rfl, ?_⟩
          rw [String.utf8Len_cons]
          omega

theorem splitAt?_append (front rest : List Char) :
    splitAt? (String.utf8Len front) (front ++ rest) = some (front, rest) := by
  induction front with
  | nil => cases rest <;> rfl
  | cons character front induction =>
      have positive := character.utf8Size_pos
      have behindStart : ¬ String.utf8Len (character :: front) = 0 := by
        rw [String.utf8Len_cons]
        omega
      have behindFirst :
          ¬ String.utf8Len (character :: front) < character.utf8Size := by
        rw [String.utf8Len_cons]
        omega
      rw [List.cons_append, splitAt?, if_neg behindStart, if_neg behindFirst,
        String.utf8Len_cons, Nat.add_sub_cancel, induction]
      rfl

theorem splitAt?_eq_some_iff {offset : Nat} {text front rest : List Char} :
    splitAt? offset text = some (front, rest) ↔
      text = front ++ rest ∧ String.utf8Len front = offset := by
  constructor
  · exact append_of_splitAt?
  · rintro ⟨rfl, rfl⟩
    exact splitAt?_append front rest

theorem slice?_append (front text behind : List Char) :
    slice? (front ++ (text ++ behind)) (String.utf8Len front)
      (String.utf8Len (front ++ text)) =
      some text := by
  have before : splitAt? (String.utf8Len front) (front ++ (text ++ behind)) =
      some (front, text ++ behind) := splitAt?_append ..
  have inside :
      splitAt? (String.utf8Len text) (text ++ behind) = some (text, behind) :=
    splitAt?_append ..
  have ordered :
      String.utf8Len front ≤ String.utf8Len front + String.utf8Len text :=
    Nat.le_add_right ..
  simp only [slice?, before, Option.bind_some, String.utf8Len_append,
    if_pos ordered, Nat.add_sub_cancel_left, inside, Option.map_some]

/-! ## The scan -/

/-- Where a scan stands. -/
structure Place where
  /-- Byte offset of the next character. -/
  position : Nat
  /-- Whether unknown text has been met. -/
  halted : Bool
deriving DecidableEq

/-- A step of a scan.  It has no outcome if a slice fails, a loop does not move
on or a checked addition overflows. -/
abbrev Scan := StateT Place Option

/-- How the digits of a code are counted: in a number that wraps around, or by
checked additions. -/
inductive Counting where
  | wrapping
  | checked
deriving DecidableEq

/-- What a turn of a loop comes to. -/
inductive Turn (σ α : Type) where
  | again (state : σ)
  | done (value : α)

section Steps

variable (source : List Char)

/-- The next character, from the source behind the position. -/
def peek : Scan (Option Char) := do
  let place ← get
  let (_, rest) ← splitAt? place.position source
  pure rest.head?

/-- The next character, which is passed. -/
def advance : Scan (Option Char) := do
  let next ← peek source
  match next with
  | none => pure none
  | some character =>
      modify fun place =>
        { place with position := place.position + character.utf8Size }
      pure (some character)

/-- The source from an offset to the position. -/
def sliceFrom (start : Nat) : Scan (List Char) := do
  let place ← get
  slice? source start place.position

/-- Stops the lexer on the text from an offset to the position. -/
def halt (start : Nat) : Scan Token := do
  let text ← sliceFrom source start
  modify fun place => { place with halted := true }
  pure (.unknown (String.ofList text))

/-- Takes turns until one is done.  Each of the others has to move on within the
source. -/
def loop {σ α : Type} (turn : σ → Scan (Turn σ α)) (state : σ) (place : Place) :
    Option (α × Place) :=
  match turn state place with
  | none => none
  | some (.done value, after) => some (value, after)
  | some (.again next, after) =>
      if place.position < after.position ∧
        after.position ≤ String.utf8Len source then
        loop turn next after
      else
        none
termination_by String.utf8Len source - place.position
decreasing_by omega

/-- Passes characters of a kind. -/
def skipWhile (kind : Char → Bool) : Scan Unit :=
  loop source (fun _ => do
    let next ← peek source
    if next.any kind then
      let _ ← advance source
      pure (.again ())
    else
      pure (.done ())) ()

/-- Passes a block comment up to its end, if it has one. -/
def skipBlock : Scan Bool :=
  loop source (fun _ => do
    let next ← advance source
    match next with
    | none => pure (.done false)
    | some character =>
        let following ← peek source
        if character = ';' ∧ following = some ')' then
          let _ ← advance source
          pure (.done true)
        else
          pure (.again ())) ()

/-- Reads a keyword that starts at an offset. -/
def keyword (start : Nat) : Scan Token := do
  skipWhile source isIdentifier
  let text ← sliceFrom source start
  pure (.keyword (String.ofList text))

/-- Passes digits and adds them to a number.  An underscore is passed on trial
and is kept only before a digit. -/
def digits (radix : Nat) : Nat → Scan Nat :=
  loop source fun total => do
    let next ← peek source
    match next with
    | none => pure (.done total)
    | some character =>
        match digitValue? radix character with
        | some digit =>
            let _ ← advance source
            pure (.again (total * radix + digit))
        | none =>
            if character = '_' then
              let before ← get
              let _ ← advance source
              let following ← peek source
              if following.any (isDigit radix) then
                pure (.again total)
              else
                set before
                pure (.done total)
            else
              pure (.done total)

/-- Reads the digits of a numeral that starts at an offset. -/
def figures (start radix : Nat) : Scan Token := do
  let number ← digits source radix 0
  if number < 0x10000000000000000 then
    pure (.unsigned (UInt64.ofNat number))
  else
    halt source start

/-- Passes `0x` and tells whether a hexadecimal digit follows. -/
def marksHexadecimal : Scan Bool := do
  let first ← advance source
  if first = some '0' then
    let second ← advance source
    if second = some 'x' then
      let third ← peek source
      pure (third.any (isDigit 16))
    else
      pure false
  else
    pure false

/-- Reads a numeral that starts at an offset.  The hexadecimal mark is passed on
trial. -/
def numeral (start : Nat) : Scan Token := do
  let before ← get
  let hexadecimal ← marksHexadecimal source
  if hexadecimal then
    figures source start 16
  else
    set before
    figures source start 10

variable (counting : Counting)

/-- Reads the rest of a string literal that starts at an offset. -/
def literal (start : Nat) :
    StringLiteral.State × List UInt8 → Scan Token :=
  loop source fun (state, bytes) => do
    let next ← advance source
    match next with
    | none => .done <$> halt source start
    | some character =>
        if counting = .checked ∧ StringLiteral.overflows state character then
          failure
        else
          match StringLiteral.step state character with
          | .close => pure (.done (.string bytes))
          | .refuse => .done <$> halt source start
          | .go more following => pure (.again (following, bytes ++ more))

/-- Reads the token at the position, which no trivia starts. -/
def token (character : Char) : Scan Token := do
  let place ← get
  let start := place.position
  if character = ')' then
    let _ ← advance source
    pure .rightParen
  else if character = '"' then
    let _ ← advance source
    literal source counting start (.plain, [])
  else if isDigit 10 character then
    numeral source start
  else if isIdentifier character then
    keyword source start
  else
    let _ ← advance source
    halt source start

/-- Passes trivia and reads the token behind it. -/
def scan : Scan (Option Token) :=
  loop source (fun _ => do
    let place ← get
    let start := place.position
    let next ← peek source
    match next with
    | none => pure (.done none)
    | some character =>
        if isBlank character then
          let _ ← advance source
          pure (.again ())
        else if character = ';' then
          let _ ← advance source
          let following ← peek source
          if following = some ';' then
            skipWhile source (· != '\n')
            pure (.again ())
          else
            (.done ∘ some) <$> halt source start
        else if character = '(' then
          let _ ← advance source
          let following ← peek source
          if following = some ';' then
            let _ ← advance source
            let closed ← skipBlock source
            if closed then
              pure (.again ())
            else
              (.done ∘ some) <$> halt source start
          else
            pure (.done (some .leftParen))
        else
          (.done ∘ some) <$> token source counting character) ()

/-- Reads the next token, if there is one. -/
def next : Scan (Option Token) := do
  let place ← get
  if place.halted then
    pure none
  else
    scan source counting

/-- Makes a number of calls. -/
def calls : Nat → Scan (List (Option Token))
  | 0 => pure []
  | count + 1 => do
      let answers ← calls count
      let answer ← next source counting
      pure (answers ++ [answer])

end Steps

/-! ## What the steps do -/

section Monad

variable {α β : Type} {place after : Place}

theorem bind_of_some {first : Scan α} {second : α → Scan β} {value : α}
    (ran : first place = some (value, after)) :
    (first >>= second) place = second value after := by
  change (first place).bind _ = _
  rw [ran]
  rfl

theorem bind_of_none {first : Scan α} (failed : first place = none)
    (second : α → Scan β) : (first >>= second) place = none := by
  change (first place).bind _ = _
  rw [failed]
  rfl

theorem map_of_some {scan : Scan α} {value : α}
    (ran : scan place = some (value, after)) (convert : α → β) :
    (convert <$> scan) place = some (convert value, after) := by
  change (scan place).bind _ = _
  rw [ran]
  rfl

theorem map_of_none {scan : Scan α} (failed : scan place = none)
    (convert : α → β) : (convert <$> scan) place = none := by
  change (scan place).bind _ = _
  rw [failed]
  rfl

theorem get_bind (second : Place → Scan β) :
    (get >>= second) place = second place place :=
  bind_of_some rfl

end Monad

/-- The place behind a text that starts at a place. -/
def Place.behind (place : Place) (text : List Char) : Place :=
  { place with position := place.position + String.utf8Len text }

theorem Place.behind_append (place : Place) (text more : List Char) :
    place.behind (text ++ more) = (place.behind text).behind more := by
  simp [behind, Nat.add_assoc]

theorem Place.behind_cons (place : Place) (character : Char)
    (text : List Char) :
    place.behind (character :: text) = (place.behind [character]).behind text :=
  place.behind_append [character] text

/-- The token of a lexeme that starts at a place, and the place behind it. -/
def Place.reading (place : Place) (lexeme : Lexeme) : Token × Place :=
  (lexeme.token, { place.behind lexeme.text with
    halted := lexeme.token.isUnknown })

theorem Place.reading_of_known {place : Place} {lexeme : Lexeme}
    (running : place.halted = false) (known : lexeme.token.isUnknown = false) :
    place.reading lexeme = (lexeme.token, place.behind lexeme.text) := by
  rw [reading, known, ← running]
  rfl

/-- The text that stands behind a place of a source, which lies between two
characters. -/
def Ahead (source : List Char) (place : Place) (text : List Char) : Prop :=
  ∃ front, source = front ++ text ∧ String.utf8Len front = place.position

section Behaviour

variable {source : List Char} {place : Place}

theorem Ahead.behind {text more : List Char}
    (ahead : Ahead source place (text ++ more)) :
    Ahead source (place.behind text) more := by
  obtain ⟨front, whole, start⟩ := ahead
  refine ⟨front ++ text, ?_, ?_⟩
  · rw [whole, List.append_assoc]
  · rw [String.utf8Len_append, start]
    rfl

theorem Ahead.singleton_append {character : Char} {rest : List Char}
    (ahead : Ahead source place (character :: rest)) :
    Ahead source place ([character] ++ rest) := ahead

theorem Ahead.tail {character : Char} {rest : List Char}
    (ahead : Ahead source place (character :: rest)) :
    Ahead source (place.behind [character]) rest :=
  ahead.singleton_append.behind

theorem peek_eq {text : List Char} (ahead : Ahead source place text) :
    peek source place = some (text.head?, place) := by
  obtain ⟨front, whole, start⟩ := ahead
  have split := splitAt?_eq_some_iff.mpr ⟨whole, start⟩
  change ((splitAt? place.position source).bind fun result =>
    some (result, place)).bind _ = _
  rw [split]
  rfl

theorem advance_nil (ahead : Ahead source place []) :
    advance source place = some (none, place) :=
  bind_of_some (peek_eq ahead)

theorem advance_cons {character : Char} {rest : List Char}
    (ahead : Ahead source place (character :: rest)) :
    advance source place = some (some character, place.behind [character]) := by
  refine (bind_of_some (peek_eq ahead)).trans ?_
  simp only [List.head?_cons, Place.behind, String.utf8Len_cons,
    String.utf8Len_nil, Nat.zero_add]
  rfl

/-- A turn that looks at the next character, and is told where it is. -/
theorem get_peek_bind {text : List Char} (ahead : Ahead source place text)
    {second : Place → Option Char → Scan β} :
    (get >>= fun start => peek source >>= second start) place =
      second place text.head? place :=
  (get_bind _).trans (bind_of_some (peek_eq ahead))

/-- A turn that passes a character and looks at the one behind it. -/
theorem advance_peek_bind {character : Char} {rest : List Char}
    (ahead : Ahead source place (character :: rest))
    {second : Option Char → Option Char → Scan β} :
    (advance source >>= fun passed => peek source >>= second passed) place =
      second (some character) rest.head? (place.behind [character]) :=
  (bind_of_some (advance_cons ahead)).trans (bind_of_some (peek_eq ahead.tail))

theorem sliceFrom_behind {text more : List Char}
    (ahead : Ahead source place (text ++ more)) :
    sliceFrom source place.position (place.behind text) =
      some (text, place.behind text) := by
  obtain ⟨front, rfl, start⟩ := ahead
  have stop :
      (place.behind text).position = String.utf8Len (front ++ text) := by
    rw [String.utf8Len_append, start]
    rfl
  change ((slice? _ place.position (place.behind text).position).bind
    fun result =>
    some (result, place.behind text)) = _
  rw [stop, ← start, slice?_append]
  rfl

theorem halt_behind {text more : List Char}
    (ahead : Ahead source place (text ++ more)) :
    halt source place.position (place.behind text) =
      some (place.reading (.unknown text)) :=
  bind_of_some (sliceFrom_behind ahead)

theorem loop_of_done {σ α : Type} {turn : σ → Scan (Turn σ α)} {state : σ}
    {value : α} {after : Place}
    (ran : turn state place = some (.done value, after)) :
    loop source turn state place = some (value, after) := by
  rw [loop, ran]

theorem loop_of_none {σ α : Type} {turn : σ → Scan (Turn σ α)} {state : σ}
    (failed : turn state place = none) :
    loop source turn state place = none := by
  rw [loop, failed]

theorem loop_of_again {σ α : Type} {turn : σ → Scan (Turn σ α)} {state next : σ}
    {text more : List Char} (ahead : Ahead source place (text ++ more))
    (moves : text ≠ [])
    (ran : turn state place = some (.again next, place.behind text)) :
    loop source turn state place =
      loop source turn next (place.behind text) := by
  have within : place.position < (place.behind text).position ∧
      (place.behind text).position ≤ String.utf8Len source := by
    obtain ⟨front, rfl, start⟩ := ahead
    have positive : String.utf8Len text ≠ 0 :=
      mt String.utf8Len_eq_zero.mp moves
    simp only [Place.behind, String.utf8Len_append]
    omega
  conv_lhs => rw [loop, ran]
  simp only [if_pos within]

theorem skipWhile_eq (kind : Char → Bool) {text : List Char}
    (ahead : Ahead source place text) :
    skipWhile source kind place =
      some ((), place.behind (text.takeWhile kind)) := by
  induction text generalizing place with
  | nil => exact loop_of_done (bind_of_some (peek_eq ahead))
  | cons character rest induction =>
      cases fits : kind character with
      | false =>
          rw [List.takeWhile_cons_of_neg (by simp [fits])]
          apply loop_of_done
          refine (bind_of_some (peek_eq ahead)).trans ?_
          simp only [List.head?_cons, Option.any_some, fits]
          rfl
      | true =>
          rw [List.takeWhile_cons_of_pos fits, Place.behind_cons,
            ← induction ahead.tail]
          apply loop_of_again ahead.singleton_append (List.cons_ne_nil _ _)
          refine (bind_of_some (peek_eq ahead)).trans ?_
          simp only [List.head?_cons, Option.any_some, fits, if_true]
          exact bind_of_some (advance_cons ahead)

theorem skipBlock_eq {text : List Char} (ahead : Ahead source place text) :
    skipBlock source place =
      match Trivia.throughBlockEnd? text with
      | some body => some (true, place.behind body)
      | none => some (false, place.behind text) := by
  induction text generalizing place with
  | nil => exact loop_of_done (bind_of_some (advance_nil ahead))
  | cons character rest induction =>
      by_cases closes : Trivia.blockEnd <+: character :: rest
      · obtain ⟨behind, rfl, rfl⟩ := closes
        refine (loop_of_done ((bind_of_some (advance_cons ahead)).trans
          ((bind_of_some (peek_eq ahead.tail)).trans
            (bind_of_some (advance_cons ahead.tail))))).trans ?_
        rw [← Place.behind_append]
        rfl
      · have unclosed : ¬ (character = ';' ∧ rest.head? = some ')') :=
          mt Trivia.blockEnd_prefix_cons_iff.mpr closes
        have again :
            skipBlock source place =
              skipBlock source (place.behind [character]) := by
          apply loop_of_again ahead.singleton_append (List.cons_ne_nil _ _)
          refine (bind_of_some (advance_cons ahead)).trans
            ((bind_of_some (peek_eq ahead.tail)).trans ?_)
          rw [if_neg unclosed]
          rfl
        rw [again, induction ahead.tail, Trivia.throughBlockEnd?_cons closes]
        cases Trivia.throughBlockEnd? rest with
        | none => simp only [Option.map_none, place.behind_cons character rest]
        | some body =>
            simp only [Option.map_some, place.behind_cons character body]

end Behaviour

end Wasm.Text.OffsetScanner
