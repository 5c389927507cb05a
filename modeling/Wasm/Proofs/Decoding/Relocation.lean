import Mathlib.Data.List.Forall2
import Wasm.Proofs.Decoding.SequenceLaw
import Wasm.Proofs.Utf8

/-!
# Decoding at another place

The same bytes may stand at another place of an input.  Two decoders mirror each
other if the second does there what the first does here, with every offset moved
by the distance.  What their values have to do with each other is a relation:
most values are equal, but a window has moved together with the place it was
read at.
-/

namespace Wasm

/-- The same bytes in front of a cursor that stands further on. -/
def ByteCursor.moved (amount : Nat) (cursor : ByteCursor) : ByteCursor :=
  ⟨cursor.position + amount, cursor.rest⟩

/-- The same error about bytes that stand further on. -/
def DecodeError.moved (amount : Nat) : DecodeError → DecodeError
  | .unexpectedEnd => .unexpectedEnd
  | .unexpected byte location => .unexpected byte (location + amount)
  | .vectorInvalidLength length location =>
      .vectorInvalidLength length (location + amount)

def Failure.moved (amount : Nat) : Failure → Failure
  | .recoverable error => .recoverable (error.moved amount)
  | .fatal error => .fatal (error.moved amount)
  | .incomplete => .incomplete

theorem DecodeError.atCursor_moved (amount : Nat) (cursor : ByteCursor) :
    DecodeError.atCursor (cursor.moved amount) =
      (DecodeError.atCursor cursor).moved amount := by
  obtain ⟨position, input⟩ := cursor
  cases input with
  | nil => rfl
  | cons byte rest => rfl

theorem Failure.error_moved (amount : Nat) (failure : Failure) :
    (failure.moved amount).error = failure.error.moved amount := by
  cases failure <;> rfl

namespace Decoder

variable {α β : Type} {amount : Nat}

/-- Two outcomes that differ in their offsets only: both are successes that stop
before the same bytes, or both are failures of one kind. -/
inductive Moved (amount : Nat) (alike : α → α → Prop) :
    Except Failure (α × ByteCursor) → Except Failure (α × ByteCursor) →
      Prop where
  | ok {here there : α} {after : ByteCursor} :
      alike here there →
        Moved amount alike (.ok (here, after)) (.ok (there, after.moved amount))
  | error (failure : Failure) :
      Moved amount alike (.error failure) (.error (failure.moved amount))

/-- The second decoder does further on what the first one does here. -/
def Mirrors (amount : Nat) (alike : α → α → Prop) (here there : Decoder α) :
    Prop :=
  ∀ cursor, Moved amount alike (here cursor) (there (cursor.moved amount))

/-- The decoder does the same at every place and returns no position. -/
def PlaceFree (decoder : Decoder α) : Prop :=
  ∀ amount, Mirrors amount Eq decoder decoder

theorem Moved.map {alike : α → α → Prop} {other : β → β → Prop}
    {convert : α → β} {here there : Except Failure (α × ByteCursor)}
    (moved : Moved amount alike here there)
    (implies : ∀ left right, alike left right →
      other (convert left) (convert right)) :
    Moved amount other (here.map fun (value, after) => (convert value, after))
      (there.map fun (value, after) => (convert value, after)) := by
  cases moved with
  | ok like => exact .ok (implies _ _ like)
  | error failure => exact .error failure

theorem Mirrors.of_ok {alike : α → α → Prop} {here there : Decoder α}
    (mirrors : Mirrors amount alike here there) {cursor after : ByteCursor}
    {value : α} (run : here cursor = .ok (value, after)) :
    ∃ other, alike value other ∧
      there (cursor.moved amount) = .ok (other, after.moved amount) := by
  have step := mirrors cursor
  rw [run] at step
  generalize there (cursor.moved amount) = outcome at step
  cases step with
  | ok like => exact ⟨_, like, rfl⟩

theorem Mirrors.of_error {alike : α → α → Prop} {here there : Decoder α}
    (mirrors : Mirrors amount alike here there) {cursor : ByteCursor}
    {failure : Failure} (run : here cursor = .error failure) :
    there (cursor.moved amount) = .error (failure.moved amount) := by
  have step := mirrors cursor
  rw [run] at step
  generalize there (cursor.moved amount) = outcome at step
  cases step with
  | error => rfl

section Closure

variable {alike : α → α → Prop} {other : β → β → Prop} {here there : Decoder α}

theorem mirrors_pure {left right : α} (like : alike left right) :
    Mirrors amount alike (pure left) (pure right) :=
  fun _ => .ok like

theorem mirrors_reject (error : DecodeError) :
    Mirrors amount alike (reject error) (reject (error.moved amount)) :=
  fun _ => .error (.recoverable error)

theorem mirrors_get :
    Mirrors amount (fun left right => right = left.moved amount)
      (get : Decoder ByteCursor) (get : Decoder ByteCursor) :=
  fun _ => .ok rfl

-- The second steps are compared on values that are alike, not on equal ones,
-- because a cursor or a window that has been read differs between the two
-- places.
theorem Mirrors.bind {behindHere behindThere : α → Decoder β}
    (first : Mirrors amount alike here there)
    (second : ∀ left right, alike left right →
      Mirrors amount other (behindHere left) (behindThere right)) :
    Mirrors amount other (here >>= behindHere) (there >>= behindThere) := by
  intro cursor
  have step := first cursor
  change Moved amount other
    (here cursor >>= fun found => behindHere found.1 found.2)
    (there (cursor.moved amount) >>= fun found => behindThere found.1 found.2)
  generalize here cursor = outcomeHere at step
  generalize there (cursor.moved amount) = outcomeThere at step
  cases step with
  | ok like => exact second _ _ like _
  | error failure => exact .error failure

theorem Mirrors.map (mirrors : Mirrors amount alike here there)
    {convert : α → β}
    (implies : ∀ left right, alike left right →
      other (convert left) (convert right)) :
    Mirrors amount other (convert <$> here) (convert <$> there) := by
  rw [← bind_pure_comp, ← bind_pure_comp]
  exact mirrors.bind fun left right like =>
    mirrors_pure (implies left right like)

theorem Mirrors.mono {weaker : α → α → Prop}
    (mirrors : Mirrors amount alike here there)
    (implies : ∀ left right, alike left right → weaker left right) :
    Mirrors amount weaker here there := by
  have mapped : Mirrors amount weaker (id <$> here) (id <$> there) :=
    mirrors.map implies
  simpa only [id_map] using mapped

theorem Mirrors.exhaust (mirrors : Mirrors amount alike here there) :
    Mirrors amount alike here.exhaust there.exhaust := by
  apply mirrors.bind
  intro left right like
  apply mirrors_get.bind
  rintro cursor _ rfl
  have same : (cursor.moved amount).isEmpty = cursor.isEmpty := rfl
  rw [same, DecodeError.atCursor_moved]
  split
  · exact mirrors_pure like
  · exact mirrors_reject _

theorem Mirrors.alternative {secondHere secondThere : Decoder α}
    (first : Mirrors amount alike here there)
    (second : Mirrors amount alike secondHere secondThere) :
    Mirrors amount alike (here.alternative secondHere)
      (there.alternative secondThere) := by
  intro cursor
  have step := first cursor
  unfold Decoder.alternative
  generalize here cursor = outcomeHere at step
  generalize there (cursor.moved amount) = outcomeThere at step
  cases step with
  | ok like => exact .ok like
  | error failure =>
      cases failure with
      | recoverable error => exact second cursor
      | fatal error => exact .error (.fatal error)
      | incomplete => exact .error .incomplete

theorem Mirrors.commit (mirrors : Mirrors amount alike here there) :
    Mirrors amount alike here.commit there.commit := by
  intro cursor
  have step := mirrors cursor
  unfold Decoder.commit
  generalize here cursor = outcomeHere at step
  generalize there (cursor.moved amount) = outcomeThere at step
  cases step with
  | ok like => exact .ok like
  | error failure =>
      cases failure with
      | recoverable error => exact .error (.fatal error)
      | fatal error => exact .error (.fatal error)
      | incomplete => exact .error .incomplete

theorem Mirrors.replicate (mirrors : Mirrors amount alike here there)
    (count : Nat) :
    Mirrors amount (List.Forall₂ alike) (here.replicate count)
      (there.replicate count) := by
  induction count with
  | zero => exact mirrors_pure .nil
  | succ count induction =>
      apply mirrors.bind
      intro first first' firstLike
      apply induction.bind
      intro others others' othersLike
      exact mirrors_pure (.cons firstLike othersLike)

end Closure

theorem placeFree_pure (value : α) : (pure value : Decoder α).PlaceFree :=
  fun _ => mirrors_pure rfl

theorem PlaceFree.bind {first : Decoder α} {second : α → Decoder β}
    (before : first.PlaceFree) (behind : ∀ value, (second value).PlaceFree) :
    (first >>= second).PlaceFree := by
  intro amount
  apply (before amount).bind
  rintro value _ rfl
  exact behind value amount

/-! ## Bytes and integers -/

theorem placeFree_byteMap (read : UInt8 → Option α) :
    (byteMap read).PlaceFree := by
  intro amount cursor
  obtain ⟨position, input⟩ := cursor
  cases input with
  | nil => exact .error (.recoverable .unexpectedEnd)
  | cons byte rest =>
      simp only [byteMap, ByteCursor.moved,
        Nat.add_right_comm position amount 1]
      cases read byte with
      | none => exact .error (.recoverable (.unexpected byte position))
      | some value => exact .ok rfl

private theorem moved_boundedFrom (width : Nat) (signed : Bool)
    (input : List UInt8) (shift position amount : Nat) :
    Moved amount Eq (Leb128.boundedFrom width signed shift position input)
      (Leb128.boundedFrom width signed shift (position + amount) input) := by
  induction input generalizing shift position with
  | nil => exact .error (.recoverable .unexpectedEnd)
  | cons byte rest induction =>
      have refused : Moved amount Eq
          (.error (.recoverable (.unexpected byte position)) :
            Except Failure (UInt64 × ByteCursor))
          (.error (.recoverable (.unexpected byte (position + amount)))) :=
        .error (.recoverable (.unexpected byte position))
      have final : Moved amount Eq
          (.ok (Leb128.finalGroup signed shift byte, ⟨position + 1, rest⟩))
          (.ok (Leb128.finalGroup signed shift byte,
            ⟨position + 1 + amount, rest⟩)) :=
        .ok rfl
      unfold Leb128.boundedFrom
      rw [Nat.add_right_comm position amount 1]
      split
      · split
        · split
          · exact .error (.recoverable .unexpectedEnd)
          · exact refused
        · split
          · exact final
          · exact refused
      · split
        · exact (induction (shift + 7) (position + 1)).map fun _ _ equal =>
            congrArg _ equal
        · exact final

private theorem moved_wrappingFrom (rule : Leb128.SignRule) (width : Nat)
    (input : List UInt8) (shift position amount : Nat) :
    Moved amount Eq (Leb128.wrappingFrom rule width shift position input)
      (Leb128.wrappingFrom rule width shift (position + amount) input) := by
  induction input generalizing shift position with
  | nil => exact .error (.recoverable .unexpectedEnd)
  | cons byte rest induction =>
      unfold Leb128.wrappingFrom
      rw [Nat.add_right_comm position amount 1]
      split
      · exact (induction (shift + 7) (position + 1)).map fun _ _ equal =>
          congrArg _ equal
      · exact .ok rfl

theorem placeFree_bounded (width : Nat) (signed : Bool) :
    (Leb128.bounded width signed).PlaceFree :=
  fun amount cursor =>
    moved_boundedFrom width signed cursor.rest 0 cursor.position amount

theorem placeFree_wrapping (rule : Leb128.SignRule) (bits : Nat) :
    (Leb128.wrapping rule bits).PlaceFree := by
  unfold Leb128.wrapping
  simp only
  split
  · exact placeFree_byteMap _
  · exact fun amount cursor =>
      moved_wrappingFrom rule _ cursor.rest 0 cursor.position amount

/-! ## Windows -/

theorem mirrors_window (count : UInt32) :
    Mirrors amount (fun left right => right = left.moved amount) (window count)
      (window count) := by
  intro cursor
  unfold window ByteCursor.splitAt? ByteCursor.moved
  rw [Nat.add_right_comm cursor.position amount count.toNat]
  by_cases enough : count.toNat ≤ cursor.rest.length
  · simp only [if_pos enough]
    exact .ok rfl
  · simp only [if_neg enough]
    exact .error (.recoverable .unexpectedEnd)

theorem placeFree_take (count : UInt32) : (take count).PlaceFree := by
  intro amount
  apply (mirrors_window count).bind
  rintro part _ rfl
  exact mirrors_pure rfl

theorem Mirrors.within {alike : α → α → Prop} {here there : Decoder α}
    (mirrors : Mirrors amount alike here there) (count : UInt32) :
    Mirrors amount alike (within count here) (within count there) := by
  apply (mirrors_window count).bind
  rintro part _ rfl
  have inside := mirrors.exhaust part
  generalize here.exhaust part = outcomeHere at inside
  generalize there.exhaust (part.moved amount) = outcomeThere at inside
  cases inside with
  | ok like => exact mirrors_pure like
  | error failure => exact fun _ => .error failure

private theorem placeFree_uint32 : Leb128.uint32.PlaceFree :=
  (placeFree_bounded 32 false).bind fun _ => placeFree_pure _

-- The offset that is reported is counted back from the end of the window, which
-- is never further than the window is long.
theorem placeFree_name : name.PlaceFree := by
  intro amount
  apply (placeFree_uint32 amount).bind
  rintro length _ rfl
  apply (mirrors_window length).bind
  rintro part _ rfl
  have whole := Utf8.encode_decode_append part.rest
  cases decoded : Utf8.decode part.rest with
  | mk characters remaining =>
      have decodedThere :
          Utf8.decode (part.moved amount).rest = (characters, remaining) :=
        decoded
      rw [decodedThere]
      rw [decoded] at whole
      cases remaining with
      | nil => exact mirrors_pure rfl
      | cons byte remaining =>
          have inside : remaining.length + 1 ≤ part.rest.length := by
            rw [← whole]
            simp
          have location :
              (part.moved amount).position + (part.moved amount).rest.length -
              (remaining.length + 1) =
                part.position + part.rest.length - (remaining.length + 1) +
                  amount := by
            simp only [ByteCursor.moved]
            omega
          simp only [location]
          exact mirrors_reject _

theorem mirrors_nonemptyVector {alike : α → α → Prop} {here there : Decoder α}
    (mirrors : Mirrors amount alike here there) :
    Mirrors amount (List.Forall₂ alike) here.nonemptyVector
      there.nonemptyVector := by
  apply mirrors_get.bind
  rintro start _ rfl
  apply (placeFree_uint32 amount).bind
  rintro length _ rfl
  split
  · exact mirrors_reject (.vectorInvalidLength length start.position)
  · exact mirrors.replicate length.toNat

theorem mirrors_vector {alike : α → α → Prop} {here there : Decoder α}
    (mirrors : Mirrors amount alike here there) :
    Mirrors amount (List.Forall₂ alike) here.vector there.vector := by
  apply (placeFree_uint32 amount).bind
  rintro length _ rfl
  exact mirrors.replicate length.toNat

end Decoder

/-- Decoding the binary format depends on no place. -/
def SequenceLaw.placeFree : SequenceLaw where
  Holds := Decoder.PlaceFree
  pure := Decoder.placeFree_pure
  bind := Decoder.PlaceFree.bind
  byteMap := Decoder.placeFree_byteMap
  bounded width signed _ _ := Decoder.placeFree_bounded width signed
  wrapping := Decoder.placeFree_wrapping
  take := Decoder.placeFree_take
  name := Decoder.placeFree_name

namespace Decoder

/-! ## Sections -/

theorem placeFree_takeRest : takeRest.PlaceFree := by
  intro amount
  apply mirrors_get.bind
  rintro cursor _ rfl
  exact placeFree_take _ amount

theorem placeFree_functionBody : FunctionBody.decoder.PlaceFree := by
  have contents : FunctionBody.contents.PlaceFree := by
    apply PlaceFree.bind
      (SequenceLaw.placeFree.vector SequenceLaw.placeFree.localGroup)
    intro locals
    apply placeFree_takeRest.bind
    intro body
    split
    · exact placeFree_pure _
    · exact fun _ => mirrors_reject .unexpectedEnd
  apply placeFree_uint32.bind
  intro size amount
  exact (contents amount).within size

theorem placeFree_customSection : CustomSection.decoder.PlaceFree :=
  placeFree_name.bind fun _ => placeFree_takeRest.bind fun _ => placeFree_pure _

theorem placeFree_section (kind : SectionKind) :
    (Section.decoder kind).PlaceFree := by
  have entries : ∀ {α : Type} {entry : Decoder α} (collect : List α → Section),
      entry.PlaceFree → (collect <$> entry.vector).PlaceFree := by
    intro α entry collect placeFree
    exact SequenceLaw.placeFree.map
      (SequenceLaw.placeFree.vector placeFree) collect
  cases kind with
  | custom => exact SequenceLaw.placeFree.map placeFree_customSection _
  | types => exact entries _ SequenceLaw.placeFree.functionType
  | imports => exact entries _ SequenceLaw.placeFree.importEntry
  | functions => exact entries _ placeFree_uint32
  | tables => exact entries _ SequenceLaw.placeFree.tableType
  | memories => exact entries _ SequenceLaw.placeFree.limits
  | globals => exact entries _ SequenceLaw.placeFree.globalEntry
  | exports => exact entries _ SequenceLaw.placeFree.exportEntry
  | start => exact SequenceLaw.placeFree.map placeFree_uint32 _
  | elements => exact entries _ SequenceLaw.placeFree.elementSegment
  | code => exact entries _ placeFree_functionBody
  | data => exact entries _ SequenceLaw.placeFree.dataSegment

end Decoder

end Wasm
