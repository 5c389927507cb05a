import Wasm.Decoding.Vector
import Wasm.Proofs.BinaryGrammar.Production

/-!
# Decoders that recognise a production

A decoder recognises a production if it succeeds exactly where the production
holds of some bytes in front of the cursor, and then stops right behind them.
What follows those bytes plays no role, so recognition is kept by sequences,
vectors and windows.  A decoder that reads to the end of its window has no such
bytes; it fills a production instead.
-/

namespace Wasm.Decoder

variable {α β : Type}

/-- Success is the production of the bytes up to the new cursor. -/
def Recognises (decoder : Decoder α) (production : Production α) : Prop :=
  ∀ ⦃cursor after : ByteCursor⦄ ⦃value : α⦄,
    decoder cursor = .ok (value, after) ↔
      ∃ consumed,
        production value consumed ∧
        cursor.rest = consumed ++ after.rest ∧
        after.position = cursor.position + consumed.length

/-- Reading a whole window is the production of its bytes, if the window is no
longer than a size can say. -/
def Fills (decoder : Decoder α) (production : Production α) : Prop :=
  ∀ ⦃cursor after : ByteCursor⦄ ⦃value : α⦄, cursor.rest.length < 2 ^ 32 →
    (decoder.exhaust cursor = .ok (value, after) ↔
      production value cursor.rest ∧
        after = ⟨cursor.position + cursor.rest.length, []⟩)

/-- Nothing is read, and the values that are returned are the accepted ones. -/
def Judges (decoder : Decoder α) (accepts : α → Prop) : Prop :=
  ∀ ⦃cursor after : ByteCursor⦄ ⦃value : α⦄,
    decoder cursor = .ok (value, after) ↔ accepts value ∧ after = cursor

theorem Recognises.congr {decoder : Decoder α} {production other : Production α}
    (recognises : decoder.Recognises production)
    (same : ∀ value bytes, production value bytes ↔ other value bytes) :
    decoder.Recognises other := by
  intro cursor after value
  simp only [← same]
  exact @recognises cursor after value

theorem Fills.congr {decoder : Decoder α} {production other : Production α}
    (fills : decoder.Fills production)
    (same : ∀ value bytes, production value bytes ↔ other value bytes) :
    decoder.Fills other := by
  intro cursor after value small
  rw [fills small, same]

theorem recognises_pure (value : α) :
    (pure value : Decoder α).Recognises fun result bytes =>
      result = value ∧ bytes = [] := by
  intro cursor after result
  constructor
  · intro run
    cases run
    exact ⟨[], ⟨rfl, rfl⟩, rfl, rfl⟩
  · intro parts
    obtain ⟨consumed, ⟨rfl, rfl⟩, rest, position⟩ := parts
    cases cursor
    cases after
    cases rest
    cases position
    rfl

theorem Recognises.bind {first : Decoder α} {second : α → Decoder β}
    {production : Production α} {continuation : α → Production β}
    (before : first.Recognises production)
    (behind : ∀ value, (second value).Recognises (continuation value)) :
    (first >>= second).Recognises fun result bytes =>
      ∃ value front back,
        production value front ∧ continuation value result back ∧
          bytes = front ++ back := by
  intro cursor after result
  rw [bind_eq_ok_iff]
  constructor
  · intro parts
    obtain ⟨value, between, ran, rest⟩ := parts
    obtain ⟨front, frontWritten, frontRest, frontPosition⟩ := before.mp ran
    obtain ⟨back, backWritten, backRest, backPosition⟩ := (behind value).mp rest
    refine ⟨front ++ back, ⟨value, front, back, frontWritten, backWritten, rfl⟩,
      ?_, ?_⟩
    · rw [frontRest, backRest, List.append_assoc]
    · rw [backPosition, frontPosition, List.length_append, Nat.add_assoc]
  · intro parts
    obtain ⟨_, ⟨value, front, back, frontWritten, backWritten, rfl⟩, rest,
      position⟩ := parts
    refine ⟨value, ⟨cursor.position + front.length, back ++ after.rest⟩, ?_, ?_⟩
    · exact before.mpr ⟨front, frontWritten,
        by rw [rest, List.append_assoc], rfl⟩
    · refine (behind value).mpr ⟨back, backWritten, rfl, ?_⟩
      rw [position, List.length_append, Nat.add_assoc]

theorem Recognises.map {decoder : Decoder α} {production : Production α}
    (recognises : decoder.Recognises production) (convert : α → β) :
    (convert <$> decoder).Recognises fun result bytes =>
      ∃ value, production value bytes ∧ result = convert value := by
  have steps := recognises.bind fun value => recognises_pure (convert value)
  rw [bind_pure_comp] at steps
  apply steps.congr
  intro result bytes
  constructor
  · intro parts
    obtain ⟨value, front, _, written, ⟨rfl, rfl⟩, rfl⟩ := parts
    rw [List.append_nil]
    exact ⟨value, written, rfl⟩
  · intro parts
    obtain ⟨value, written, rfl⟩ := parts
    exact ⟨value, bytes, [], written, ⟨rfl, rfl⟩, (List.append_nil bytes).symm⟩

theorem recognises_byteMap (read : UInt8 → Option α) :
    (byteMap read).Recognises fun value bytes =>
      ∃ byte, read byte = some value ∧ bytes = [byte] := by
  intro cursor after value
  obtain ⟨position, input⟩ := cursor
  constructor
  · intro run
    simp only [byteMap] at run
    split at run
    · cases run
    · rename_i byte rest
      split at run
      · rename_i found
        cases run
        exact ⟨[byte], ⟨byte, found, rfl⟩, rfl, rfl⟩
      · cases run
  · intro parts
    obtain ⟨_, ⟨byte, found, rfl⟩, rest, behind⟩ := parts
    obtain ⟨afterPosition, remaining⟩ := after
    change input = byte :: remaining at rest
    change afterPosition = position + 1 at behind
    subst rest behind
    simp only [byteMap, found]

theorem recognises_byteMap_of_inverse {read : UInt8 → Option α}
    {toByte : α → UInt8}
    (inverse : ∀ {byte value}, read byte = some value ↔ byte = toByte value) :
    (byteMap read).Recognises fun value bytes => bytes = [toByte value] := by
  apply (recognises_byteMap read).congr
  intro value bytes
  constructor
  · intro parts
    obtain ⟨byte, found, rfl⟩ := parts
    rw [inverse.mp found]
  · intro equal
    subst equal
    exact ⟨toByte value, inverse.mpr rfl, rfl⟩

theorem recognises_byte (expected : UInt8) :
    (byte expected).Recognises fun value bytes =>
      value = expected ∧ bytes = [expected] := by
  apply (recognises_byteMap _).congr
  intro value bytes
  constructor
  · intro parts
    obtain ⟨candidate, found, rfl⟩ := parts
    obtain ⟨same, equal⟩ := Option.ite_none_right_eq_some.mp found
    obtain rfl := Option.some.inj equal
    obtain rfl := beq_iff_eq.mp same
    exact ⟨rfl, rfl⟩
  · intro parts
    obtain ⟨rfl, rfl⟩ := parts
    exact ⟨value, by simp, rfl⟩

/-- A byte that says which of several things follows it. -/
theorem recognises_tagged {tag : Type} {read : UInt8 → Option tag}
    {toByte : tag → UInt8} {tagOf : α → tag} {body : tag → Decoder α}
    {production : Production α}
    (inverse : ∀ {byte value}, read byte = some value ↔ byte = toByte value)
    (recognises : ∀ kind, (body kind).Recognises fun value bytes =>
      tagOf value = kind ∧ production value bytes) :
    (byteMap read >>= body).Recognises fun value bytes =>
      ∃ back, production value back ∧ bytes = toByte (tagOf value) :: back := by
  apply ((recognises_byteMap_of_inverse inverse).bind recognises).congr
  intro value bytes
  constructor
  · intro parts
    obtain ⟨kind, _, back, rfl, ⟨rfl, written⟩, rfl⟩ := parts
    exact ⟨back, written, rfl⟩
  · intro parts
    obtain ⟨back, written, rfl⟩ := parts
    exact ⟨tagOf value, [toByte (tagOf value)], back, rfl, ⟨rfl, written⟩, rfl⟩

/-- Two fields of a record. -/
theorem Recognises.pair {γ : Type} {first : Decoder α} {second : Decoder β}
    {production : Production α} {continuation : Production β}
    (before : first.Recognises production)
    (behind : second.Recognises continuation) (combine : α → β → γ) :
    (do let left ← first
        let right ← second
        pure (combine left right)).Recognises fun result bytes =>
      ∃ left right front back,
        result = combine left right ∧
        production left front ∧ continuation right back ∧
          bytes = front ++ back := by
  apply (before.bind fun left => behind.map (combine left)).congr
  intro result bytes
  constructor
  · intro parts
    obtain ⟨left, front, back, frontWritten, ⟨right, backWritten, rfl⟩, rfl⟩ :=
      parts
    exact ⟨left, right, front, back, rfl, frontWritten, backWritten, rfl⟩
  · intro parts
    obtain ⟨left, right, front, back, rfl, frontWritten, backWritten, rfl⟩ :=
      parts
    exact ⟨left, front, back, frontWritten, ⟨right, backWritten, rfl⟩, rfl⟩

/-- Three fields of a record. -/
theorem Recognises.triple {γ δ : Type} {first : Decoder α} {second : Decoder β}
    {third : Decoder γ} {production : Production α}
    {continuation : Production β} {conclusion : Production γ}
    (before : first.Recognises production)
    (between : second.Recognises continuation)
    (behind : third.Recognises conclusion) (combine : α → β → γ → δ) :
    (do let left ← first
        let middle ← second
        let right ← third
        pure (combine left middle right)).Recognises fun result bytes =>
      ∃ left middle right front center back,
        result = combine left middle right ∧
        production left front ∧ continuation middle center ∧
          conclusion right back ∧
        bytes = front ++ (center ++ back) := by
  apply (before.bind fun left => between.pair behind (combine left)).congr
  intro result bytes
  constructor
  · intro parts
    obtain ⟨left, front, _, frontWritten,
      ⟨middle, right, center, back, rfl, centerWritten, backWritten, rfl⟩,
      rfl⟩ := parts
    exact ⟨left, middle, right, front, center, back, rfl, frontWritten,
      centerWritten, backWritten, rfl⟩
  · intro parts
    obtain ⟨left, middle, right, front, center, back, rfl, frontWritten,
      centerWritten, backWritten, rfl⟩ := parts
    exact ⟨left, front, center ++ back, frontWritten,
      ⟨middle, right, center, back, rfl, centerWritten, backWritten, rfl⟩, rfl⟩

theorem recognises_bytes (expected : List UInt8) :
    (bytes expected).Recognises fun value written =>
      value = expected ∧ written = expected := by
  induction expected with
  | nil => exact recognises_pure []
  | cons byte expected induction =>
      apply ((recognises_byte byte).pair induction List.cons).congr
      intro value written
      constructor
      · intro parts
        obtain ⟨_, _, _, _, rfl, ⟨rfl, rfl⟩, ⟨rfl, rfl⟩, rfl⟩ := parts
        exact ⟨rfl, rfl⟩
      · intro parts
        obtain ⟨rfl, rfl⟩ := parts
        exact ⟨byte, expected, [byte], expected, rfl, ⟨rfl, rfl⟩,
          ⟨rfl, rfl⟩, rfl⟩

theorem recognises_fixedWidth (type : Leb128.FixedWidth α) :
    type.decoder.Recognises type.Written := by
  intro cursor after value
  rw [type.decoder_eq_ok_iff]
  constructor
  · intro parts
    obtain ⟨encoding, short, number, rest, position⟩ := parts
    exact ⟨encoding.bytes, ⟨encoding, short, number, rfl⟩, rest,
      by simpa using position⟩
  · intro parts
    obtain ⟨_, ⟨encoding, short, number, rfl⟩, rest, position⟩ := parts
    exact ⟨encoding, short, number, rest, by simpa using position⟩

theorem recognises_natural : Leb128.uint32.Recognises Production.natural := by
  rw [← Leb128.FixedWidth.decoder_unsigned32]
  exact recognises_fixedWidth Leb128.FixedWidth.unsigned32

theorem Recognises.replicate {decoder : Decoder α} {production : Production α}
    (recognises : decoder.Recognises production) (count : Nat) :
    (decoder.replicate count).Recognises fun values bytes =>
      values.length = count ∧
        ∃ chunks, List.Forall₂ production values chunks ∧
          bytes = chunks.flatten := by
  induction count with
  | zero =>
      apply (recognises_pure []).congr
      intro values bytes
      constructor
      · intro parts
        obtain ⟨rfl, rfl⟩ := parts
        exact ⟨rfl, [], .nil, rfl⟩
      · intro parts
        obtain ⟨empty, chunks, written, rfl⟩ := parts
        obtain rfl := List.eq_nil_of_length_eq_zero empty
        cases written
        exact ⟨rfl, rfl⟩
  | succ count induction =>
      apply (recognises.pair induction List.cons).congr
      intro values bytes
      constructor
      · intro parts
        obtain ⟨first, others, front, _, rfl, firstWritten,
          ⟨length, chunks, written, rfl⟩, rfl⟩ :=
          parts
        exact ⟨congrArg Nat.succ length, front :: chunks,
          .cons firstWritten written, rfl⟩
      · intro parts
        obtain ⟨length, chunks, written, rfl⟩ := parts
        cases written with
        | nil => cases length
        | @cons first front others chunks firstWritten written =>
            exact ⟨first, others, front, chunks.flatten, rfl, firstWritten,
              ⟨Nat.succ.inj length, chunks, written, rfl⟩, rfl⟩

theorem Recognises.vector {decoder : Decoder α} {production : Production α}
    (recognises : decoder.Recognises production) :
    decoder.vector.Recognises (Production.vector production) := by
  apply (recognises_natural.bind fun count =>
    recognises.replicate count.toNat).congr
  intro values bytes
  constructor
  · intro parts
    obtain ⟨count, countBytes, _, countWritten, ⟨length, chunks, written, rfl⟩,
      rfl⟩ := parts
    exact ⟨count, countBytes, chunks, countWritten, length.symm, written, rfl⟩
  · intro parts
    obtain ⟨count, countBytes, chunks, countWritten, length, written, rfl⟩ :=
      parts
    exact ⟨count, countBytes, chunks.flatten, countWritten,
      ⟨length.symm, chunks, written, rfl⟩, rfl⟩

/-! ## Windows -/

theorem judges_pure (value : α) :
    (pure value : Decoder α).Judges (· = value) := by
  intro cursor after result
  constructor
  · intro run
    cases run
    exact ⟨rfl, rfl⟩
  · intro parts
    obtain ⟨rfl, rfl⟩ := parts
    rfl

theorem judges_reject (error : DecodeError) :
    (reject error : Decoder α).Judges fun _ => False := by
  intro cursor after result
  constructor
  · intro run
    cases run
  · intro parts
    obtain ⟨impossible, _⟩ := parts
    exact impossible.elim

theorem window_eq_ok_iff {count : UInt32} {cursor part after : ByteCursor} :
    window count cursor = .ok (part, after) ↔
      part.rest.length = count.toNat ∧
        part.position = cursor.position ∧
        cursor.rest = part.rest ++ after.rest ∧
        after.position = cursor.position + count.toNat := by
  have splits : window count cursor = .ok (part, after) ↔
      cursor.splitAt? count.toNat = some (part, after) := by
    unfold window
    cases cursor.splitAt? count.toNat with
    | none => simp
    | some parts => simp
  rw [splits]
  constructor
  · intro split
    have whole := ByteCursor.rest_append_rest_of_splitAt? split
    obtain ⟨enough, rfl, rfl⟩ := ByteCursor.splitAt?_eq_some_iff.mp split
    exact ⟨List.length_take_of_le enough, rfl, whole.symm, rfl⟩
  · intro parts
    obtain ⟨length, start, rest, position⟩ := parts
    apply ByteCursor.splitAt?_eq_some_iff.mpr
    obtain ⟨partPosition, inside⟩ := part
    obtain ⟨afterPosition, remaining⟩ := after
    simp only at length start rest position
    rw [rest, start, position, ← length]
    simp

theorem window_of_short {count : UInt32} {cursor : ByteCursor}
    (short : cursor.rest.length < count.toNat) :
    window count cursor = .error (.recoverable .unexpectedEnd) := by
  simp only [window, ByteCursor.splitAt?, if_neg (Nat.not_le_of_lt short)]

theorem recognises_window {count : UInt32} {inside : ByteCursor → Decoder α}
    {production : Production α}
    (judges : ∀ part, part.rest.length = count.toNat →
      (inside part).Judges fun value => production value part.rest) :
    (window count >>= inside).Recognises fun value bytes =>
      bytes.length = count.toNat ∧ production value bytes := by
  intro cursor after value
  rw [bind_eq_ok_iff]
  constructor
  · intro parts
    obtain ⟨part, behind, split, result⟩ := parts
    obtain ⟨length, _, rest, position⟩ := window_eq_ok_iff.mp split
    obtain ⟨written, rfl⟩ := (judges part length).mp result
    rw [← length] at position
    exact ⟨part.rest, ⟨length, written⟩, rest, position⟩
  · intro parts
    obtain ⟨consumed, ⟨length, written⟩, rest, position⟩ := parts
    rw [length] at position
    let part : ByteCursor := ⟨cursor.position, consumed⟩
    refine ⟨part, after, ?_, (judges part length).mpr ⟨written, rfl⟩⟩
    exact window_eq_ok_iff.mpr ⟨length, rfl, rest, position⟩

theorem recognises_take (count : UInt32) :
    (take count).Recognises fun data bytes =>
      bytes.length = count.toNat ∧ data = bytes :=
  recognises_window fun part _ => judges_pure part.rest

theorem Fills.within {decoder : Decoder α} {production : Production α}
    (fills : decoder.Fills production) (count : UInt32) :
    (within count decoder).Recognises fun value bytes =>
      bytes.length = count.toNat ∧ production value bytes := by
  apply recognises_window
  intro part length behind after value
  have small : part.rest.length < 2 ^ 32 := by
    rw [length]
    exact count.toNat_lt
  constructor
  · intro run
    cases read : decoder.exhaust part with
    | error failure =>
        rw [read] at run
        cases run
    | ok result =>
        rw [read] at run
        cases run
        exact ⟨((fills small).mp read).1, rfl⟩
  · intro parts
    obtain ⟨written, rfl⟩ := parts
    rw [(fills small).mpr ⟨written, rfl⟩]
    rfl

theorem recognises_sized {inside : UInt32 → Decoder α} {contents : Production α}
    (recognises : ∀ size : UInt32, (inside size).Recognises fun value bytes =>
      bytes.length = size.toNat ∧ contents value bytes) :
    (Leb128.uint32 >>= inside).Recognises (Production.sized contents) := by
  apply (recognises_natural.bind recognises).congr
  intro value bytes
  constructor
  · intro parts
    obtain ⟨size, sizeBytes, payload, sizeWritten, ⟨length, written⟩, rfl⟩ :=
      parts
    exact ⟨size, sizeBytes, payload, sizeWritten, length.symm, written, rfl⟩
  · intro parts
    obtain ⟨size, sizeBytes, payload, sizeWritten, length, written, rfl⟩ :=
      parts
    exact ⟨size, sizeBytes, payload, sizeWritten, ⟨length.symm, written⟩, rfl⟩

theorem recognises_byteVector :
    byteVector.Recognises Production.byteVector := by
  apply recognises_sized
  intro size
  apply (recognises_take size).congr
  intro data bytes
  rw [@eq_comm _ data bytes]

theorem recognises_name : name.Recognises Production.name := by
  apply recognises_sized
  intro size
  apply recognises_window
  intro part _ behind after text
  constructor
  · intro run
    cases decoded : Utf8.decode part.rest with
    | mk characters remaining =>
        rw [decoded] at run
        cases remaining with
        | nil =>
            cases run
            have written := Utf8.decode_eq_nil_iff.mp decoded
            rw [← String.toList_ofList (l := characters)] at written
            exact ⟨written, rfl⟩
        | cons byte remaining => cases run
  · intro parts
    obtain ⟨written, rfl⟩ := parts
    rw [Utf8.decode_eq_nil_iff.mpr written]
    change Except.ok (String.ofList text.toList, after) = _
    rw [String.ofList_toList]

/-! ## Reading a window to its end -/

theorem exhaust_eq_ok_iff {decoder : Decoder α} {cursor after : ByteCursor}
    {value : α} :
    decoder.exhaust cursor = .ok (value, after) ↔
      decoder cursor = .ok (value, after) ∧ after.rest = [] := by
  unfold exhaust
  rw [bind_eq_ok_iff]
  constructor
  · intro parts
    obtain ⟨result, behind, ran, rest⟩ := parts
    change (if behind.isEmpty then pure result
      else reject _ : Decoder α) behind = _ at rest
    split at rest
    · rename_i empty
      cases rest
      exact ⟨ran, List.isEmpty_iff.mp empty⟩
    · cases rest
  · intro parts
    obtain ⟨ran, empty⟩ := parts
    refine ⟨value, after, ran, ?_⟩
    have done : after.isEmpty = true := List.isEmpty_iff.mpr empty
    change (if after.isEmpty then pure value
      else reject _ : Decoder α) after = _
    rw [if_pos done]
    rfl

theorem exhaust_bind (first : Decoder α) (second : α → Decoder β) :
    (first >>= second).exhaust = first >>= fun value =>
      (second value).exhaust :=
  bind_assoc first second _

theorem Recognises.fills {decoder : Decoder α} {production : Production α}
    (recognises : decoder.Recognises production) :
    decoder.Fills production := by
  intro cursor after value _
  rw [exhaust_eq_ok_iff, recognises]
  constructor
  · intro parts
    obtain ⟨⟨consumed, written, rest, position⟩, empty⟩ := parts
    rw [empty, List.append_nil] at rest
    rw [← rest] at written position
    refine ⟨written, ?_⟩
    rw [← position, ← empty]
  · intro parts
    obtain ⟨written, rfl⟩ := parts
    exact ⟨⟨cursor.rest, written, (List.append_nil _).symm, rfl⟩, rfl⟩

theorem Fills.map {decoder : Decoder α} {production : Production α}
    (fills : decoder.Fills production) (convert : α → β) :
    (convert <$> decoder).Fills fun result bytes =>
      ∃ value, production value bytes ∧ result = convert value := by
  intro cursor after result small
  rw [exhaust_eq_ok_iff, ← bind_pure_comp, bind_eq_ok_iff]
  constructor
  · intro parts
    obtain ⟨⟨value, behind, ran, converted⟩, empty⟩ := parts
    cases converted
    obtain ⟨written, stop⟩ :=
      (fills small).mp (exhaust_eq_ok_iff.mpr ⟨ran, empty⟩)
    exact ⟨⟨value, written, rfl⟩, stop⟩
  · intro parts
    obtain ⟨⟨value, written, rfl⟩, rfl⟩ := parts
    obtain ⟨ran, empty⟩ :=
      exhaust_eq_ok_iff.mp ((fills small).mpr ⟨written, rfl⟩)
    exact ⟨⟨value, _, ran, rfl⟩, empty⟩

theorem Recognises.fills_bind {first : Decoder α} {second : α → Decoder β}
    {production : Production α} {continuation : α → Production β}
    (before : first.Recognises production)
    (behind : ∀ value, (second value).Fills (continuation value)) :
    (first >>= second).Fills fun result bytes =>
      ∃ value front back,
        production value front ∧ continuation value result back ∧
          bytes = front ++ back := by
  intro cursor after result small
  rw [exhaust_bind, bind_eq_ok_iff]
  constructor
  · intro parts
    obtain ⟨value, between, ran, rest⟩ := parts
    obtain ⟨front, frontWritten, frontRest, frontPosition⟩ := before.mp ran
    rw [frontRest, List.length_append] at small
    obtain ⟨backWritten, rfl⟩ := (behind value (by omega)).mp rest
    refine ⟨⟨value, front, between.rest, frontWritten, backWritten, frontRest⟩,
      ?_⟩
    rw [frontRest, frontPosition, List.length_append, Nat.add_assoc]
  · intro parts
    obtain ⟨⟨value, front, back, frontWritten, backWritten, rest⟩, rfl⟩ := parts
    rw [rest, List.length_append] at small
    refine ⟨value, ⟨cursor.position + front.length, back⟩, ?_, ?_⟩
    · exact before.mpr ⟨front, frontWritten, rest, rfl⟩
    · refine (behind value (by simp only; omega)).mpr ⟨backWritten, ?_⟩
      rw [rest, List.length_append, Nat.add_assoc]

/-- All that remains is taken if its length is counted in 32 bits. -/
theorem takeRest_of_small {cursor : ByteCursor}
    (small : cursor.rest.length < 2 ^ 32) :
    takeRest cursor =
      .ok (cursor.rest, ⟨cursor.position + cursor.rest.length, []⟩) := by
  have count : (UInt32.ofNat cursor.rest.length).toNat = cursor.rest.length :=
    UInt32.toNat_ofNat_of_lt' small
  have takes := recognises_take (UInt32.ofNat cursor.rest.length)
  exact takes.mpr ⟨cursor.rest, ⟨count.symm, rfl⟩,
    (List.append_nil _).symm, rfl⟩

theorem fills_takeRest {inside : List UInt8 → Decoder α}
    {production : Production α}
    (judges : ∀ data, (inside data).Judges fun value => production value data) :
    (takeRest >>= inside).Fills production := by
  intro cursor after value small
  have whole := takeRest_of_small small
  rw [exhaust_eq_ok_iff, bind_eq_ok_iff]
  constructor
  · intro parts
    obtain ⟨⟨data, behind, ran, result⟩, _⟩ := parts
    rw [whole] at ran
    cases ran
    exact (judges cursor.rest).mp result
  · intro parts
    obtain ⟨written, rfl⟩ := parts
    exact ⟨⟨_, _, whole, (judges cursor.rest).mpr ⟨written, rfl⟩⟩, rfl⟩

end Wasm.Decoder
