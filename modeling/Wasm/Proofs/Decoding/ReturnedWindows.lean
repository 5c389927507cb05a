import Wasm.Proofs.Decoding.PlaceIndependence
import Wasm.Proofs.Decoding.SelfDelimiting

/-!
# Windows in decoded values

A decoder may return windows, anywhere in its value.  It is exposed by a decoder
that does the same and returns these windows in a list as well.  However a
decoder is composed, the windows that it returns lie ahead of the place where it
started.
-/

namespace Wasm

theorem ByteCursor.Shows.refl (cursor : ByteCursor) :
    cursor.Shows cursor.position cursor.rest :=
  (ByteCursor.Reaches.refl cursor).shows

namespace Decoder

variable {α β γ : Type}

/-- The first decoder does what the second one does and returns the windows that
are in the value as well.  A conversion may cut windows out of those that it is
given. -/
inductive Exposes :
    {α : Type} → Decoder (α × List ByteCursor) → Decoder α → Prop where
  | elementary {α : Type} {decoder : Decoder α} :
      Elementary decoder → Exposes ((·, []) <$> decoder) decoder
  | window (count : UInt32) :
      Exposes ((fun part => (part, [part])) <$> window count) (window count)
  | nonemptyVector {α : Type} {exposed : Decoder (α × List ByteCursor)}
      {element : Decoder α} : Exposes exposed element →
      Exposes
        ((fun entries => (entries.map Prod.fst, entries.flatMap Prod.snd)) <$>
          exposed.nonemptyVector)
        element.nonemptyVector
  | vector {α : Type} {exposed : Decoder (α × List ByteCursor)}
      {element : Decoder α} : Exposes exposed element →
      Exposes
        ((fun entries => (entries.map Prod.fst, entries.flatMap Prod.snd)) <$>
          exposed.vector)
        element.vector
  | pair {α β : Type} {left : Decoder (α × List ByteCursor)}
      {right : Decoder (β × List ByteCursor)}
      {first : Decoder α} {second : Decoder β} :
      Exposes left first → Exposes right second →
      Exposes ((fun both => ((both.1.1, both.2.1), both.1.2 ++ both.2.2)) <$>
        left.pair right) (first.pair second)
  | preceded {α β : Type} {left : Decoder (α × List ByteCursor)}
      {right : Decoder (β × List ByteCursor)} {first : Decoder α}
      {second : Decoder β} : Exposes left first → Exposes right second →
      Exposes (left.preceded right) (first.preceded second)
  | alternative {α : Type} {left right : Decoder (α × List ByteCursor)}
      {first second : Decoder α} : Exposes left first → Exposes right second →
      Exposes (left.alternative right) (first.alternative second)
  | map {α β : Type} {exposed : Decoder (α × List ByteCursor)}
      {decoder : Decoder α}
      (convert : α → β) (cut : α → List ByteCursor → List ByteCursor)
      (inside : ∀ value windows, ∀ part ∈ cut value windows,
        ∃ whole ∈ windows, whole.Shows part.position part.rest) :
      Exposes exposed decoder →
      Exposes
        ((fun parts => (convert parts.1, cut parts.1 parts.2)) <$> exposed)
        (convert <$> decoder)
  | exhaust {α : Type} {exposed : Decoder (α × List ByteCursor)}
      {decoder : Decoder α} :
      Exposes exposed decoder → Exposes exposed.exhaust decoder.exhaust
  | commit {α : Type} {exposed : Decoder (α × List ByteCursor)}
      {decoder : Decoder α} :
      Exposes exposed decoder → Exposes exposed.commit decoder.commit
  | within {α : Type} (count : UInt32) {exposed : Decoder (α × List ByteCursor)}
      {decoder : Decoder α} :
      Exposes exposed decoder →
        Exposes (within count exposed) (within count decoder)

theorem Tracks.exists_exposes {alike : Nat → α → α → Prop} {decoder : Decoder α}
    (tracks : decoder.Tracks alike) : ∃ exposed, Exposes exposed decoder := by
  induction tracks with
  | elementary elementary => exact ⟨_, .elementary elementary⟩
  | window count => exact ⟨_, .window count⟩
  | nonemptyVector _ induction =>
      exact ⟨_, induction.choose_spec.nonemptyVector⟩
  | vector _ induction => exact ⟨_, induction.choose_spec.vector⟩
  | pair _ _ left right => exact ⟨_, left.choose_spec.pair right.choose_spec⟩
  | preceded _ _ left right =>
      exact ⟨_, left.choose_spec.preceded right.choose_spec⟩
  | alternative _ _ left right =>
      exact ⟨_, left.choose_spec.alternative right.choose_spec⟩
  | map convert _ induction =>
      refine ⟨_,
        induction.choose_spec.map convert (fun _ windows => windows) ?_⟩
      intro _ windows part member
      exact ⟨part, member, .refl part⟩
  | exhaust _ induction => exact ⟨_, induction.choose_spec.exhaust⟩
  | commit _ induction => exact ⟨_, induction.choose_spec.commit⟩
  | within count _ induction => exact ⟨_, induction.choose_spec.within count⟩

theorem Composed.exists_exposes {decoder : Decoder α}
    (composed : decoder.Composed) :
    ∃ exposed, Exposes exposed decoder := by
  obtain ⟨alike, tracks⟩ := composed.exists_tracks
  exact tracks.exists_exposes

/-! ## What is exposed does the same -/

theorem map_replicate (convert : α → β) (decoder : Decoder α) (count : Nat) :
    List.map convert <$> decoder.replicate count =
      (convert <$> decoder).replicate count := by
  induction count with
  | zero => rfl
  | succ count induction =>
      simp only [replicate, ← induction, map_bind, bind_map_left, map_pure,
        List.map_cons]

theorem map_vector (convert : α → β) (decoder : Decoder α) :
    List.map convert <$> decoder.vector = (convert <$> decoder).vector := by
  simp only [vector, map_bind, map_replicate]

theorem map_nonemptyVector (convert : α → β) (decoder : Decoder α) :
    List.map convert <$> decoder.nonemptyVector =
      (convert <$> decoder).nonemptyVector := by
  simp only [nonemptyVector, map_bind, ← map_replicate]
  congr 1
  funext start
  congr 1
  funext length
  split
  · rfl
  · rfl

theorem map_exhaust (convert : α → β) (decoder : Decoder α) :
    convert <$> decoder.exhaust = (convert <$> decoder).exhaust := by
  simp only [exhaust, map_bind, bind_map_left]
  congr 1
  funext value
  congr 1
  funext cursor
  split
  · rfl
  · rfl

-- The combinators that look at an outcome are compared outcome by outcome.
theorem map_run (convert : α → β) (decoder : Decoder α) (cursor : ByteCursor) :
    (convert <$> decoder) cursor =
      (decoder cursor).map fun (value, after) => (convert value, after) := by
  rw [← bind_pure_comp]
  cases run : decoder cursor with
  | error failure => exact bind_of_error run
  | ok result => exact bind_of_ok run

theorem map_alternative (convert : α → β) (first second : Decoder α) :
    convert <$> first.alternative second =
      (convert <$> first).alternative (convert <$> second) := by
  funext cursor
  rw [map_run]
  unfold alternative
  rw [map_run, map_run]
  cases first cursor with
  | ok result => rfl
  | error failure => cases failure <;> rfl

theorem map_commit (convert : α → β) (decoder : Decoder α) :
    convert <$> decoder.commit = (convert <$> decoder).commit := by
  funext cursor
  rw [map_run]
  unfold commit
  rw [map_run]
  cases decoder cursor with
  | ok result => rfl
  | error failure => rfl

theorem map_within (convert : α → β) (count : UInt32) (decoder : Decoder α) :
    convert <$> within count decoder = within count (convert <$> decoder) := by
  simp only [within, map_bind, ← map_exhaust]
  congr 1
  funext part
  rw [map_run]
  cases decoder.exhaust part with
  | ok result => rfl
  | error failure => rfl

theorem Exposes.map_fst {exposed : Decoder (α × List ByteCursor)}
    {decoder : Decoder α} (exposes : Exposes exposed decoder) :
    Prod.fst <$> exposed = decoder := by
  induction exposes with
  | elementary elementary => rw [Functor.map_map, id_map']
  | window count => rw [Functor.map_map, id_map']
  | nonemptyVector _ induction =>
      rw [Functor.map_map, map_nonemptyVector, induction]
  | vector _ induction => rw [Functor.map_map, map_vector, induction]
  | pair _ _ left right =>
      simp only [← left, ← right, Decoder.pair, map_bind, bind_map_left,
        map_pure]
  | preceded _ _ left right =>
      simp only [← left, ← right, Decoder.preceded, map_bind, bind_map_left]
  | alternative _ _ left right => rw [map_alternative, left, right]
  | map convert cut inside _ induction =>
      rw [← induction, Functor.map_map, Functor.map_map]
  | exhaust _ induction => rw [map_exhaust, induction]
  | commit _ induction => rw [map_commit, induction]
  | within count _ induction => rw [map_within, induction]

/-! ## What is exposed lies ahead -/

/-- The decoder moves forwards, and the windows in its value lie ahead of the
place where it started. -/
def Keeps (windows : α → List ByteCursor) (decoder : Decoder α) : Prop :=
  ∀ cursor value after, decoder cursor = .ok (value, after) →
    cursor.Reaches after ∧
      ∀ part ∈ windows value, cursor.Shows part.position part.rest

theorem SelfDelimiting.keeps {decoder : Decoder α}
    (delimiting : decoder.SelfDelimiting) :
    decoder.Keeps fun _ => [] := by
  intro cursor value after run
  obtain ⟨consumed, rest, stop, _⟩ := delimiting.of_ok run
  exact ⟨⟨consumed, rest, stop⟩, by simp⟩

theorem keeps_window (count : UInt32) :
    (window count).Keeps fun part => [part] := by
  intro cursor part after run
  obtain ⟨length, start, rest, stop⟩ := window_eq_ok_iff.mp run
  refine ⟨⟨part.rest, rest, by rw [stop, length]⟩, ?_⟩
  intro other member
  obtain rfl := List.mem_singleton.mp member
  exact ⟨[], after.rest, rest, start⟩

section Combinators

variable {windows : β → List ByteCursor} {held : α → List ByteCursor}

theorem Keeps.map {decoder : Decoder α} {convert : α → β}
    (keeps : decoder.Keeps held)
    (inside : ∀ value, ∀ part ∈ windows (convert value), ∃ whole ∈ held value,
      whole.Shows part.position part.rest) :
    (convert <$> decoder).Keeps windows := by
  intro cursor result after run
  rw [← bind_pure_comp] at run
  obtain ⟨value, behind, ran, made⟩ := bind_eq_ok_iff.mp run
  cases made
  obtain ⟨reaches, shown⟩ := keeps _ _ _ ran
  refine ⟨reaches, ?_⟩
  intro part member
  obtain ⟨whole, found, covers⟩ := inside value part member
  exact (shown whole found).trans covers

theorem Keeps.rearrange {decoder : Decoder α} {convert : α → β}
    (keeps : decoder.Keeps held)
    (same : ∀ value, windows (convert value) = held value) :
    (convert <$> decoder).Keeps windows := by
  apply keeps.map
  intro value part member
  rw [same] at member
  exact ⟨part, member, .refl part⟩

/-- A first step whose windows are not kept. -/
theorem Keeps.bind {first : Decoder α} {second : α → Decoder β}
    (before : first.Keeps held)
    (behind : ∀ value, (second value).Keeps windows) :
    (first >>= second).Keeps windows := by
  intro cursor result after run
  obtain ⟨value, between, ran, rest⟩ := bind_eq_ok_iff.mp run
  have reaches := (before _ _ _ ran).1
  obtain ⟨further, shown⟩ := behind value _ _ _ rest
  exact ⟨reaches.trans further, fun part member =>
    reaches.shows.trans (shown part member)⟩

/-- Two steps whose windows are kept. -/
theorem Keeps.combine {first : Decoder α} {second : Decoder β}
    {combine : α → β → γ} {both : γ → List ByteCursor}
    (before : first.Keeps held) (behind : second.Keeps windows)
    (splits : ∀ left right,
      both (combine left right) = held left ++ windows right) :
    Keeps both (do
      let left ← first
      let right ← second
      pure (combine left right)) := by
  intro cursor result after run
  obtain ⟨left, between, ran, rest⟩ := bind_eq_ok_iff.mp run
  obtain ⟨right, behindBoth, ranNext, made⟩ := bind_eq_ok_iff.mp rest
  cases made
  obtain ⟨reaches, shown⟩ := before _ _ _ ran
  obtain ⟨further, shownNext⟩ := behind _ _ _ ranNext
  refine ⟨reaches.trans further, ?_⟩
  intro part member
  rw [splits] at member
  rcases List.mem_append.mp member with here | there
  · exact shown part here
  · exact reaches.shows.trans (shownNext part there)

theorem Keeps.replicate {decoder : Decoder α} (keeps : decoder.Keeps held)
    (count : Nat) :
    (decoder.replicate count).Keeps (·.flatMap held) := by
  induction count with
  | zero =>
      intro cursor values after run
      cases run
      exact ⟨.refl cursor, by simp⟩
  | succ count induction =>
      exact keeps.combine induction fun _ _ => List.flatMap_cons

theorem Keeps.vector {element : Decoder α} (keeps : element.Keeps held) :
    element.vector.Keeps (·.flatMap held) :=
  SequenceLaw.selfDelimiting.uint32.keeps.bind fun length =>
    keeps.replicate length.toNat

theorem Keeps.nonemptyVector {element : Decoder α}
    (keeps : element.Keeps held) :
    element.nonemptyVector.Keeps (·.flatMap held) := by
  intro cursor values after run
  obtain ⟨start, _, got, rest⟩ := bind_eq_ok_iff.mp run
  cases got
  refine SequenceLaw.selfDelimiting.uint32.keeps.bind ?_ cursor values
    after rest
  intro length
  split
  · intro _ _ _ failed
    cases failed
  · exact keeps.replicate length.toNat

theorem Keeps.exhaust {decoder : Decoder α} (keeps : decoder.Keeps held) :
    decoder.exhaust.Keeps held := by
  intro cursor value after run
  exact keeps _ _ _ (exhaust_eq_ok_iff.mp run).1

theorem Keeps.alternative {first second : Decoder α} (left : first.Keeps held)
    (right : second.Keeps held) : (first.alternative second).Keeps held := by
  intro cursor value after run
  unfold Decoder.alternative at run
  split at run
  · exact right _ _ _ run
  · exact left _ _ _ run

theorem Keeps.commit {decoder : Decoder α} (keeps : decoder.Keeps held) :
    decoder.commit.Keeps held := by
  intro cursor value after run
  unfold Decoder.commit at run
  cases ran : decoder cursor with
  | error failure =>
      rw [ran] at run
      cases run
  | ok result =>
      rw [ran] at run
      cases run
      exact keeps _ _ _ ran

theorem Keeps.within {decoder : Decoder α} (keeps : decoder.Keeps held)
    (count : UInt32) :
    (within count decoder).Keeps held := by
  intro cursor value after run
  obtain ⟨part, behind, split, rest⟩ := bind_eq_ok_iff.mp run
  obtain ⟨reaches, shown⟩ := keeps_window count _ _ _ split
  cases read : decoder.exhaust part with
  | error failure =>
      simp only [read] at rest
      cases rest
  | ok result =>
      simp only [read] at rest
      cases rest
      have inner := (keeps.exhaust _ _ _ read).2
      refine ⟨reaches, ?_⟩
      intro window member
      exact (shown part List.mem_cons_self).trans (inner window member)

end Combinators

theorem Exposes.keeps {exposed : Decoder (α × List ByteCursor)}
    {decoder : Decoder α} (exposes : Exposes exposed decoder) :
    exposed.Keeps Prod.snd := by
  induction exposes with
  | elementary elementary =>
      exact (SequenceLaw.selfDelimiting.elementary elementary).keeps.rearrange
        fun _ => rfl
  | window count => exact (keeps_window count).rearrange fun _ => rfl
  | nonemptyVector _ induction =>
      exact induction.nonemptyVector.rearrange fun _ => rfl
  | vector _ induction => exact induction.vector.rearrange fun _ => rfl
  | @pair _ _ left right _ _ _ _ here there =>
      have both : (left.pair right).Keeps fun both => both.1.2 ++ both.2.2 :=
        here.combine there fun _ _ => rfl
      exact both.rearrange fun _ => rfl
  | preceded _ _ left right => exact left.bind fun _ => right
  | alternative _ _ left right => exact left.alternative right
  -- A window that was cut out lies in one that was returned, and that one lies
  -- ahead.
  | map convert cut inside _ induction =>
      exact induction.map fun value part member =>
        inside value.1 value.2 part member
  | exhaust _ induction => exact induction.exhaust
  | commit _ induction => exact induction.commit
  | within count _ induction => exact induction.within count

end Decoder

end Wasm
