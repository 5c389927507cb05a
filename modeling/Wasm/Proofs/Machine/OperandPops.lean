import Wasm.Machine.OperandStack

/-!
# Pops of several values

A pop of several values succeeds if the topmost values have the expected types.
Otherwise it fails at the first place from the top where the stack ends or has a
value of another type, and the trap is about that place.
-/

namespace Wasm.OperandStack

/-- Behind some values of the expected types the values end, or there is one of
another type, and the trap says so. -/
def Misfit (depth : Nat) (expected : List ValueType) (values : List Value)
    (trap : Trap) : Prop :=
  ∃ matched type others,
    expected = List.map Value.type matched ++ type :: others ∧
    (values = matched ∧ trap = .missingOperand type (depth + matched.length) ∨
      ∃ value rest, values = matched ++ value :: rest ∧ value.type ≠ type ∧
        trap = .typeMismatch type value.type)

theorem splitTypes_matched (matched : List Value) (depth : Nat)
    (expected : List ValueType) (values : List Value) :
    splitTypes depth (matched.map Value.type ++ expected) (matched ++ values) =
      (splitTypes (depth + matched.length) expected values).map
        fun (taken, rest) => (matched ++ taken, rest) := by
  induction matched generalizing depth with
  | nil =>
      change _ = Except.map id _
      rw [Except.map_id]
      rfl
  | cons first matched induction =>
      have step :
          splitTypes depth (first.type :: (matched.map Value.type ++ expected))
            (first :: (matched ++ values)) =
              (splitTypes (depth + 1) (matched.map Value.type ++ expected)
                (matched ++ values)).map
                fun (taken, rest) => (first :: taken, rest) :=
        if_pos rfl
      rw [List.map_cons, List.cons_append, List.cons_append, step, induction,
        List.length_cons, Nat.add_assoc, Nat.add_comm 1]
      cases splitTypes (depth + (matched.length + 1)) expected values <;> rfl

theorem splitTypes_of_types (taken rest : List Value) (depth : Nat) :
    splitTypes depth (taken.map Value.type) (taken ++ rest) =
      .ok (taken, rest) := by
  have matched := splitTypes_matched taken depth [] rest
  rw [List.append_nil] at matched
  rw [matched]
  simp [splitTypes, Except.map]

theorem splitTypes_of_misfit {depth : Nat} {expected : List ValueType}
    {values : List Value} {trap : Trap}
    (misfit : Misfit depth expected values trap) :
    splitTypes depth expected values = .error trap := by
  obtain ⟨matched, type, others, rfl,
    ⟨rfl, rfl⟩ | ⟨value, rest, rfl, differs, rfl⟩⟩ := misfit
  · have ended := splitTypes_matched values depth (type :: others) []
    rwa [List.append_nil] at ended
  · rw [splitTypes_matched, splitTypes, if_neg differs]
    rfl

/-- Either the values start with values of the expected types, or there is a
first place that does not fit. -/
theorem types_or_misfit (expected : List ValueType) (values : List Value)
    (depth : Nat) :
    (∃ taken rest, values = taken ++ rest ∧ taken.map Value.type = expected) ∨
      ∃ trap, Misfit depth expected values trap := by
  induction expected generalizing values depth with
  | nil => exact .inl ⟨[], values, rfl, rfl⟩
  | cons type others induction =>
      cases values with
      | nil => exact .inr ⟨_, [], type, others, rfl, .inl ⟨rfl, rfl⟩⟩
      | cons value values =>
          by_cases same : value.type = type
          · subst same
            rcases induction values (depth + 1) with
              ⟨taken, rest, rfl, rfl⟩ | ⟨trap, matched, wrong, later,
                rfl, reason⟩
            · exact .inl ⟨value :: taken, rest, rfl, rfl⟩
            · refine .inr ⟨trap, value :: matched, wrong, later, rfl, ?_⟩
              rcases reason with ⟨rfl, rfl⟩ | ⟨found, rest, rfl, differs, rfl⟩
              · rw [List.length_cons, Nat.add_assoc, Nat.add_comm 1]
                exact .inl ⟨rfl, rfl⟩
              · exact .inr ⟨found, rest, rfl, differs, rfl⟩
          · exact .inr ⟨_, [], type, others, rfl,
              .inr ⟨value, values, rfl, same, rfl⟩⟩

theorem splitTypes_eq_ok_iff {depth : Nat} {expected : List ValueType}
    {values taken rest : List Value} :
    splitTypes depth expected values = .ok (taken, rest) ↔
      values = taken ++ rest ∧ taken.map Value.type = expected := by
  constructor
  · intro split
    rcases types_or_misfit expected values depth with
      ⟨found, behind, rfl, rfl⟩ | ⟨trap, misfit⟩
    · rw [splitTypes_of_types] at split
      cases split
      exact ⟨rfl, rfl⟩
    · rw [splitTypes_of_misfit misfit] at split
      cases split
  · rintro ⟨rfl, rfl⟩
    exact splitTypes_of_types taken rest depth

theorem splitTypes_eq_error_iff {depth : Nat} {expected : List ValueType}
    {values : List Value} {trap : Trap} :
    splitTypes depth expected values = .error trap ↔
      Misfit depth expected values trap := by
  constructor
  · intro failed
    rcases types_or_misfit expected values depth with
      ⟨found, behind, rfl, rfl⟩ | ⟨other, misfit⟩
    · rw [splitTypes_of_types] at failed
      cases failed
    · rw [splitTypes_of_misfit misfit] at failed
      cases failed
      exact misfit
  · exact splitTypes_of_misfit

theorem popValues_eq_ok_iff {stack rest : OperandStack}
    {expected : List ValueType} {values : List Value} :
    stack.popValues expected = .ok (values, rest) ↔
      stack.toList = rest.toList ++ values ∧
        values.map Value.type = expected := by
  have reversed :
      splitTypes 0 expected.reverse stack.values =
        .ok (values.reverse, rest.values) ↔
      stack.toList = rest.toList ++ values ∧
        values.map Value.type = expected := by
    rw [splitTypes_eq_ok_iff, List.map_reverse, List.reverse_inj,
      ← List.reverse_inj]
    simp [toList]
  rw [← reversed]
  unfold popValues
  cases splitTypes 0 expected.reverse stack.values with
  | error trap => simp [bind, Except.bind]
  | ok parts =>
      obtain ⟨taken, remaining⟩ := parts
      obtain ⟨restValues⟩ := rest
      simp [bind, Except.bind, pure, Except.pure, List.reverse_eq_iff]

theorem popValues_eq_error_iff {stack : OperandStack}
    {expected : List ValueType} {trap : Trap} :
    stack.popValues expected = .error trap ↔
      Misfit 0 expected.reverse stack.values trap := by
  rw [← splitTypes_eq_error_iff]
  unfold popValues
  cases splitTypes 0 expected.reverse stack.values <;> simp [bind, Except.bind,
    pure, Except.pure]

/-! ## Distances from the top -/

/-- The value at a distance from the top. -/
def atDistance? (stack : OperandStack) (distance : Nat) : Option Value :=
  stack.toList.reverse[distance]?

/-- The type that is expected at a distance from the top. -/
def typeAtDistance? (expected : List ValueType) (distance : Nat) :
    Option ValueType :=
  if distance < expected.length then expected[expected.length - 1 - distance]?
    else none

/-- The distance is the least one at which the stack has no value or one of
another type than the expected one, and the trap says what is there. -/
def RefusesAt (stack : OperandStack) (expected : List ValueType)
    (distance : Nat) (trap : Trap) : Prop :=
  ∃ type, typeAtDistance? expected distance = some type ∧
    (∀ nearer < distance,
      (stack.atDistance? nearer).map Value.type =
        typeAtDistance? expected nearer) ∧
    (stack.atDistance? distance = none ∧ trap = .missingOperand type distance ∨
      ∃ value, stack.atDistance? distance = some value ∧ value.type ≠ type ∧
        trap = .typeMismatch type value.type)

theorem typeAtDistance?_eq (expected : List ValueType) (distance : Nat) :
    typeAtDistance? expected distance = expected.reverse[distance]? := by
  unfold typeAtDistance?
  split
  · rename_i inside
    rw [List.getElem?_reverse inside]
  · rename_i outside
    rw [List.getElem?_eq_none (by simpa using outside)]

theorem misfit_iff {expected : List ValueType} {values : List Value}
    {trap : Trap} :
    Misfit 0 expected values trap ↔
      ∃ distance type, expected[distance]? = some type ∧
        (∀ nearer < distance,
          values[nearer]?.map Value.type = expected[nearer]?) ∧
        (values[distance]? = none ∧ trap = .missingOperand type distance ∨
          ∃ value, values[distance]? = some value ∧ value.type ≠ type ∧
            trap = .typeMismatch type value.type) := by
  constructor
  · rintro ⟨matched, type, others, rfl, reason⟩
    refine ⟨matched.length, type, by simp, ?_, ?_⟩
    · intro nearer before
      have sameType : (matched.map Value.type ++ type :: others)[nearer]? =
          matched[nearer]?.map Value.type := by
        rw [List.getElem?_append_left (by simpa using before),
          List.getElem?_map]
      rw [sameType]
      rcases reason with ⟨rfl, _⟩ | ⟨value, rest, rfl, _⟩
      · rfl
      · rw [List.getElem?_append_left before]
    · rcases reason with ⟨rfl, rfl⟩ | ⟨value, rest, rfl, differs, rfl⟩
      · exact .inl ⟨by simp, by rw [Nat.zero_add]⟩
      · exact .inr ⟨value, by simp, differs, rfl⟩
  · rintro ⟨distance, type, found, fits, reason⟩
    have types :
        (values.take distance).map Value.type = expected.take distance := by
      apply List.ext_getElem?
      intro nearer
      rw [List.getElem?_map, List.getElem?_take, List.getElem?_take]
      split
      · rename_i before
        exact fits nearer before
      · rfl
    obtain ⟨inside, rfl⟩ := List.getElem?_eq_some_iff.mp found
    have expectedSplit : expected =
        (values.take distance).map Value.type ++ expected[distance] ::
          expected.drop (distance + 1) := by
      rw [types, ← List.drop_eq_getElem_cons inside, List.take_append_drop]
    -- Every type before the distance has a value, so there are that many
    -- values.
    have enough : (values.take distance).length = distance := by
      have lengths := congrArg List.length types
      rw [List.length_map, List.length_take (l := expected)] at lengths
      omega
    refine ⟨values.take distance, expected[distance],
      expected.drop (distance + 1), expectedSplit, ?_⟩
    rcases reason with ⟨ended, rfl⟩ | ⟨value, there, differs, rfl⟩
    · left
      have short := List.getElem?_eq_none_iff.mp ended
      rw [enough, Nat.zero_add]
      exact ⟨(List.take_of_length_le short).symm, rfl⟩
    · right
      obtain ⟨valueInside, rfl⟩ := List.getElem?_eq_some_iff.mp there
      refine ⟨_, values.drop (distance + 1), ?_, differs, rfl⟩
      rw [← List.drop_eq_getElem_cons valueInside, List.take_append_drop]

theorem popValues_eq_error_iff_refusesAt {stack : OperandStack}
    {expected : List ValueType} {trap : Trap} :
    stack.popValues expected = .error trap ↔
      ∃ distance, stack.RefusesAt expected distance trap := by
  rw [popValues_eq_error_iff, misfit_iff]
  simp only [RefusesAt, typeAtDistance?_eq, atDistance?, toList,
    List.reverse_reverse]

theorem popValues_succeeds_iff {stack : OperandStack}
    {expected : List ValueType} :
    (∃ values rest, stack.popValues expected = .ok (values, rest)) ↔
      expected.length ≤ stack.size ∧
        (stack.toList.drop (stack.size - expected.length)).map Value.type =
          expected := by
  have size : stack.size = stack.toList.length := by
    simp [OperandStack.size, toList]
  simp only [popValues_eq_ok_iff, size]
  constructor
  · rintro ⟨values, rest, whole, rfl⟩
    simp [whole]
  · rintro ⟨enough, types⟩
    refine ⟨stack.toList.drop (stack.toList.length - expected.length),
      ⟨(stack.toList.take (stack.toList.length - expected.length)).reverse⟩,
      ?_, types⟩
    simp only [toList, List.reverse_reverse]
    rw [List.take_append_drop]

end Wasm.OperandStack
