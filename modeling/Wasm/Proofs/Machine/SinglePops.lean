import Wasm.Proofs.Machine.OperandConservation

/-!
# Pops of several values and of single ones

A pop of several values takes what single pops would take one after the other,
from the last type to the first.  Where a single pop fails, the pop of several
values fails for the same reason and counts the values above that place.  The
single pops have then taken these values off, and the pop of several values has
taken none.
-/

namespace Wasm

/-- The same trap, with another depth if it is about a missing operand. -/
def Trap.atDepth (depth : Nat) : Trap → Trap
  | .missingOperand expected _ => .missingOperand expected depth
  | trap => trap

namespace OperandStack

/-- Pops a value for each type in order and stops at the first failure. -/
def popEach (stack : OperandStack) :
    List ValueType → Except Trap (List Value × OperandStack)
  | [] => .ok ([], stack)
  | type :: types => do
      let (value, rest) ← stack.popValue type
      let (values, last) ← rest.popEach types
      pure (value :: values, last)

/-- So many single pops succeed as the depth says, and the next one fails on
what is left. -/
def StopsAt (stack : OperandStack) (types : List ValueType) (depth : Nat)
    (left : OperandStack) (trap : Trap) : Prop :=
  ∃ before type behind popped, types = before ++ type :: behind ∧
    before.length = depth ∧
    stack.popEach before = .ok (popped, left) ∧ left.popValue type = .error trap

section Pops

variable {stack rest left : OperandStack} {type : ValueType}
  {types : List ValueType} {popped : List Value} {value : Value} {trap : Trap}
  {depth : Nat}

theorem popValue_eq_ok_iff :
    stack.popValue type = .ok (value, rest) ↔
      stack.values = value :: rest.values ∧ value.type = type := by
  obtain ⟨values⟩ := stack
  obtain ⟨others⟩ := rest
  cases values with
  | nil => simp [popValue]
  | cons top values =>
      by_cases same : top.type = type
      · simp only [popValue, if_pos same, Except.ok.injEq, Prod.mk.injEq,
          mk.injEq, List.cons.injEq]
        constructor
        · rintro ⟨rfl, rfl⟩
          exact ⟨⟨rfl, rfl⟩, same⟩
        · rintro ⟨⟨rfl, rfl⟩, _⟩
          exact ⟨rfl, rfl⟩
      · simp only [popValue, if_neg same, List.cons.injEq, reduceCtorEq,
          false_iff]
        rintro ⟨⟨rfl, _⟩, again⟩
        exact same again

theorem cases_of_popValue_eq_error
    (failed : stack.popValue type = .error trap) :
    stack.values = [] ∧ trap = .missingOperand type 0 ∨
      ∃ top others, stack.values = top :: others ∧ top.type ≠ type ∧
        trap = .typeMismatch type top.type := by
  obtain ⟨values⟩ := stack
  unfold popValue at failed
  split at failed
  · rename_i empty
    cases failed
    exact .inl ⟨empty, rfl⟩
  · rename_i top others there
    split at failed
    · cases failed
    · rename_i differs
      cases failed
      exact .inr ⟨top, others, there, differs, rfl⟩

theorem popEach_cons_eq_ok_iff :
    stack.popEach (type :: types) = .ok (popped, rest) ↔
      ∃ value left values, popped = value :: values ∧
        stack.popValue type = .ok (value, left) ∧
        left.popEach types = .ok (values, rest) := by
  rw [popEach]
  cases first : stack.popValue type with
  | error trap =>
      constructor
      · nofun
      · rintro ⟨_, _, _, _, impossible, _⟩
        cases impossible
  | ok parts =>
      obtain ⟨value, left⟩ := parts
      change (left.popEach types >>= fun parts =>
        pure (value :: parts.1, parts.2)) = _ ↔ _
      cases later : left.popEach types with
      | error trap =>
          constructor
          · nofun
          · rintro ⟨_, _, _, _, same, impossible⟩
            cases same
            rw [later] at impossible
            cases impossible
      | ok others =>
          obtain ⟨values, last⟩ := others
          constructor
          · intro done
            cases done
            exact ⟨value, left, values, rfl, rfl, later⟩
          · rintro ⟨_, _, _, rfl, same, again⟩
            cases same
            rw [later] at again
            cases again
            rfl

/-- Single pops take values of the given types from the top. -/
theorem popEach_eq_ok_iff :
    stack.popEach types = .ok (popped, rest) ↔
      stack.values = popped ++ rest.values ∧ popped.map Value.type = types := by
  induction types generalizing stack popped with
  | nil =>
      rw [popEach, List.map_eq_nil_iff]
      constructor
      · intro done
        cases done
        exact ⟨rfl, rfl⟩
      · rintro ⟨whole, rfl⟩
        obtain ⟨values⟩ := stack
        cases whole
        rfl
  | cons type types induction =>
      rw [popEach_cons_eq_ok_iff]
      constructor
      · rintro ⟨value, left, values, rfl, first, later⟩
        obtain ⟨whole, rfl⟩ := popValue_eq_ok_iff.mp first
        obtain ⟨remaining, rfl⟩ := induction.mp later
        rw [whole, remaining]
        exact ⟨rfl, rfl⟩
      · rintro ⟨whole, typed⟩
        cases popped with
        | nil => cases typed
        | cons value values =>
            obtain ⟨rfl, rfl⟩ := List.cons.inj typed
            exact ⟨value, ⟨values ++ rest.values⟩, values, rfl,
              popValue_eq_ok_iff.mpr ⟨whole, rfl⟩, induction.mpr ⟨rfl, rfl⟩⟩

/-- Single pops of all types succeed or stop at some depth. -/
theorem popEach_cases (stack : OperandStack) (types : List ValueType) :
    (∃ popped rest, stack.popEach types = .ok (popped, rest)) ∨
      ∃ depth left trap, stack.StopsAt types depth left trap := by
  induction types generalizing stack with
  | nil => exact .inl ⟨[], stack, rfl⟩
  | cons type types induction =>
      cases first : stack.popValue type with
      | error trap =>
          exact .inr ⟨0, stack, trap, [], type, types, [], rfl, rfl, rfl, first⟩
      | ok parts =>
          obtain ⟨value, next⟩ := parts
          rcases induction next with ⟨popped, rest, done⟩ |
            ⟨_, left, trap, before, wrong, behind, popped, rfl, rfl,
              done, failed⟩
          · left
            exact ⟨_, rest,
              popEach_cons_eq_ok_iff.mpr ⟨value, next, popped, rfl,
                first, done⟩⟩
          · right
            have longer :=
              popEach_cons_eq_ok_iff.mpr ⟨value, next, popped, rfl, first, done⟩
            exact ⟨_, left, trap, type :: before, wrong, behind, _, rfl, rfl,
              longer, failed⟩

/-! ## Pops of several values -/

theorem popValues_of_popEach
    (done : stack.popEach types.reverse = .ok (popped, rest)) :
    stack.popValues types = .ok (popped.reverse, rest) := by
  obtain ⟨whole, typed⟩ := popEach_eq_ok_iff.mp done
  apply popValues_eq_ok_iff.mpr
  constructor
  · rw [toList, whole, List.reverse_append]
    rfl
  · rw [List.map_reverse, typed, List.reverse_reverse]

theorem popValues_of_stopsAt
    (stops : stack.StopsAt types.reverse depth left trap) :
    stack.popValues types = .error (trap.atDepth depth) := by
  obtain ⟨before, type, behind, popped, split, rfl, done, failed⟩ := stops
  obtain ⟨whole, rfl⟩ := popEach_eq_ok_iff.mp done
  apply popValues_eq_error_iff.mpr
  refine ⟨popped, type, behind, split, ?_⟩
  rw [List.length_map, Nat.zero_add]
  rcases cases_of_popValue_eq_error failed with
    ⟨empty, rfl⟩ | ⟨top, others, leftover, differs, rfl⟩
  · rw [whole, empty, List.append_nil]
    exact .inl ⟨rfl, rfl⟩
  · rw [whole, leftover]
    exact .inr ⟨top, others, rfl, differs, rfl⟩

/-! ## Pops of numbers -/

theorem pop_of_popValue (taken : stack.popValue type = .ok (value, rest)) :
    ∃ number, value = Value.ofNumber type number ∧
      value.number type = .ok number ∧
      stack.pop type = .ok (number, rest) := by
  obtain ⟨number, isNumber⟩ := exists_number (type_of_popValue taken)
  have converted := Value.number_eq_ok_iff.mpr isNumber
  refine ⟨number, isNumber, converted, ?_⟩
  rw [pop, taken]
  change (value.number type >>= fun number => pure (number, rest)) = _
  rw [converted]
  rfl

theorem pop_of_popValue_error (failed : stack.popValue type = .error trap) :
    stack.pop type = .error trap := by
  rw [pop, failed]
  rfl

end Pops

namespace InPlace

section Pops

variable {stack rest left : OperandStack} {type : ValueType}
  {types : List ValueType} {popped : List Value} {value : Value} {trap : Trap}
  {depth : Nat}

theorem popValue_of_ok (taken : stack.popValue type = .ok (value, rest)) :
    popValue type stack.toArray = .ok value rest.toArray := by
  rw [popValue_eq, taken]

theorem popValue_of_error (failed : stack.popValue type = .error trap) :
    popValue type stack.toArray = .error trap stack.toArray := by
  rw [popValue_eq, failed]

theorem mapM_popValue_of_popEach
    (done : stack.popEach types = .ok (popped, rest)) :
    types.mapM popValue stack.toArray = .ok popped rest.toArray := by
  induction types generalizing stack popped with
  | nil =>
      cases done
      rfl
  | cons type types induction =>
      obtain ⟨value, left, values, rfl, first, later⟩ :=
        popEach_cons_eq_ok_iff.mp done
      rw [List.mapM_cons, Session.bind_of_ok (popValue_of_ok first),
        Session.bind_of_ok (induction later)]
      rfl

/-- Single pops that stop have taken the values above the place off. -/
theorem mapM_popValue_of_stopsAt (stops : stack.StopsAt types depth left trap) :
    types.mapM popValue stack.toArray = .error trap left.toArray := by
  obtain ⟨before, type, behind, popped, rfl, _, done, failed⟩ := stops
  rw [List.mapM_append, Session.bind_of_ok (mapM_popValue_of_popEach done)]
  apply Session.bind_of_error
  rw [List.mapM_cons]
  exact Session.bind_of_error (popValue_of_error failed)

theorem popValues_of_ok (taken : stack.popValues types = .ok (popped, rest)) :
    popValues types stack.toArray = .ok popped rest.toArray := by
  rw [popValues_eq, taken]

theorem popValues_of_error (failed : stack.popValues types = .error trap) :
    popValues types stack.toArray = .error trap stack.toArray := by
  rw [popValues_eq, failed]

theorem pop_of_ok {number : type.Number}
    (taken : stack.popValue type = .ok (value, rest))
    (converted : value.number type = .ok number) :
    pop type stack.toArray = .ok number rest.toArray := by
  refine (Session.bind_of_ok (popValue_of_ok taken)).trans ?_
  rw [converted]
  rfl

theorem pop_of_error (failed : stack.popValue type = .error trap) :
    pop type stack.toArray = .error trap stack.toArray :=
  Session.bind_of_error (popValue_of_error failed)

end Pops

end InPlace

/-- Popping several values is popping single ones from the last type to the
first, as long as these succeed.  Where a single pop fails, popping several
fails with the same trap at the depth of that place, and in place leaves all
values where they were.  Popping a number is popping the value that it makes,
and its number can always be had. -/
theorem several_pops_are_single_pops (stack : OperandStack)
    (types : List ValueType) :
    (∀ popped rest, stack.popEach types.reverse = .ok (popped, rest) →
      stack.popValues types = .ok (popped.reverse, rest) ∧
      types.reverse.mapM InPlace.popValue stack.toArray =
        .ok popped rest.toArray ∧
      InPlace.popValues types stack.toArray = .ok popped.reverse rest.toArray) ∧
    (∀ depth left trap, stack.StopsAt types.reverse depth left trap →
      (∀ expected found, trap = .missingOperand expected found → found = 0) ∧
      stack.popValues types = .error (trap.atDepth depth) ∧
      types.reverse.mapM InPlace.popValue stack.toArray =
        .error trap left.toArray ∧
      InPlace.popValues types stack.toArray =
        .error (trap.atDepth depth) stack.toArray) ∧
    ((∃ popped rest, stack.popEach types.reverse = .ok (popped, rest)) ∨
      ∃ depth left trap, stack.StopsAt types.reverse depth left trap) ∧
    ∀ type,
      (∀ value rest, stack.popValue type = .ok (value, rest) →
        InPlace.popValue type stack.toArray = .ok value rest.toArray ∧
        ∃ number, value = Value.ofNumber type number ∧
          value.number type = .ok number ∧
          stack.pop type = .ok (number, rest) ∧
          InPlace.pop type stack.toArray = .ok number rest.toArray) ∧
      (∀ trap, stack.popValue type = .error trap →
        InPlace.popValue type stack.toArray = .error trap stack.toArray ∧
        stack.pop type = .error trap ∧
        InPlace.pop type stack.toArray = .error trap stack.toArray) := by
  refine ⟨?_, ?_, popEach_cases stack types.reverse, fun type => ⟨?_, ?_⟩⟩
  · intro popped rest done
    have taken := popValues_of_popEach done
    exact ⟨taken, InPlace.mapM_popValue_of_popEach done,
      InPlace.popValues_of_ok taken⟩
  · intro depth left trap stops
    have failed := popValues_of_stopsAt stops
    refine ⟨?_, failed, InPlace.mapM_popValue_of_stopsAt stops,
      InPlace.popValues_of_error failed⟩
    rintro expected found rfl
    obtain ⟨_, _, _, _, _, _, _, single⟩ := stops
    rcases cases_of_popValue_eq_error single with ⟨_, same⟩ | ⟨_, _, _, _, same⟩
    · exact (Trap.missingOperand.inj same).2
    · cases same
  · intro value rest taken
    obtain ⟨number, isNumber, converted, popped⟩ := pop_of_popValue taken
    exact ⟨InPlace.popValue_of_ok taken, number, isNumber, converted, popped,
      InPlace.pop_of_ok taken converted⟩
  · intro trap failed
    exact ⟨InPlace.popValue_of_error failed, pop_of_popValue_error failed,
      InPlace.pop_of_error failed⟩

/-- Behind one value that fits, the next place has none: the single pops have
taken the value off, the pop of several values has not. -/
theorem several_pops_keep_value_above_missing_one :
    [.i32, .i64].mapM InPlace.popValue #[.i32 7] =
      .error (.missingOperand .i64 0) #[] ∧
    InPlace.popValues [.i64, .i32] #[.i32 7] =
      .error (.missingOperand .i64 1) #[.i32 7] := by
  obtain ⟨_, stops, _⟩ := several_pops_are_single_pops ⟨[.i32 7]⟩ [.i64, .i32]
  obtain ⟨_, _, single, several⟩ := stops 1 ⟨[]⟩ (.missingOperand .i64 0)
    ⟨[.i32], .i64, [], [.i32 7], rfl, rfl, rfl, rfl⟩
  exact ⟨single, several⟩

end OperandStack

end Wasm
