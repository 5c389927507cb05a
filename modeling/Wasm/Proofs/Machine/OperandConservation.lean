import Wasm.Proofs.Machine.OperandPops
import Wasm.Proofs.Machine.Session

/-!
# No operand is lost

Every value that is pushed is returned by a later pop or still on the stack.
The operations can be carried out in place, on an array that is changed step by
step.  A value that is taken off and then turns out not to fit is put back, so a
failing operation leaves the array as it was.
-/

namespace Wasm.OperandStack

/-! ## Calls -/

/-- A call of an operation on a stack. -/
inductive Call where
  | push (value : Value)
  | popValue (expected : ValueType)
  /-- A pop of the number that a value is made of. -/
  | pop (expected : ValueType)
  | popValues (expected : List ValueType)
deriving DecidableEq

namespace Call

/-- The values that a call returns and the stack behind it. -/
def outcome (call : Call) (stack : OperandStack) :
    Except Trap (List Value × OperandStack) :=
  match call with
  | .push value => .ok ([], stack.push value)
  | .popValue expected =>
      (stack.popValue expected).map fun (value, rest) => ([value], rest)
  | .pop expected =>
      (stack.pop expected).map fun (number, rest) =>
        ([Value.ofNumber expected number], rest)
  | .popValues expected => stack.popValues expected

/-- The values that a call puts on the stack. -/
def operands : Call → List Value
  | .push value => [value]
  | _ => []

end Call

/-- Popping one value is popping the values of a list of one type. -/
theorem Call.outcome_popValue (expected : ValueType) (stack : OperandStack) :
    (Call.popValue expected).outcome stack = stack.popValues [expected] := by
  obtain ⟨values⟩ := stack
  cases values with
  | nil => rfl
  | cons value values =>
      by_cases same : value.type = expected
      · subst same
        simp [outcome, OperandStack.popValue, OperandStack.popValues,
          splitTypes, bind, pure, Except.map, Except.bind, Except.pure]
      · simp [outcome, OperandStack.popValue, OperandStack.popValues,
          splitTypes, same, bind, Except.map, Except.bind]

/-- The number of a value that has been popped can always be had. -/
theorem Call.outcome_pop (expected : ValueType) (stack : OperandStack) :
    (Call.pop expected).outcome stack =
      (Call.popValue expected).outcome stack := by
  obtain ⟨values⟩ := stack
  cases values with
  | nil => rfl
  | cons value values =>
      by_cases same : value.type = expected
      · subst same
        cases value <;> rfl
      · simp [outcome, OperandStack.pop, OperandStack.popValue, same, bind,
          Except.map, Except.bind]

/-- What was on the stack and what a call puts there is what is on the stack
afterwards and what the call returns. -/
theorem Call.outcome_conserves {call : Call} {stack next : OperandStack}
    {returned : List Value} (done : call.outcome stack = .ok (returned, next)) :
    stack.toList ++ call.operands = next.toList ++ returned := by
  have popped : ∀ {expected}, stack.popValues expected = .ok (returned, next) →
      stack.toList ++ [] = next.toList ++ returned := by
    intro expected taken
    rw [List.append_nil]
    exact (popValues_eq_ok_iff.mp taken).1
  cases call with
  | push value =>
      cases done
      simp [operands]
  | popValue expected =>
      rw [outcome_popValue] at done
      exact popped done
  | pop expected =>
      rw [outcome_pop, outcome_popValue] at done
      exact popped done
  | popValues expected => exact popped done

/-- A call that fails puts nothing on the stack. -/
theorem Call.operands_of_error {call : Call} {stack : OperandStack}
    {trap : Trap} (failed : call.outcome stack = .error trap) :
    call.operands = [] := by
  cases call with
  | push value => cases failed
  | popValue expected => rfl
  | pop expected => rfl
  | popValues expected => rfl

/-- Carries out a call; the stack is kept if it fails. -/
def Call.perform (call : Call) : EStateM Trap OperandStack (List Value) :=
  Session.keeping call.outcome

/-- The values that the calls of a history have put on the stack. -/
def pushed (history : List (Call × Except Trap (List Value))) : List Value :=
  history.flatMap fun (call, _) => call.operands

/-- The values that the calls of a history have returned. -/
def returned (history : List (Call × Except Trap (List Value))) : List Value :=
  history.flatMap fun (_, answer) => answer.toOption.getD []

theorem run_conserves (calls : List Call) (stack : OperandStack) :
    (stack.toList ++ pushed (Session.run Call.perform calls stack).1).Perm
      ((Session.run Call.perform calls stack).2.toList ++
        returned (Session.run Call.perform calls stack).1) := by
  induction calls generalizing stack with
  | nil => exact .refl _
  | cons call calls induction =>
      cases done : call.outcome stack with
      | error trap =>
          have performed : call.perform stack = .error trap stack :=
            Session.keeping_of_error done
          rw [Session.run_of_error performed]
          change (stack.toList ++ (call.operands ++ _)).Perm _
          rw [Call.operands_of_error done]
          exact induction stack
      | ok parts =>
          obtain ⟨values, next⟩ := parts
          have step := Call.outcome_conserves done
          have later := induction next
          have performed : call.perform stack = .ok values next :=
            Session.keeping_of_ok done
          rw [Session.run_of_ok performed]
          generalize Session.run Call.perform calls next = result at later ⊢
          obtain ⟨history, last⟩ := result
          change (stack.toList ++ (call.operands ++ pushed history)).Perm
            (last.toList ++ (values ++ returned history))
          calc stack.toList ++ (call.operands ++ pushed history)
            _ = next.toList ++ (values ++ pushed history) := by
                rw [← List.append_assoc, step, List.append_assoc]
            _ |>.Perm (next.toList ++ (pushed history ++ values)) :=
                List.perm_append_comm.append_left next.toList
            _ = next.toList ++ pushed history ++ values :=
              (List.append_assoc ..).symm
            _ |>.Perm (last.toList ++ returned history ++ values) :=
              later.append_right values
            _ = last.toList ++ (returned history ++ values) :=
              List.append_assoc ..
            _ |>.Perm (last.toList ++ (values ++ returned history)) :=
                List.perm_append_comm.append_left last.toList

/-! ## Operations in place -/

theorem type_of_popValue {stack : OperandStack} {expected : ValueType}
    {parts : Value × OperandStack}
    (taken : stack.popValue expected = .ok parts) :
    parts.1.type = expected := by
  unfold popValue at taken
  split at taken
  · cases taken
  · split at taken
    · rename_i same
      cases taken
      exact same
    · cases taken

theorem exists_number {value : Value} {expected : ValueType}
    (same : value.type = expected) :
    ∃ number, value = Value.ofNumber expected number := by
  subst same
  cases value with
  | i32 number => exact ⟨number, rfl⟩
  | i64 number => exact ⟨number, rfl⟩
  | f32 number => exact ⟨number, rfl⟩
  | f64 number => exact ⟨number, rfl⟩

/-- The values of a stack in an array, the top one last. -/
def toArray (stack : OperandStack) : Array Value :=
  stack.toList.toArray

namespace InPlace

/-- Takes the last value off.  One of another type than the expected one is put
back. -/
def popValue (expected : ValueType) : EStateM Trap (Array Value) Value := do
  let values ← get
  match values.back? with
  | none => throw (.missingOperand expected 0)
  | some value =>
      set values.pop
      if value.type = expected then
        pure value
      else
        modify (·.push value)
        throw (.typeMismatch expected value.type)

/-- Takes the number off that the last value is made of.  Nothing is put back
once the value has been taken off. -/
def pop (expected : ValueType) :
    EStateM Trap (Array Value) expected.Number := do
  let value ← popValue expected
  ofExcept (value.number expected)

/-- Compares the type of the value at a distance from the end with the expected
one. -/
def check (expected : ValueType) (distance : Nat) :
    EStateM Trap (Array Value) Unit := do
  let values ← get
  if _inside : distance + 1 ≤ values.size then
    let value := values[values.size - (distance + 1)]
    if value.type = expected then
      pure ()
    else
      throw (.typeMismatch expected value.type)
  else
    throw (.missingOperand expected distance)

/-- Compares values with the expected types, from a distance from the end on. -/
def checkFrom : Nat → List ValueType → EStateM Trap (Array Value) Unit
  | _, [] => pure ()
  | distance, type :: others => do
      check type distance
      checkFrom (distance + 1) others

/-- Compares the last values with the expected types and cuts them off. -/
def popValues (expected : List ValueType) :
    EStateM Trap (Array Value) (List Value) := do
  checkFrom 0 expected.reverse
  let values ← get
  let base := values.size - expected.length
  set (values.take base)
  pure (values.drop base).toList

/-- Carries out a call. -/
def perform : Call → EStateM Trap (Array Value) (List Value)
  | .push value => do
      modify (·.push value)
      pure []
  | .popValue expected => do
      let value ← popValue expected
      pure [value]
  | .pop expected => do
      let number ← pop expected
      pure [Value.ofNumber expected number]
  | .popValues expected => popValues expected

section Checks

variable {values : List Value} {expected : ValueType} {distance : Nat}

theorem check_of_ended (ended : values.reverse[distance]? = none) :
    check expected distance values.toArray =
      .error (.missingOperand expected distance) values.toArray := by
  have outside : ¬ distance + 1 ≤ values.length := by
    have length := List.getElem?_eq_none_iff.mp ended
    rw [List.length_reverse] at length
    omega
  refine (Session.get_bind _).trans ?_
  simp only [List.size_toArray, dif_neg outside]
  rfl

theorem check_of_value {value : Value}
    (there : values.reverse[distance]? = some value) :
    check expected distance values.toArray =
      if value.type = expected then .ok () values.toArray
      else .error (.typeMismatch expected value.type) values.toArray := by
  obtain ⟨inside, found⟩ := List.getElem?_eq_some_iff.mp there
  rw [List.length_reverse] at inside
  rw [List.getElem_reverse] at found
  have same : values[values.length - (distance + 1)] = value := by
    rw [← found]
    congr 1
    omega
  refine (Session.get_bind _).trans ?_
  simp only [List.size_toArray, dif_pos (Nat.succ_le_of_lt inside),
    List.getElem_toArray, same]
  split <;> rfl

end Checks

theorem checkFrom_eq (values : List Value) (distance : Nat)
    (expected : List ValueType) :
    checkFrom distance expected values.toArray =
      match splitTypes distance expected (values.reverse.drop distance) with
      | .ok _ => .ok () values.toArray
      | .error trap => .error trap values.toArray := by
  induction expected generalizing distance with
  | nil => rfl
  | cons type others induction =>
      rw [checkFrom]
      cases there : values.reverse[distance]? with
      | none =>
          have ended : values.reverse.drop distance = [] :=
            List.drop_eq_nil_of_le (List.getElem?_eq_none_iff.mp there)
          rw [Session.bind_of_error (check_of_ended there), ended]
          rfl
      | some value =>
          have first : check type distance values.toArray = _ :=
            check_of_value there
          obtain ⟨inside, rfl⟩ := List.getElem?_eq_some_iff.mp there
          rw [List.drop_eq_getElem_cons inside, splitTypes]
          by_cases same : values.reverse[distance].type = type
          · rw [if_pos same] at first ⊢
            rw [Session.bind_of_ok first, induction]
            cases splitTypes (distance + 1) others
              (values.reverse.drop (distance + 1)) <;> rfl
          · rw [if_neg same] at first ⊢
            rw [Session.bind_of_error first]

theorem popValues_eq (stack : OperandStack) (expected : List ValueType) :
    popValues expected stack.toArray =
      match stack.popValues expected with
      | .ok (values, rest) => .ok values rest.toArray
      | .error trap => .error trap stack.toArray := by
  have compared := checkFrom_eq stack.toList 0 expected.reverse
  rw [List.drop_zero, toList, List.reverse_reverse] at compared
  cases taken : stack.popValues expected with
  | error trap =>
      rw [splitTypes_eq_error_iff.mpr (popValues_eq_error_iff.mp taken)]
        at compared
      exact Session.bind_of_error compared
  | ok parts =>
      obtain ⟨values, rest⟩ := parts
      obtain ⟨whole, rfl⟩ := popValues_eq_ok_iff.mp taken
      have same : splitTypes 0 (values.map Value.type).reverse stack.values =
          .ok (values.reverse, rest.values) := by
        rw [← List.map_reverse]
        apply splitTypes_eq_ok_iff.mpr
        refine ⟨?_, rfl⟩
        rw [← List.reverse_inj]
        simpa [toList] using whole
      rw [same] at compared
      have base :
          stack.toArray.size - (values.map Value.type).length =
            rest.toList.length := by
        simp [toArray, whole]
      have kept : stack.toArray.take rest.toList.length = rest.toArray := by
        simp [toArray, whole]
      have cut : (stack.toArray.drop rest.toList.length).toList = values := by
        simp [toArray, whole]
      refine (Session.bind_of_ok compared).trans ?_
      change EStateM.Result.ok (stack.toArray.drop
          (stack.toArray.size - (values.map Value.type).length)).toList
        (stack.toArray.take
          (stack.toArray.size - (values.map Value.type).length)) = _
      rw [base, kept, cut]

theorem popValue_eq (stack : OperandStack) (expected : ValueType) :
    popValue expected stack.toArray =
      match stack.popValue expected with
      | .ok (value, rest) => .ok value rest.toArray
      | .error trap => .error trap stack.toArray := by
  obtain ⟨values⟩ := stack
  cases values with
  | nil => rfl
  | cons value values =>
      have top : (toArray ⟨value :: values⟩).back? = some value := by
        simp [toArray, toList]
      have rest : (toArray ⟨value :: values⟩).pop = toArray ⟨values⟩ := by
        simp [toArray, toList]
      have putBack :
          (toArray ⟨values⟩).push value = toArray ⟨value :: values⟩ := by
        simp [toArray, toList]
      unfold popValue OperandStack.popValue
      rw [Session.get_bind]
      simp only [top, rest]
      rw [Session.set_bind]
      split
      · rfl
      · change EStateM.Result.error _ ((toArray ⟨values⟩).push value) = _
        rw [putBack]

theorem perform_eq (call : Call) (stack : OperandStack) :
    perform call stack.toArray = Session.seen toArray (call.perform stack) := by
  rw [Call.perform, Session.seen_keeping]
  cases call with
  | push value =>
      have pushed : stack.toArray.push value = (stack.push value).toArray := by
        simp [toArray]
      change EStateM.Result.ok [] (stack.toArray.push value) = _
      rw [pushed]
      rfl
  | popValue expected =>
      have single := popValue_eq stack expected
      cases taken : stack.popValue expected with
      | error trap =>
          rw [taken] at single
          simp only [Call.outcome, taken]
          exact Session.bind_of_error single
      | ok parts =>
          rw [taken] at single
          simp only [Call.outcome, taken]
          exact Session.bind_of_ok single
  | pop expected =>
      have single := popValue_eq stack expected
      rw [Call.outcome_pop]
      cases taken : stack.popValue expected with
      | error trap =>
          rw [taken] at single
          simp only [Call.outcome, taken]
          exact Session.bind_of_error (Session.bind_of_error single)
      | ok parts =>
          -- The value has the expected type, so its number is there.
          obtain ⟨number, isNumber⟩ := exists_number (type_of_popValue taken)
          rw [taken] at single
          simp only [Call.outcome, taken]
          have converted :
              pop expected stack.toArray = .ok number parts.2.toArray := by
            refine (Session.bind_of_ok single).trans ?_
            rw [Value.number_eq_ok_iff.mpr isNumber]
            rfl
          refine (Session.bind_of_ok converted).trans ?_
          simp only [Except.map, isNumber]
          rfl
  | popValues expected =>
      refine (popValues_eq stack expected).trans ?_
      simp only [Call.outcome]
      cases stack.popValues expected <;> rfl

end InPlace

/-! ## Whole runs -/

theorem toList_foldl_push (values : List Value) (stack : OperandStack) :
    (values.foldl push stack).toList = stack.toList ++ values := by
  induction values generalizing stack with
  | nil => simp
  | cons value values induction =>
      rw [List.foldl_cons, induction, toList_push, List.append_assoc]
      rfl

/-- Calls on the empty stack neither lose nor duplicate a value.  Carried out in
place they give the same answers and leave the same values, and a call that
fails changes nothing.  A pop of several values takes the topmost ones if their
types are the expected ones, and otherwise names the least distance from the top
that does not fit; it returns what was pushed. -/
theorem operands_are_conserved (calls : List Call)
    (history : List (Call × Except Trap (List Value))) (stack : OperandStack)
    (ran : Session.run Call.perform calls empty = (history, stack)) :
    (pushed history).Perm (stack.toList ++ returned history) ∧
    Session.run InPlace.perform calls #[] = (history, stack.toArray) ∧
    (∀ call trap values, InPlace.perform call stack.toArray =
      .error trap values →
      values = stack.toArray) ∧
    (∀ expected,
      ((∃ values rest, stack.popValues expected = .ok (values, rest)) ↔
        expected.length ≤ stack.size ∧
          (stack.toList.drop (stack.size - expected.length)).map Value.type =
            expected) ∧
      (∀ values rest, stack.popValues expected = .ok (values, rest) →
        stack.toList = rest.toList ++ values) ∧
      (∀ trap, stack.popValues expected = .error trap ↔
        ∃ distance, stack.RefusesAt expected distance trap)) ∧
    (∀ values : List Value,
      (values.foldl push stack).popValues (values.map Value.type) =
      .ok (values, stack)) := by
  refine ⟨?_, ?_, ?_, ?_, ?_⟩
  · have conserved := run_conserves calls empty
    rw [ran] at conserved
    exact conserved
  · have viewed := Session.run_view toArray InPlace.perform_eq calls empty
    rw [ran] at viewed
    exact viewed
  · intro call trap values failed
    rw [InPlace.perform_eq] at failed
    exact Session.state_of_seen_keeping failed
  · intro expected
    refine ⟨popValues_succeeds_iff, ?_,
      fun trap => popValues_eq_error_iff_refusesAt⟩
    intro values rest taken
    exact (popValues_eq_ok_iff.mp taken).1
  · intro values
    exact popValues_eq_ok_iff.mpr ⟨toList_foldl_push values stack, rfl⟩

/-- Two calls fail, one for lack of a second value and one on a value of another
type. -/
theorem operands_are_conserved_behind_failures :
    Session.run InPlace.perform
        [.push (.i32 7), .popValues [.i64, .i32], .push (.i64 8), .pop .i32,
          .popValue .i64] #[] =
      ([(.push (.i32 7), .ok []),
        (.popValues [.i64, .i32], .error (.missingOperand .i64 1)),
        (.push (.i64 8), .ok []),
        (.pop .i32, .error (.typeMismatch .i32 .i64)),
        (.popValue .i64, .ok [.i64 8])],
        #[.i32 7]) ∧
      RefusesAt ⟨[.i32 7]⟩ [.i64, .i32] 1 (.missingOperand .i64 1) := by
  have ran : Session.run Call.perform
      [.push (.i32 7), .popValues [.i64, .i32], .push (.i64 8), .pop .i32,
        .popValue .i64] empty =
        ([(.push (.i32 7), .ok []),
          (.popValues [.i64, .i32], .error (.missingOperand .i64 1)),
          (.push (.i64 8), .ok []),
          (.pop .i32, .error (.typeMismatch .i32 .i64)),
          (.popValue .i64, .ok [.i64 8])],
          ⟨[.i32 7]⟩) := rfl
  obtain ⟨_, inPlace, _, pops, _⟩ := operands_are_conserved _ _ _ ran
  obtain ⟨distance, refuses⟩ :=
    ((pops [.i64, .i32]).2.2 (.missingOperand .i64 1)).mp rfl
  have place : distance = 1 := by
    obtain ⟨type, _, _, ⟨_, same⟩ | ⟨value, _, _, same⟩⟩ := refuses
    · exact (Trap.missingOperand.inj same).2.symm
    · cases same
  exact ⟨inPlace, place ▸ refuses⟩

end Wasm.OperandStack
