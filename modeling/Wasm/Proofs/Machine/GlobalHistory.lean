import Wasm.Machine.Store
import Wasm.Proofs.Machine.Session

/-!
# Globals over their lifetime

A store is used through calls that get and set globals.  A call that sets a
global changes its value and nothing else, and only if the global is variable
and the value has its type.  All that stays the same along a run of calls
follows from this one step.
-/

namespace Wasm.Store

/-! ## Single operations -/

section Operations

variable {store changed : Store} {index : GlobalIndex} {value : Value}
  {trap : Trap}

theorem get_eq_error_iff :
    store.get index = .error trap ↔
      ¬ index.toNat < store.globals.length ∧
        trap = .globalOutOfRange index := by
  unfold get
  cases there : store.globals[index.toNat]? with
  | none =>
      have outside := List.getElem?_eq_none_iff.mp there
      simp only [Except.error.injEq, Nat.not_lt, outside, true_and, eq_comm]
  | some global =>
      obtain ⟨inside, _⟩ := List.getElem?_eq_some_iff.mp there
      simp [inside]

/-- A store with another value in one global. -/
def withValue (store : Store) (place : Nat) (value : Value) : Store :=
  ⟨store.globals.modify place fun global => { global with value := value }⟩

theorem getElem?_withValue (store : Store) (place other : Nat) (value : Value) :
    (store.withValue place value).globals[other]? =
      if place = other then
        store.globals[other]?.map fun global => { global with value := value }
      else
        store.globals[other]? := by
  rw [withValue, List.getElem?_modify]
  split
  · rfl
  · exact Option.map_id'

/-- The global may be set to the value. -/
def Admits (store : Store) (index : GlobalIndex) (value : Value) : Prop :=
  ∃ global, store.globals[index.toNat]? = some global ∧
    global.type.mutability = .variable ∧ value.type = global.type.valueType

/-- The first reason why the global may not be set to the value. -/
def Refuses (store : Store) (index : GlobalIndex) (value : Value)
    (trap : Trap) : Prop :=
  store.globals[index.toNat]? = none ∧ trap = .globalOutOfRange index ∨
  ∃ global, store.globals[index.toNat]? = some global ∧
    (global.type.mutability = .constant ∧ trap = .globalImmutable index ∨
      global.type.mutability = .variable ∧ value.type ≠ global.type.valueType ∧
        trap = .typeMismatch global.type.valueType value.type)

theorem set_of_admits (admits : store.Admits index value) :
    store.set index value = .ok (store.withValue index.toNat value) := by
  obtain ⟨global, there, writable, typed⟩ := admits
  have notConstant : ¬ global.type.mutability = .constant := by
    rw [writable]
    exact nofun
  simp only [set, there, if_neg notConstant, if_pos typed, withValue,
    Except.ok.injEq, mk.injEq]
  apply List.ext_getElem?
  intro place
  rw [List.getElem?_set', List.getElem?_modify]
  split
  · rename_i same
    subst same
    rw [there]
    rfl
  · exact Option.map_id'.symm

theorem set_of_refuses (refuses : store.Refuses index value trap) :
    store.set index value = .error trap := by
  rcases refuses with
      ⟨outside, rfl⟩ | ⟨global, there, ⟨constant, rfl⟩ | ⟨writable, wrong, rfl⟩⟩
  · simp only [set, outside]
  · simp only [set, there, if_pos constant]
  · have notConstant : ¬ global.type.mutability = .constant := by
      rw [writable]
      exact nofun
    simp only [set, there, if_neg notConstant, if_neg wrong]

theorem admits_or_refuses (store : Store) (index : GlobalIndex)
    (value : Value) :
    store.Admits index value ∨ ∃ trap, store.Refuses index value trap := by
  cases there : store.globals[index.toNat]? with
  | none => exact .inr ⟨_, .inl ⟨there, rfl⟩⟩
  | some global =>
      match kind : global.type.mutability with
      | .constant => exact .inr ⟨_, .inr ⟨global, there, .inl ⟨kind, rfl⟩⟩⟩
      | .variable =>
          by_cases typed : value.type = global.type.valueType
          · exact .inl ⟨global, there, kind, typed⟩
          · exact .inr ⟨_, .inr ⟨global, there, .inr ⟨kind, typed, rfl⟩⟩⟩

theorem set_eq_ok_iff :
    store.set index value = .ok changed ↔
      store.Admits index value ∧
        changed = store.withValue index.toNat value := by
  constructor
  · intro done
    rcases admits_or_refuses store index value with admits | ⟨trap, refuses⟩
    · rw [set_of_admits admits] at done
      exact ⟨admits, (Except.ok.inj done).symm⟩
    · rw [set_of_refuses refuses] at done
      cases done
  · rintro ⟨admits, rfl⟩
    exact set_of_admits admits

theorem set_eq_error_iff :
    store.set index value = .error trap ↔ store.Refuses index value trap := by
  constructor
  · intro failed
    rcases admits_or_refuses store index value with admits | ⟨other, refuses⟩
    · rw [set_of_admits admits] at failed
      cases failed
    · rw [set_of_refuses refuses] at failed
      cases failed
      exact refuses
  · exact set_of_refuses

end Operations

/-! ## Calls -/

/-- A call of an operation on a store. -/
abbrev Call := Session.Access GlobalIndex

/-- Each call that was made, with the value that it returned. -/
abbrev History := Session.Access.History GlobalIndex

/-- Carries out a call; the store is kept if it fails. -/
abbrev Call.perform : Call → EStateM Trap Store (Option Value) :=
  Session.Access.perform get set

/-- The value that a global was last given. -/
abbrev lastWritten? (index : GlobalIndex) (history : History) : Option Value :=
  Session.Access.lastWritten? index history

/-! ## What a run keeps -/

/-- Every global holds a value of its declared type. -/
def WellTyped (store : Store) : Prop :=
  ∀ global ∈ store.globals, global.value.type = global.type.valueType

/-- The declared types of the globals. -/
def types (store : Store) : List GlobalType :=
  store.globals.map GlobalInstance.type

/-- The constants of a store have the same values in another store. -/
def SameConstants (initial store : Store) : Prop :=
  ∀ (place : Nat) (global : GlobalInstance),
    initial.globals[place]? = some global →
    global.type.mutability = .constant → store.globals[place]? = some global

theorem types_withValue (store : Store) (place : Nat) (value : Value) :
    (store.withValue place value).types = store.types := by
  apply List.ext_getElem?
  intro other
  rw [types, types, List.getElem?_map, List.getElem?_map, getElem?_withValue]
  split
  · rw [Option.map_map]
    rfl
  · rfl

theorem WellTyped.withValue {store : Store} {index : GlobalIndex}
    {value : Value} (typed : store.WellTyped)
    (admits : store.Admits index value) :
    (store.withValue index.toNat value).WellTyped := by
  intro global member
  obtain ⟨place, there⟩ := List.getElem?_of_mem member
  rw [getElem?_withValue] at there
  split at there
  · rename_i same
    subst same
    obtain ⟨old, found, _, fits⟩ := admits
    rw [found] at there
    cases there
    exact fits
  · exact typed global (List.mem_of_getElem? there)

theorem SameConstants.withValue {initial store : Store} {index : GlobalIndex}
    {value : Value} (same : SameConstants initial store)
    (admits : store.Admits index value) :
    SameConstants initial (store.withValue index.toNat value) := by
  intro place global there constant
  have kept := same place global there constant
  rw [getElem?_withValue]
  split
  · rename_i equal
    subst equal
    -- The global that is set would be constant and variable.
    obtain ⟨old, found, writable, _⟩ := admits
    rw [kept] at found
    cases found
    rw [constant] at writable
    cases writable
  · exact kept

theorem run_types (calls : List Call) (store : Store) :
    (Session.run Call.perform calls store).2.types = store.types := by
  apply Session.Access.run_keeps_of_set
    (fun state : Store => state.types = store.types) _ calls rfl
  intro state index value changed done kept
  rw [(set_eq_ok_iff.mp done).2, types_withValue, kept]

theorem run_wellTyped (calls : List Call) {store : Store}
    (typed : store.WellTyped) :
    (Session.run Call.perform calls store).2.WellTyped := by
  apply Session.Access.run_keeps_of_set WellTyped _ calls typed
  intro state index value changed done kept
  obtain ⟨admits, rfl⟩ := set_eq_ok_iff.mp done
  exact kept.withValue admits

theorem run_sameConstants (calls : List Call) (store : Store) :
    SameConstants store (Session.run Call.perform calls store).2 := by
  apply Session.Access.run_keeps_of_set (SameConstants store) _ calls
    (fun _ _ there _ => there)
  intro state index value changed done kept
  obtain ⟨admits, rfl⟩ := set_eq_ok_iff.mp done
  exact kept.withValue admits

/-- The value of a global, if there is one. -/
def value? (store : Store) (index : GlobalIndex) : Option Value :=
  store.globals[index.toNat]?.map GlobalInstance.value

theorem get_eq_value? (store : Store) (index : GlobalIndex) :
    store.get index =
      match store.value? index with
      | some value => .ok value
      | none => .error (.globalOutOfRange index) := by
  rw [get, value?]
  cases store.globals[index.toNat]? <;> rfl

/-- Setting a global is seen at its index, and at no other one. -/
theorem value?_of_set {store changed : Store} {index : GlobalIndex}
    {value : Value} (done : store.set index value = .ok changed)
    (other : GlobalIndex) :
    changed.value? other =
      if index = other then some value else store.value? other := by
  obtain ⟨⟨global, there, _⟩, rfl⟩ := set_eq_ok_iff.mp done
  rw [value?, getElem?_withValue]
  by_cases same : index = other
  · subst same
    simp [there]
  · have apart : ¬ index.toNat = other.toNat :=
      fun equal => same (UInt32.toNat_inj.mp equal)
    rw [if_neg apart, if_neg same, value?]

theorem run_get (calls : List Call) (store : Store) (index : GlobalIndex) :
    (Session.run Call.perform calls store).2.get index =
      match lastWritten? index (Session.run Call.perform calls store).1 with
      | some value => .ok value
      | none => store.get index := by
  have current :
      (Session.run Call.perform calls store).2.value? index =
        (lastWritten? index (Session.run Call.perform calls store).1).or
          (store.value? index) :=
    Session.Access.run_reads value? (fun _ _ _ _ done => value?_of_set done)
      calls store index
  rw [get_eq_value?, current, get_eq_value? store]
  cases lastWritten? index (Session.run Call.perform calls store).1 <;> rfl

/-! ## Instantiation -/

theorem types_of_instantiate {global : Global} {earlier : List GlobalInstance}
    {fresh : GlobalInstance} (done : global.instantiate earlier = .ok fresh) :
    fresh.type = global.type ∧ fresh.value.type = fresh.type.valueType := by
  unfold Global.instantiate at done
  split at done
  · cases done
  · split at done
    · rename_i typed
      cases done
      exact ⟨rfl, typed⟩
    · cases done

theorem wellTyped_of_ofGlobals (globals : List Global)
    {earlier : List GlobalInstance} (typed : WellTyped ⟨earlier⟩)
    (complete : (Instantiation.ofGlobals earlier globals).error = none) :
    WellTyped ⟨(Instantiation.ofGlobals earlier globals).globals⟩ ∧
      types ⟨(Instantiation.ofGlobals earlier globals).globals⟩ =
        types ⟨earlier⟩ ++ globals.map Global.type := by
  induction globals generalizing earlier with
  | nil => exact ⟨typed, (List.append_nil _).symm⟩
  | cons global others induction =>
      unfold Instantiation.ofGlobals at complete ⊢
      cases started : global.instantiate earlier with
      | error trap =>
          rw [started] at complete
          cases complete
      | ok fresh =>
          simp only [started] at complete ⊢
          obtain ⟨declared, fits⟩ := types_of_instantiate started
          have longer : WellTyped ⟨earlier ++ [fresh]⟩ := by
            intro member there
            rcases List.mem_append.mp there with before | last
            · exact typed member before
            · rw [List.mem_singleton.mp last]
              exact fits
          obtain ⟨all, order⟩ := induction longer complete
          refine ⟨all, ?_⟩
          rw [order]
          simp [types, declared]

/-- The globals of a new store are those that the module declares, with values
of their types. -/
theorem wellTyped_of_ofModule {module : Module} {store : Store}
    (instantiated : ofModule module = .ok store) :
    store.WellTyped ∧
      store.types = (module.globals.getD []).map Global.type := by
  simp only [ofModule] at instantiated
  split at instantiated
  · rename_i complete
    cases instantiated
    unfold Instantiation.ofModule at complete ⊢
    split at complete
    · cases complete
    · exact wellTyped_of_ofGlobals _ nofun complete
  · cases instantiated

/-! ## Operations in place -/

/-- The globals of a store in an array. -/
def toArray (store : Store) : Array GlobalInstance :=
  store.globals.toArray

namespace InPlace

/-- The value of a global. -/
def get (index : GlobalIndex) : EStateM Trap (Array GlobalInstance) Value :=
  Session.Access.getAt GlobalInstance.value index.toNat
    (.globalOutOfRange index)

/-- Overwrites the value of a global, if it may be overwritten. -/
def set (index : GlobalIndex) (value : Value) :
    EStateM Trap (Array GlobalInstance) Unit := do
  let globals ← getThe (Array GlobalInstance)
  match globals[index.toNat]? with
  | none => throw (.globalOutOfRange index)
  | some global =>
      if global.type.mutability = .constant then
        throw (.globalImmutable index)
      else if value.type ≠ global.type.valueType then
        throw (.typeMismatch global.type.valueType value.type)
      else
        modify (·.modify index.toNat fun global =>
          { global with value := value })

/-- Carries out a call. -/
abbrev perform :
    Call → EStateM Trap (Array GlobalInstance) (Option Value) :=
  Session.Access.performInPlace get set

theorem get_eq (store : Store) (index : GlobalIndex) :
    get index store.toArray =
      Session.seen toArray (Session.Access.getting Store.get index store) := by
  rw [get, toArray, Session.Access.getAt_toArray, Session.Access.getting,
    Session.seen_keeping, Store.get]
  cases store.globals[index.toNat]? <;> rfl

theorem toArray_withValue (store : Store) (place : Nat) (value : Value) :
    store.toArray.modify place (fun global => { global with value := value }) =
      (store.withValue place value).toArray := by
  simp [toArray, withValue]

theorem set_eq (store : Store) (index : GlobalIndex) (value : Value) :
    set index value store.toArray =
      Session.seen toArray
        (Session.Access.setting Store.set index value store) := by
  have place : store.toArray[index.toNat]? = store.globals[index.toNat]? :=
    List.getElem?_toArray
  rw [Session.Access.setting, Session.seen_keeping, set, Session.getThe_bind,
    place]
  rcases admits_or_refuses store index value with admits | ⟨trap, refuses⟩
  · rw [set_of_admits admits]
    obtain ⟨global, there, writable, typed⟩ := admits
    simp only [there, writable, reduceCtorEq, if_false, typed, ne_eq,
      not_true_eq_false]
    exact congrArg (EStateM.Result.ok ())
      (toArray_withValue store index.toNat value)
  · rw [set_of_refuses refuses]
    rcases refuses with
        ⟨outside, rfl⟩ | ⟨global, there,
          ⟨constant, rfl⟩ | ⟨writable, wrong, rfl⟩⟩
    · rw [outside]
      rfl
    · simp only [there, constant, if_true]
      rfl
    · simp only [there, writable, reduceCtorEq, if_false, ne_eq, wrong,
        not_false_eq_true, if_true]
      rfl

theorem perform_eq (call : Call) (store : Store) :
    perform call store.toArray = Session.seen toArray (call.perform store) :=
  Session.Access.performInPlace_eq get_eq set_eq call store

end InPlace

/-! ## Whole runs -/

/-- Along every run of calls on the store of a module the globals keep their
declared types, hold values of these types, and the constants keep their initial
values.  Getting a global gives the value that was last written to it.  Setting
one succeeds if it exists, is variable and the value has its type; it changes
that value only.  Otherwise it fails for the first of these that does not hold.
Carried out in place the calls give the same answers, and one that fails changes
nothing. -/
theorem globals_keep_their_declarations (module : Module) (initial : Store)
    (instantiated : ofModule module = .ok initial) (calls : List Call)
    (history : History) (store : Store)
    (ran : Session.run Call.perform calls initial = (history, store)) :
    initial.types = (module.globals.getD []).map Global.type ∧
    store.types = initial.types ∧
    store.WellTyped ∧
    SameConstants initial store ∧
    (∀ index,
      store.get index =
        (match lastWritten? index history with
          | some value => .ok value
          | none => initial.get index) ∧
      ∀ trap, store.get index = .error trap ↔
        ¬ index.toNat < store.globals.length ∧ trap = .globalOutOfRange index) ∧
    (∀ index value,
      ((∃ changed, store.set index value = .ok changed) ↔
        store.Admits index value) ∧
      (∀ changed, store.set index value = .ok changed → ∀ place : Nat,
        changed.globals[place]? =
          if index.toNat = place then
            store.globals[place]?.map fun global =>
              { global with value := value }
          else
            store.globals[place]?) ∧
      ∀ trap, store.set index value = .error trap ↔
        store.Refuses index value trap) ∧
    Session.run InPlace.perform calls initial.toArray =
      (history, store.toArray) ∧
    ∀ call trap globals,
      InPlace.perform call store.toArray = .error trap globals →
      globals = store.toArray := by
  obtain ⟨typed, declared⟩ := wellTyped_of_ofModule instantiated
  have reached : store = (Session.run Call.perform calls initial).2 := by
    rw [ran]
  have recorded : history = (Session.run Call.perform calls initial).1 := by
    rw [ran]
  refine ⟨declared, ?_, ?_, ?_, ?_, ?_, ?_, ?_⟩
  · rw [reached]
    exact run_types calls initial
  · rw [reached]
    exact run_wellTyped calls typed
  · rw [reached]
    exact run_sameConstants calls initial
  · intro index
    refine ⟨?_, fun trap => get_eq_error_iff⟩
    rw [reached, recorded]
    exact run_get calls initial index
  · intro index value
    refine ⟨⟨?_, ?_⟩, ?_, fun trap => set_eq_error_iff⟩
    · rintro ⟨changed, done⟩
      exact (set_eq_ok_iff.mp done).1
    · intro admits
      exact ⟨_, set_of_admits admits⟩
    · intro changed done place
      rw [(set_eq_ok_iff.mp done).2]
      exact getElem?_withValue store index.toNat place value
  · rw [reached, recorded]
    exact Session.run_view toArray InPlace.perform_eq calls initial
  · intro call trap globals failed
    rw [InPlace.perform_eq] at failed
    exact Session.state_of_seen_keeping failed

/-- A variable takes its initial value from a constant.  Of the calls that set a
global, one writes to the variable, and the others fail on the constant, on a
value of another type and on an index without a global. -/
theorem globals_keep_their_declarations_behind_failures :
    ofModule
        { Module.empty with
          globals :=
            some [⟨⟨.i32, .constant⟩, .i32 42⟩,
              ⟨⟨.i32, .variable⟩, .globalGet 0⟩] } =
      .ok ⟨[⟨⟨.i32, .constant⟩, .i32 42⟩, ⟨⟨.i32, .variable⟩, .i32 42⟩]⟩ ∧
    Session.run InPlace.perform
        [.get 1, .set 0 (.i32 9), .set 1 (.i32 9), .set 1 (.i64 5),
          .set 2 (.i32 9), .get 1]
        #[⟨⟨.i32, .constant⟩, .i32 42⟩, ⟨⟨.i32, .variable⟩, .i32 42⟩] =
      ([(.get 1, .ok (some (.i32 42))),
        (.set 0 (.i32 9), .error (.globalImmutable 0)),
        (.set 1 (.i32 9), .ok none),
        (.set 1 (.i64 5), .error (.typeMismatch .i32 .i64)),
        (.set 2 (.i32 9), .error (.globalOutOfRange 2)),
        (.get 1, .ok (some (.i32 9)))],
        #[⟨⟨.i32, .constant⟩, .i32 42⟩, ⟨⟨.i32, .variable⟩, .i32 9⟩]) := by
  have instantiated : ofModule
      { Module.empty with
          globals :=
            some [⟨⟨.i32, .constant⟩, .i32 42⟩,
              ⟨⟨.i32, .variable⟩, .globalGet 0⟩] } =
        .ok ⟨[⟨⟨.i32, .constant⟩, .i32 42⟩, ⟨⟨.i32, .variable⟩, .i32 42⟩]⟩ :=
          rfl
  have ran : Session.run Call.perform
      [.get 1, .set 0 (.i32 9), .set 1 (.i32 9), .set 1 (.i64 5),
        .set 2 (.i32 9), .get 1]
      ⟨[⟨⟨.i32, .constant⟩, .i32 42⟩, ⟨⟨.i32, .variable⟩, .i32 42⟩]⟩ =
        ([(.get 1, .ok (some (.i32 42))),
          (.set 0 (.i32 9), .error (.globalImmutable 0)),
          (.set 1 (.i32 9), .ok none),
          (.set 1 (.i64 5), .error (.typeMismatch .i32 .i64)),
          (.set 2 (.i32 9), .error (.globalOutOfRange 2)),
          (.get 1, .ok (some (.i32 9)))],
          ⟨[⟨⟨.i32, .constant⟩, .i32 42⟩, ⟨⟨.i32, .variable⟩, .i32 9⟩]⟩) := rfl
  obtain ⟨_, _, _, _, _, _, inPlace, _⟩ :=
    globals_keep_their_declarations _ _ instantiated _ _ _ ran
  exact ⟨instantiated, inPlace⟩

end Wasm.Store
