import Wasm.Machine.Frame
import Wasm.Proofs.Machine.Session

/-!
# Frames over their lifetime

A frame does not keep the types of its locals: it reads them back from the
current values.  So the types that a call was made with stay only because every
value that is written has the type of the value before it.  This one step gives
the shape of the frame along every run of calls.
-/

namespace Wasm.Frame

/-! ## Single operations -/

section Operations

variable {frame changed : Frame} {index : LocalIndex} {value : Value}
  {trap : Trap}

/-- A frame with another value in one local. -/
def withLocal (frame : Frame) (place : Nat) (value : Value) : Frame :=
  ⟨frame.locals.set place value⟩

/-- The first reason why a local may not be set to a value. -/
def Refuses (frame : Frame) (index : LocalIndex) (value : Value) (trap : Trap) :
    Prop :=
  frame.types[index.toNat]? = none ∧ trap = .localOutOfRange index ∨
  ∃ type, frame.types[index.toNat]? = some type ∧ type ≠ value.type ∧
    trap = .typeMismatch type value.type

theorem length_types (frame : Frame) :
    frame.types.length = frame.locals.length :=
  List.length_map ..

theorem get_eq_error_iff :
    frame.get index = .error trap ↔
      ¬ index.toNat < frame.locals.length ∧ trap = .localOutOfRange index := by
  unfold get
  cases there : frame.locals[index.toNat]? with
  | none =>
      have outside := List.getElem?_eq_none_iff.mp there
      simp only [Except.error.injEq, Nat.not_lt, outside, true_and, eq_comm]
  | some value =>
      obtain ⟨inside, _⟩ := List.getElem?_eq_some_iff.mp there
      simp [inside]

/-- Setting a local looks at nothing but its type. -/
theorem set_eq (frame : Frame) (index : LocalIndex) (value : Value) :
    frame.set index value =
      match frame.types[index.toNat]? with
      | none => .error (.localOutOfRange index)
      | some type =>
          if value.type = type then
            .ok (frame.withLocal index.toNat value)
          else
            .error (.typeMismatch type value.type) := by
  rw [set, types, List.getElem?_map]
  cases frame.locals[index.toNat]? <;> rfl

theorem set_eq_ok_iff :
    frame.set index value = .ok changed ↔
      frame.types[index.toNat]? = some value.type ∧
        changed = frame.withLocal index.toNat value := by
  rw [set_eq]
  cases frame.types[index.toNat]? with
  | none => simp
  | some type =>
      by_cases typed : value.type = type
      · simp [typed, eq_comm]
      · simp [typed, Ne.symm typed]

theorem set_eq_error_iff :
    frame.set index value = .error trap ↔ frame.Refuses index value trap := by
  rw [set_eq, Refuses]
  cases frame.types[index.toNat]? with
  | none => simp [eq_comm]
  | some type =>
      by_cases typed : value.type = type
      · simp [typed]
      · simp [typed, Ne.symm typed, eq_comm]

theorem getElem?_withLocal (typed : frame.types[index.toNat]? = some value.type)
    (place : Nat) :
    (frame.withLocal index.toNat value).locals[place]? =
      if index.toNat = place then some value else frame.locals[place]? := by
  obtain ⟨inside, _⟩ := List.getElem?_eq_some_iff.mp typed
  rw [length_types] at inside
  rw [withLocal, List.getElem?_set, if_pos inside]

/-- A value of the type that is there leaves the types as they are. -/
theorem types_withLocal (typed : frame.types[index.toNat]? = some value.type) :
    (frame.withLocal index.toNat value).types = frame.types := by
  obtain ⟨inside, same⟩ := List.getElem?_eq_some_iff.mp typed
  rw [types, withLocal, List.map_set, ← same]
  exact List.set_getElem_self inside

end Operations

/-! ## Calls -/

/-- A call of an operation on a frame. -/
abbrev Call := Session.Access LocalIndex

/-- Each call that was made, with the value that it returned. -/
abbrev History := Session.Access.History LocalIndex

/-- Carries out a call; the frame is kept if it fails. -/
abbrev Call.perform : Call → EStateM Trap Frame (Option Value) :=
  Session.Access.perform get set

/-- The value that a local was last given. -/
abbrev lastWritten? (index : LocalIndex) (history : History) : Option Value :=
  Session.Access.lastWritten? index history

/-! ## What a run keeps -/

theorem run_types (calls : List Call) (frame : Frame) :
    (Session.run Call.perform calls frame).2.types = frame.types := by
  apply Session.Access.run_keeps_of_set
    (fun state : Frame => state.types = frame.types) _ calls rfl
  intro state index value changed done kept
  obtain ⟨typed, rfl⟩ := set_eq_ok_iff.mp done
  rw [types_withLocal typed, kept]

/-- Setting a local is seen at its index, and at no other one. -/
theorem getElem?_of_set {frame changed : Frame} {index : LocalIndex}
    {value : Value} (done : frame.set index value = .ok changed)
    (other : LocalIndex) :
    changed.locals[other.toNat]? =
      if index = other then some value else frame.locals[other.toNat]? := by
  obtain ⟨typed, rfl⟩ := set_eq_ok_iff.mp done
  rw [getElem?_withLocal typed]
  by_cases same : index = other
  · simp [same]
  · have apart : ¬ index.toNat = other.toNat :=
      fun equal => same (UInt32.toNat_inj.mp equal)
    rw [if_neg apart, if_neg same]

theorem run_local (calls : List Call) (frame : Frame) (index : LocalIndex) :
    (Session.run Call.perform calls frame).2.locals[index.toNat]? =
      (lastWritten? index (Session.run Call.perform calls frame).1).or
        frame.locals[index.toNat]? :=
  Session.Access.run_reads
    (fun (state : Frame) (place : LocalIndex) => state.locals[place.toNat]?)
    (fun _ _ _ _ done => getElem?_of_set done) calls frame index

/-- The value that a local has when a call starts: an argument, or the zero of a
declared type. -/
def initial? (arguments : List Value) (declared : List ValueType)
    (place : Nat) : Option Value :=
  if place < arguments.length then
    arguments[place]?
  else
    declared[place - arguments.length]?.map Value.zero

theorem getElem?_ofCall (arguments : List Value) (declared : List ValueType)
    (place : Nat) :
    (ofCall arguments declared).locals[place]? =
      initial? arguments declared place := by
  rw [ofCall, List.getElem?_append, List.getElem?_map, initial?]

/-! ## Operations in place -/

/-- The locals of a frame in an array. -/
def toArray (frame : Frame) : Array Value :=
  frame.locals.toArray

namespace InPlace

/-- The arguments, extended by a zero for each declared local. -/
def ofCall (arguments : Array Value) (declared : List ValueType) :
    Array Value :=
  declared.foldl (fun locals type => locals.push (Value.zero type)) arguments

/-- The value of a local. -/
def get (index : LocalIndex) : EStateM Trap (Array Value) Value :=
  Session.Access.getAt id index.toNat (.localOutOfRange index)

/-- Overwrites a local with a value, if it has the type of the one that is
there. -/
def set (index : LocalIndex) (value : Value) :
    EStateM Trap (Array Value) Unit := do
  let locals ← getThe (Array Value)
  match locals[index.toNat]? with
  | none => throw (.localOutOfRange index)
  | some current =>
      if value.type ≠ current.type then
        throw (.typeMismatch current.type value.type)
      else
        modify (·.setIfInBounds index.toNat value)

/-- Carries out a call. -/
abbrev perform : Call → EStateM Trap (Array Value) (Option Value) :=
  Session.Access.performInPlace get set

theorem ofCall_eq (arguments : List Value) (declared : List ValueType) :
    ofCall arguments.toArray declared =
      (Frame.ofCall arguments declared).toArray := by
  simp [ofCall, toArray, Frame.ofCall]

theorem get_eq (frame : Frame) (index : LocalIndex) :
    get index frame.toArray =
      Session.seen toArray (Session.Access.getting Frame.get index frame) := by
  rw [get, toArray, Session.Access.getAt_toArray, Session.Access.getting,
    Session.seen_keeping, Frame.get]
  cases frame.locals[index.toNat]? <;> rfl

theorem set_eq (frame : Frame) (index : LocalIndex) (value : Value) :
    set index value frame.toArray =
      Session.seen toArray
        (Session.Access.setting Frame.set index value frame) := by
  have place : frame.toArray[index.toNat]? = frame.locals[index.toNat]? :=
    List.getElem?_toArray
  rw [Session.Access.setting, Session.seen_keeping, set, Session.getThe_bind,
    place, Frame.set]
  cases frame.locals[index.toNat]? with
  | none => rfl
  | some current =>
      by_cases typed : value.type = current.type
      · simp only [typed, ne_eq, not_true_eq_false, if_false, if_true]
        exact congrArg (EStateM.Result.ok ()) (List.setIfInBounds_toArray ..)
      · simp only [typed, ne_eq, not_false_eq_true, if_true, if_false]
        rfl

theorem perform_eq (call : Call) (frame : Frame) :
    perform call frame.toArray = Session.seen toArray (call.perform frame) :=
  Session.Access.performInPlace_eq get_eq set_eq call frame

end InPlace

/-! ## Whole runs -/

/-- Along every run of calls a frame has one local for each argument and each
declared local, of the type of the argument or the declared type.  Getting a
local gives the value that was last written to it, or else its initial one, and
fails only outside of the frame.  Setting one succeeds if it exists and the
value has its type, and then changes that local only; otherwise it fails for the
first of these that does not hold.  Carried out in place the calls give the same
answers, and one that fails changes nothing. -/
theorem frames_keep_their_shape (arguments : List Value)
    (declared : List ValueType) (calls : List Call) (history : History)
    (frame : Frame)
    (ran : Session.run Call.perform calls (ofCall arguments declared) =
      (history, frame)) :
    frame.locals.length = arguments.length + declared.length ∧
    frame.types = arguments.map Value.type ++ declared ∧
    (∀ index,
      frame.get index =
        (match (lastWritten? index history).or
          (initial? arguments declared index.toNat) with
          | some value => .ok value
          | none => .error (.localOutOfRange index)) ∧
      ∀ trap, frame.get index = .error trap ↔
        ¬ index.toNat < arguments.length + declared.length ∧
          trap = .localOutOfRange index) ∧
    (∀ index value,
      ((∃ changed, frame.set index value = .ok changed) ↔
        (arguments.map Value.type ++ declared)[index.toNat]? =
          some value.type) ∧
      (∀ changed, frame.set index value = .ok changed → ∀ place : Nat,
        changed.locals[place]? =
          if index.toNat = place then some value else frame.locals[place]?) ∧
      ∀ trap, frame.set index value = .error trap ↔
        frame.Refuses index value trap) ∧
    Session.run InPlace.perform calls
      (InPlace.ofCall arguments.toArray declared) = (history, frame.toArray) ∧
    ∀ call trap locals,
      InPlace.perform call frame.toArray = .error trap locals →
      locals = frame.toArray := by
  have reached :
      frame =
        (Session.run Call.perform calls (ofCall arguments declared)).2 := by
    rw [ran]
  have recorded :
      history =
        (Session.run Call.perform calls (ofCall arguments declared)).1 := by
    rw [ran]
  have types : frame.types = arguments.map Value.type ++ declared := by
    rw [reached, run_types, types_ofCall]
  have length : frame.locals.length = arguments.length + declared.length := by
    rw [← length_types, types, List.length_append, List.length_map]
  refine ⟨length, types, ?_, ?_, ?_, ?_⟩
  · intro index
    constructor
    · have current := run_local calls (ofCall arguments declared) index
      rw [← reached, ← recorded, getElem?_ofCall] at current
      rw [get, current]
      cases (lastWritten? index history).or
        (initial? arguments declared index.toNat) with
      | none => rfl
      | some value => rfl
    · intro trap
      rw [← length]
      exact get_eq_error_iff
  · intro index value
    rw [← types]
    refine ⟨⟨?_, ?_⟩, ?_, fun trap => set_eq_error_iff⟩
    · rintro ⟨changed, done⟩
      exact (set_eq_ok_iff.mp done).1
    · intro typed
      exact ⟨_, set_eq_ok_iff.mpr ⟨typed, rfl⟩⟩
    · intro changed done place
      obtain ⟨typed, rfl⟩ := set_eq_ok_iff.mp done
      exact getElem?_withLocal typed place
  · rw [InPlace.ofCall_eq, reached, recorded]
    exact Session.run_view toArray InPlace.perform_eq calls
      (ofCall arguments declared)
  · intro call trap locals failed
    rw [InPlace.perform_eq] at failed
    exact Session.state_of_seen_keeping failed

/-- A frame of one argument and one declared local.  Of the calls that set a
local, one writes to the argument, and the others fail on a value of another
type and on an index without a local. -/
theorem frames_keep_their_shape_behind_failures :
    Session.run InPlace.perform
        [.get 1, .set 0 (.f32 ⟨5⟩), .set 0 (.i32 9), .set 2 (.i32 9), .get 0]
        (InPlace.ofCall #[.i32 4] [.f32]) =
      ([(.get 1, .ok (some (.f32 ⟨0⟩))),
        (.set 0 (.f32 ⟨5⟩), .error (.typeMismatch .i32 .f32)),
        (.set 0 (.i32 9), .ok none),
        (.set 2 (.i32 9), .error (.localOutOfRange 2)),
        (.get 0, .ok (some (.i32 9)))],
        #[.i32 9, .f32 ⟨0⟩]) := by
  have ran : Session.run Call.perform
      [.get 1, .set 0 (.f32 ⟨5⟩), .set 0 (.i32 9), .set 2 (.i32 9), .get 0]
      (ofCall [.i32 4] [.f32]) =
        ([(.get 1, .ok (some (.f32 ⟨0⟩))),
          (.set 0 (.f32 ⟨5⟩), .error (.typeMismatch .i32 .f32)),
          (.set 0 (.i32 9), .ok none),
          (.set 2 (.i32 9), .error (.localOutOfRange 2)),
          (.get 0, .ok (some (.i32 9)))],
          ⟨[.i32 9, .f32 ⟨0⟩]⟩) := rfl
  obtain ⟨_, _, _, _, inPlace, _⟩ := frames_keep_their_shape _ _ _ _ _ ran
  exact inPlace

end Wasm.Frame
