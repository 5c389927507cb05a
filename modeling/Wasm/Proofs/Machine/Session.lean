import Wasm.Machine.Trap
import Wasm.Machine.Value

/-!
# Calls on a state

A state is used through calls, one after the other.  A call answers with a value
or with a trap, and in both cases leaves a state on which the next call is
carried out.

A state may hold values at indices, and its calls get and set them.  What was
last written can then be read from the calls and their answers alone.
-/

namespace Wasm.Session

variable {σ τ κ α : Type}

/-- An operation that yields a new state only if it succeeds, carried out on a
state that is kept if it fails. -/
def keeping (operation : σ → Except Trap (α × σ)) : EStateM Trap σ α :=
  fun state =>
    match operation state with
    | .ok (value, next) => .ok value next
    | .error trap => .error trap state

/-- The answer of a call without the state that it leaves. -/
def answer : EStateM.Result Trap σ α → Except Trap α
  | .ok value _ => .ok value
  | .error trap _ => .error trap

/-- The state that a call leaves. -/
def stateAfter : EStateM.Result Trap σ α → σ
  | .ok _ next => next
  | .error _ next => next

/-- Carries out calls in order.  The result is each call with its answer, and
the state behind the last call. -/
def run (perform : κ → EStateM Trap σ α) :
    List κ → σ → List (κ × Except Trap α) × σ
  | [], state => ([], state)
  | call :: calls, state =>
      let outcome := perform call state
      let (history, last) := run perform calls (stateAfter outcome)
      ((call, answer outcome) :: history, last)

section Steps

variable {operation : σ → Except Trap (α × σ)} {perform : κ → EStateM Trap σ α}
  {call : κ} {calls : List κ} {state next : σ} {value : α} {trap : Trap}

theorem keeping_of_ok (done : operation state = .ok (value, next)) :
    keeping operation state = .ok value next := by
  rw [keeping, done]

theorem keeping_of_error (failed : operation state = .error trap) :
    keeping operation state = .error trap state := by
  rw [keeping, failed]

theorem run_of_ok (done : perform call state = .ok value next) :
    run perform (call :: calls) state =
      ((call, .ok value) :: (run perform calls next).1,
        (run perform calls next).2) := by
  rw [run, done]
  rfl

theorem run_of_error (failed : perform call state = .error trap next) :
    run perform (call :: calls) state =
      ((call, .error trap) :: (run perform calls next).1,
        (run perform calls next).2) := by
  rw [run, failed]
  rfl

theorem bind_of_ok {β : Type} {first : EStateM Trap σ α}
    {second : α → EStateM Trap σ β} (ran : first state = .ok value next) :
    (first >>= second) state = second value next := by
  change EStateM.bind first second state = _
  rw [EStateM.bind, ran]

theorem bind_of_error {β : Type} {first : EStateM Trap σ α}
    {second : α → EStateM Trap σ β} (failed : first state = .error trap next) :
    (first >>= second) state = .error trap next := by
  change EStateM.bind first second state = _
  rw [EStateM.bind, failed]

theorem get_bind (second : σ → EStateM Trap σ α) :
    (get >>= second) state = second state state :=
  bind_of_ok rfl

theorem getThe_bind (second : σ → EStateM Trap σ α) :
    (getThe σ >>= second) state = second state state :=
  bind_of_ok rfl

theorem set_bind (second : PUnit → EStateM Trap σ α) :
    (set next >>= second) state = second ⟨⟩ next :=
  bind_of_ok rfl

end Steps

section Runs

variable {perform : κ → EStateM Trap σ α}

/-- What every call keeps, a run of calls keeps. -/
theorem run_keeps (holds : σ → Prop)
    (step : ∀ call state, holds state → holds (stateAfter (perform call state)))
    (calls : List κ) {state : σ} (start : holds state) :
    holds (run perform calls state).2 := by
  induction calls generalizing state with
  | nil => exact start
  | cons call calls induction => exact induction (step call state start)

/-- The last thing that was given in a history, if `given?` says what each call
with its answer has given. -/
def lastGiven? {β : Type} (given? : κ × Except Trap α → Option β)
    (history : List (κ × Except Trap α)) : Option β :=
  history.reverse.findSome? given?

/-- If every call leaves to be seen what it has given, and otherwise what was
there before, a run leaves what was given last. -/
theorem run_observes {β : Type} (observe : σ → Option β)
    {given? : κ × Except Trap α → Option β}
    (step : ∀ call state, observe (stateAfter (perform call state)) =
      (given? (call, answer (perform call state))).or (observe state))
    (calls : List κ) (state : σ) :
    observe (run perform calls state).2 =
      (lastGiven? given? (run perform calls state).1).or (observe state) := by
  induction calls generalizing state with
  | nil => rfl
  | cons call calls induction =>
      have later := induction (stateAfter (perform call state))
      rw [step] at later
      simp only [run, lastGiven?, List.reverse_cons,
        List.findSome?_append] at later ⊢
      rw [later, Option.or_assoc, List.findSome?_singleton]

/-- The outcome of a call as it is seen on a view of the state. -/
def seen (view : σ → τ) : EStateM.Result Trap σ α → EStateM.Result Trap τ α
  | .ok value next => .ok value (view next)
  | .error trap next => .error trap (view next)

theorem seen_keeping (view : σ → τ) (operation : σ → Except Trap (α × σ))
    (state : σ) :
    seen view (keeping operation state) =
      match operation state with
      | .ok (value, next) => .ok value (view next)
      | .error trap => .error trap (view state) := by
  rw [keeping]
  cases operation state <;> rfl

/-- A call that fails and keeps the state is seen to keep it. -/
theorem state_of_seen_keeping {view : σ → τ}
    {operation : σ → Except Trap (α × σ)} {state : σ} {trap : Trap} {next : τ}
    (failed : seen view (keeping operation state) = .error trap next) :
    next = view state := by
  rw [seen_keeping] at failed
  split at failed
  · cases failed
  · cases failed
    rfl

/-- A machine on which every call is seen as it is on another one gives the same
answers along every run. -/
theorem run_view {shown : κ → EStateM Trap τ α} (view : σ → τ)
    (same : ∀ call state,
      shown call (view state) = seen view (perform call state)) (calls : List κ)
    (state : σ) :
    run shown calls (view state) =
      ((run perform calls state).1, view (run perform calls state).2) := by
  induction calls generalizing state with
  | nil => rfl
  | cons call calls induction =>
      simp only [run, same]
      cases perform call state with
      | ok value next => simp only [seen, stateAfter, answer, induction]
      | error trap next => simp only [seen, stateAfter, answer, induction]

end Runs

/-! ## Calls that get and set values -/

/-- A call that gets or sets the value at an index. -/
inductive Access (ι : Type) where
  | get (index : ι)
  | set (index : ι) (value : Value)
deriving DecidableEq

namespace Access

/-- Each call that was made, with the value that it returned. -/
abbrev History (ι : Type) :=
  List (Access ι × Except Trap (Option Value))

section Operations

variable {ι : Type} (get : σ → ι → Except Trap Value)
  (set : σ → ι → Value → Except Trap σ)

/-- Getting a value, as a call. -/
def getting (index : ι) : EStateM Trap σ Value :=
  keeping fun state => (get state index).map fun value => (value, state)

/-- Setting a value, as a call. -/
def setting (index : ι) (value : Value) : EStateM Trap σ Unit :=
  keeping fun state => (set state index value).map fun changed => ((), changed)

/-- The value that a call returns, if it returns one, and the state behind
it. -/
def outcome (call : Access ι) (state : σ) : Except Trap (Option Value × σ) :=
  match call with
  | .get index => (get state index).map fun value => (some value, state)
  | .set index value =>
      (set state index value).map fun changed => (none, changed)

/-- Carries out a call; the state is kept if it fails. -/
def perform (call : Access ι) : EStateM Trap σ (Option Value) :=
  keeping (outcome get set call)

end Operations

section Written

variable {ι : Type} [DecidableEq ι]

/-- The value that a call has written at an index. -/
def written? (index : ι) :
    Access ι × Except Trap (Option Value) → Option Value
  | (.set place value, .ok _) => if place = index then some value else none
  | _ => none

/-- The value that was last written at an index. -/
def lastWritten? (index : ι) (history : History ι) : Option Value :=
  lastGiven? (written? index) history

end Written

section Steps

variable {ι : Type} {get : σ → ι → Except Trap Value}
  {set : σ → ι → Value → Except Trap σ}

theorem perform_get (index : ι) (state : σ) :
    perform get set (.get index) state =
      match get state index with
      | .ok value => .ok (some value) state
      | .error trap => .error trap state := by
  rw [perform, keeping, outcome]
  cases get state index <;> rfl

theorem perform_set (index : ι) (value : Value) (state : σ) :
    perform get set (.set index value) state =
      match set state index value with
      | .ok changed => .ok none changed
      | .error trap => .error trap state := by
  rw [perform, keeping, outcome]
  cases set state index value <;> rfl

/-- All that a call can do: it leaves the state as it is and has written
nothing, or it sets the value at an index. -/
theorem perform_cases [DecidableEq ι] (call : Access ι) (state : σ) :
    (stateAfter (perform get set call state) = state ∧
      ∀ index,
        written? index (call, answer (perform get set call state)) = none) ∨
    ∃ index value changed, set state index value = .ok changed ∧
      stateAfter (perform get set call state) = changed ∧
      ∀ other, written? other (call, answer (perform get set call state)) =
        if index = other then some value else none := by
  cases call with
  | get index =>
      rw [perform_get]
      cases get state index with
      | error trap => exact .inl ⟨rfl, fun _ => rfl⟩
      | ok value => exact .inl ⟨rfl, fun _ => rfl⟩
  | set index value =>
      rw [perform_set]
      cases wrote : set state index value with
      | error trap => exact .inl ⟨rfl, fun _ => rfl⟩
      | ok changed =>
          exact .inr ⟨index, value, changed, wrote, rfl, fun _ => rfl⟩

/-- What setting a value keeps, a run of calls keeps. -/
theorem run_keeps_of_set [DecidableEq ι] (holds : σ → Prop)
    (step : ∀ state index value changed,
      set state index value = .ok changed → holds state → holds changed)
    (calls : List (Access ι)) {state : σ} (start : holds state) :
    holds (run (perform get set) calls state).2 := by
  apply run_keeps holds _ calls start
  intro call state kept
  rcases perform_cases call state with
    ⟨same, _⟩ | ⟨index, value, changed, done, reached, _⟩
  · rwa [same]
  · rw [reached]
    exact step state index value changed done kept

/-- If a value that is set is seen at its index, and at no other one, a run
leaves at each index what was last written there. -/
theorem run_reads [DecidableEq ι] (observe : σ → ι → Option Value)
    (step : ∀ state index value changed,
      set state index value = .ok changed → ∀ other,
        observe changed other =
          if index = other then some value else observe state other)
    (calls : List (Access ι)) (state : σ) (index : ι) :
    observe (run (perform get set) calls state).2 index =
      (lastWritten? index (run (perform get set) calls state).1).or
        (observe state index) := by
  apply run_observes fun state => observe state index
  intro call state
  rcases perform_cases call state with
    ⟨same, nothing⟩ | ⟨place, value, changed, done, reached, wrote⟩
  · rw [same, nothing, Option.none_or]
  · rw [reached, wrote, step state place value changed done]
    split <;> rfl

end Steps

/-! ### Calls in place -/

section InPlace

variable {ι ε : Type}

/-- The value of the entry at a place of an array. -/
def getAt (value : ε → Value) (place : Nat) (missing : Trap) :
    EStateM Trap (Array ε) Value := do
  let entries ← getThe (Array ε)
  match entries[place]? with
  | none => throw missing
  | some entry => pure (value entry)

theorem getAt_toArray (value : ε → Value) (place : Nat) (missing : Trap)
    (entries : List ε) :
    getAt value place missing entries.toArray =
      match entries[place]? with
      | none => .error missing entries.toArray
      | some entry => .ok (value entry) entries.toArray := by
  rw [getAt, getThe_bind, List.getElem?_toArray]
  cases entries[place]? <;> rfl

/-- Carries out a call by operations on a state that they change in place. -/
def performInPlace (get : ι → EStateM Trap τ Value)
    (set : ι → Value → EStateM Trap τ Unit) :
    Access ι → EStateM Trap τ (Option Value)
  | .get index => do
      let value ← get index
      pure (some value)
  | .set index value => do
      set index value
      pure none

/-- Calls are seen on a view as they are, if getting and setting are seen so. -/
theorem performInPlace_eq {get : σ → ι → Except Trap Value}
    {set : σ → ι → Value → Except Trap σ} {view : σ → τ}
    {getInPlace : ι → EStateM Trap τ Value}
    {setInPlace : ι → Value → EStateM Trap τ Unit}
    (gets : ∀ state index,
      getInPlace index (view state) = seen view (getting get index state))
    (sets : ∀ state index value,
      setInPlace index value (view state) =
        seen view (setting set index value state))
    (call : Access ι) (state : σ) :
    performInPlace getInPlace setInPlace call (view state) =
      seen view (perform get set call state) := by
  cases call with
  | get index =>
      have single := gets state index
      rw [getting, seen_keeping] at single
      rw [perform_get]
      cases found : get state index with
      | error trap =>
          rw [found] at single
          exact bind_of_error single
      | ok value =>
          rw [found] at single
          exact bind_of_ok single
  | set index value =>
      have single := sets state index value
      rw [setting, seen_keeping] at single
      rw [perform_set]
      cases wrote : set state index value with
      | error trap =>
          rw [wrote] at single
          exact bind_of_error single
      | ok changed =>
          rw [wrote] at single
          exact bind_of_ok single

end InPlace

end Access

end Wasm.Session
