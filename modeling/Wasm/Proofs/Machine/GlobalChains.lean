import Mathlib.Logic.Relation
import Wasm.Proofs.Machine.GlobalHistory

/-!
# Initial values of globals

The initial value of a global is a constant, or that of an earlier global.
References lead to smaller and smaller places, so they end at a constant.
Instantiation copies values along them: it succeeds if every initial value has
the declared type, and otherwise reports the first global whose initial value
cannot be had.
-/

namespace Wasm

/-- The value that a constant expression is, unless it refers to a global. -/
def ConstExpr.constant? : ConstExpr → Option Value
  | .globalGet _ => none
  | .i32 number => some (.i32 number)
  | .i64 number => some (.i64 number)
  | .f32 number => some (.f32 number)
  | .f64 number => some (.f64 number)

namespace Global

/-! ## Chains of references -/

/-- The type that the values of the global at a place have to have. -/
def declaredType? (globals : List Global) (place : Nat) : Option ValueType :=
  globals[place]?.map fun global => global.type.valueType

/-- The expression that gives the global at a place its initial value. -/
def initial? (globals : List Global) (place : Nat) : Option ConstExpr :=
  globals[place]?.map Global.init

/-- The initial value of the global at a place is a constant. -/
def IsConstant (globals : List Global) (place : Nat) (value : Value) : Prop :=
  (initial? globals place).bind ConstExpr.constant? = some value

/-- The initial value of the global at a place is that of the one at an earlier
place. -/
def RefersTo (globals : List Global) (place earlier : Nat) : Prop :=
  earlier < place ∧
    ∃ index : GlobalIndex, initial? globals place = some (.globalGet index) ∧
      index.toNat = earlier

/-- References lead from the global at a place to a constant. -/
def Denotes (globals : List Global) (place : Nat) (value : Value) : Prop :=
  ∃ last, Relation.ReflTransGen (RefersTo globals) place last ∧
    IsConstant globals last value

/-- The initial value of the global at a place is a constant of the declared
type, or that of an earlier global that is declared with the same type. -/
def Resolves (globals : List Global) (place : Nat) : Prop :=
  (∃ value, IsConstant globals place value ∧
    declaredType? globals place = some value.type) ∨
    ∃ earlier, RefersTo globals place earlier ∧
      declaredType? globals earlier = declaredType? globals place

/-- Why the global at a place has no initial value: it refers to one that is not
earlier, or the value that it leads to has another type than the declared
one. -/
def Fails (globals : List Global) (place : Nat) (trap : Trap) : Prop :=
  (∃ index : GlobalIndex, initial? globals place = some (.globalGet index) ∧
      place ≤ index.toNat ∧ trap = .globalOutOfRange index) ∨
    ∃ type value, declaredType? globals place = some type ∧
      Denotes globals place value ∧
      value.type ≠ type ∧ trap = .typeMismatch type value.type

/-- The global at a place is the first one without an initial value. -/
structure FirstFault (globals : List Global) (place : Nat) (trap : Trap) :
    Prop where
  before : ∀ earlier < place, Resolves globals earlier
  unresolved : ¬ Resolves globals place
  cause : Fails globals place trap

section Chains

variable {globals : List Global} {place earlier other : Nat}
  {value found : Value} {trap another : Trap}

theorem IsConstant.unique (constant : IsConstant globals place value)
    (again : IsConstant globals place found) : value = found :=
  Option.some.inj (constant.symm.trans again)

theorem RefersTo.unique (refers : RefersTo globals place earlier)
    (again : RefersTo globals place other) : earlier = other := by
  obtain ⟨_, index, init, rfl⟩ := refers
  obtain ⟨_, same, initAgain, rfl⟩ := again
  rw [init] at initAgain
  cases initAgain
  rfl

theorem not_isConstant_of_globalGet {index : GlobalIndex}
    (init : initial? globals place = some (.globalGet index)) :
    ¬ IsConstant globals place value := by
  intro constant
  rw [IsConstant, init] at constant
  cases constant

theorem RefersTo.not_isConstant (refers : RefersTo globals place earlier) :
    ¬ IsConstant globals place value := by
  obtain ⟨_, index, init, _⟩ := refers
  exact not_isConstant_of_globalGet init

theorem RefersTo.lt_of_globalGet {index : GlobalIndex}
    (refers : RefersTo globals place earlier)
    (init : initial? globals place = some (.globalGet index)) :
    index.toNat < place := by
  obtain ⟨inside, same, initAgain, rfl⟩ := refers
  rw [init] at initAgain
  cases initAgain
  exact inside

/-- The first step of a chain. -/
theorem denotes_iff :
    Denotes globals place value ↔
      IsConstant globals place value ∨
        ∃ earlier, RefersTo globals place earlier ∧
          Denotes globals earlier value := by
  constructor
  · rintro ⟨last, chain, constant⟩
    rcases chain.cases_head with rfl | ⟨earlier, refers, rest⟩
    · exact .inl constant
    · exact .inr ⟨earlier, refers, last, rest, constant⟩
  · rintro (constant | ⟨earlier, refers, last, chain, constant⟩)
    · exact ⟨place, .refl, constant⟩
    · exact ⟨last, .head refers chain, constant⟩

/-- A chain has one end. -/
theorem Denotes.unique (denotes : Denotes globals place value)
    (again : Denotes globals place found) : value = found := by
  obtain ⟨last, chain, constant⟩ := denotes
  induction chain using Relation.ReflTransGen.head_induction_on with
  | refl =>
      rcases denotes_iff.mp again with same | ⟨earlier, refers, _⟩
      · exact constant.unique same
      · exact absurd constant refers.not_isConstant
  | head refers _ induction =>
      rcases denotes_iff.mp again with same | ⟨earlier, refersAgain, rest⟩
      · exact absurd same refers.not_isConstant
      · rw [← refers.unique refersAgain] at rest
        exact induction rest

/-- Along a chain of globals that resolve, all are declared with the type of the
constant. -/
theorem Denotes.declaredType?_eq (denotes : Denotes globals place value)
    (resolved : ∀ earlier ≤ place, Resolves globals earlier) :
    declaredType? globals place = some value.type := by
  obtain ⟨last, chain, constant⟩ := denotes
  induction chain using Relation.ReflTransGen.head_induction_on with
  | refl =>
      rcases resolved last (Nat.le_refl last) with
          ⟨same, isSame, typed⟩ | ⟨earlier, refers, _⟩
      · rwa [isSame.unique constant] at typed
      · exact absurd constant refers.not_isConstant
  | @head start next refers _ induction =>
      have later : declaredType? globals next = some value.type := by
        apply induction
        intro earlier before
        exact resolved earlier (Nat.le_trans before (Nat.le_of_lt refers.1))
      rcases resolved start (Nat.le_refl start) with
          ⟨same, isSame, _⟩ | ⟨earlier, again, typed⟩
      · exact absurd isSame refers.not_isConstant
      · rw [← refers.unique again, later] at typed
        exact typed.symm

/-- A global that fails behind globals that resolve does not resolve itself. -/
theorem Fails.not_resolves (fails : Fails globals place trap)
    (before : ∀ earlier < place, Resolves globals earlier) :
    ¬ Resolves globals place := by
  intro resolves
  rcases fails with
      ⟨index, init, outside, _⟩ | ⟨type, value, declared, denotes, wrong, _⟩
  · rcases resolves with ⟨value, constant, _⟩ | ⟨earlier, refers, _⟩
    · exact not_isConstant_of_globalGet init constant
    · exact absurd (refers.lt_of_globalGet init) (Nat.not_lt_of_le outside)
  · have typed := denotes.declaredType?_eq fun earlier upTo =>
      (Nat.lt_or_eq_of_le upTo).elim (before earlier) fun same =>
        same ▸ resolves
    rw [declared] at typed
    exact wrong (Option.some.inj typed).symm

theorem not_denotes_of_outside {index : GlobalIndex}
    (init : initial? globals place = some (.globalGet index))
    (outside : place ≤ index.toNat) :
    ¬ Denotes globals place value := by
  intro denotes
  rcases denotes_iff.mp denotes with constant | ⟨earlier, refers, _⟩
  · exact not_isConstant_of_globalGet init constant
  · exact absurd (refers.lt_of_globalGet init) (Nat.not_lt_of_le outside)

theorem Fails.unique (fails : Fails globals place trap)
    (again : Fails globals place another) :
    trap = another := by
  rcases fails with
      ⟨index, init, outside, rfl⟩ | ⟨type, value, declared, denotes, _, rfl⟩
  · rcases again with ⟨same, initAgain, _, rfl⟩ | ⟨_, value, _, denotes, _⟩
    · rw [init] at initAgain
      cases initAgain
      rfl
    · exact absurd denotes (not_denotes_of_outside init outside)
  · rcases again with
        ⟨index, init, outside, _⟩ | ⟨_, found, declaredAgain,
          denotesAgain, _, rfl⟩
    · exact absurd denotes (not_denotes_of_outside init outside)
    · rw [denotes.unique denotesAgain]
      rw [declared] at declaredAgain
      cases declaredAgain
      rfl

/-- There is at most one first fault. -/
theorem FirstFault.unique (first : FirstFault globals place trap)
    (again : FirstFault globals other another) :
    place = other ∧ trap = another := by
  have same : place = other := by
    rcases Nat.lt_trichotomy place other with less | equal | greater
    · exact absurd (again.before place less) first.unresolved
    · exact equal
    · exact absurd (first.before other greater) again.unresolved
  subst same
  exact ⟨rfl, first.cause.unique again.cause⟩

end Chains

/-! ## One global after the other -/

/-- The instances are those of the first globals, which resolve: they have the
values that the chains lead to. -/
def Begun (globals : List Global) (instances : List GlobalInstance) : Prop :=
  ∀ (place : Nat) (instantiated : GlobalInstance),
    instances[place]? = some instantiated →
    Denotes globals place instantiated.value ∧ Resolves globals place

section Steps

variable {globals : List Global} {instances : List GlobalInstance}
  {global : Global}

theorem Begun.resolves (begun : Begun globals instances) :
    ∀ earlier < instances.length, Resolves globals earlier := by
  intro earlier inside
  exact (begun earlier _ (List.getElem?_eq_getElem inside)).2

/-- The value of an instance has the type that its global is declared with. -/
theorem Begun.declaredType?_eq (begun : Begun globals instances) {place : Nat}
    {instantiated : GlobalInstance}
    (there : instances[place]? = some instantiated) :
    declaredType? globals place = some instantiated.value.type := by
  obtain ⟨denotes, _⟩ := begun place instantiated there
  apply denotes.declaredType?_eq
  intro earlier before
  obtain ⟨inside, _⟩ := List.getElem?_eq_some_iff.mp there
  exact begun.resolves earlier (Nat.lt_of_le_of_lt before inside)

/-- A constant expression behind the instances of the first globals has the
value that the chain leads to, or refers to a global that is not earlier. -/
theorem Begun.evaluate_cases (begun : Begun globals instances)
    (there : globals[instances.length]? = some global) :
    (∃ value, global.init.evaluate instances = .ok value ∧
      Denotes globals instances.length value) ∨
    ∃ trap, global.init.evaluate instances = .error trap ∧
      Fails globals instances.length trap := by
  have init : initial? globals instances.length = some global.init := by
    rw [initial?, there]
    rfl
  have constant : ∀ {value : Value}, global.init.constant? = some value →
      Denotes globals instances.length value := by
    intro value literal
    apply denotes_iff.mpr
    left
    rw [IsConstant, init]
    exact literal
  cases expression : global.init with
  | globalGet index =>
      rw [expression] at init
      cases found : instances[index.toNat]? with
      | none =>
          right
          refine ⟨.globalOutOfRange index, ?_, ?_⟩
          · simp only [ConstExpr.evaluate, found]
          · exact .inl ⟨index, init, List.getElem?_eq_none_iff.mp found, rfl⟩
      | some instantiated =>
          left
          obtain ⟨inside, _⟩ := List.getElem?_eq_some_iff.mp found
          refine ⟨instantiated.value, ?_, ?_⟩
          · simp only [ConstExpr.evaluate, found]
          · apply denotes_iff.mpr
            right
            exact ⟨index.toNat, ⟨inside, index, init, rfl⟩, (begun _ _ found).1⟩
  | i32 number =>
      exact .inl ⟨.i32 number, rfl, constant (by rw [expression]; rfl)⟩
  | i64 number =>
      exact .inl ⟨.i64 number, rfl, constant (by rw [expression]; rfl)⟩
  | f32 number =>
      exact .inl ⟨.f32 number, rfl, constant (by rw [expression]; rfl)⟩
  | f64 number =>
      exact .inl ⟨.f64 number, rfl, constant (by rw [expression]; rfl)⟩

/-- A value of the declared type resolves its global. -/
theorem Begun.resolves_of_denotes (begun : Begun globals instances)
    {value : Value} (denotes : Denotes globals instances.length value)
    (typed : declaredType? globals instances.length = some value.type) :
    Resolves globals instances.length := by
  rcases denotes_iff.mp denotes with constant | ⟨earlier, refers, rest⟩
  · exact .inl ⟨value, constant, typed⟩
  · right
    refine ⟨earlier, refers, ?_⟩
    have found := List.getElem?_eq_getElem refers.1
    have same := (begun earlier _ found).1.unique rest
    rw [begun.declaredType?_eq found, same, typed]

theorem Begun.concat (begun : Begun globals instances) {fresh : GlobalInstance}
    (denotes : Denotes globals instances.length fresh.value)
    (resolves : Resolves globals instances.length) :
    Begun globals (instances ++ [fresh]) := by
  intro place instantiated found
  rcases Nat.lt_trichotomy place instances.length with before | rfl | behind
  · rw [List.getElem?_append_left before] at found
    exact begun place instantiated found
  · rw [List.getElem?_concat_length] at found
    cases found
    exact ⟨denotes, resolves⟩
  · have outside : (instances ++ [fresh]).length ≤ place := by
      rw [List.length_append]
      exact behind
    rw [List.getElem?_eq_none outside] at found
    cases found

/-- The next global becomes the next instance, or it is the first one that
fails. -/
theorem Begun.instantiate_cases (begun : Begun globals instances)
    (there : globals[instances.length]? = some global) :
    (∃ fresh, global.instantiate instances = .ok fresh ∧
      Begun globals (instances ++ [fresh])) ∨
    ∃ trap, global.instantiate instances = .error trap ∧
      FirstFault globals instances.length trap := by
  have declared :
      declaredType? globals instances.length = some global.type.valueType := by
    rw [declaredType?, there]
    rfl
  have first : ∀ {trap : Trap}, Fails globals instances.length trap →
      FirstFault globals instances.length trap := by
    intro trap fails
    exact ⟨begun.resolves, fails.not_resolves begun.resolves, fails⟩
  rcases begun.evaluate_cases there with
      ⟨value, evaluated, denotes⟩ | ⟨trap, failed, fails⟩
  · by_cases typed : value.type = global.type.valueType
    · left
      refine ⟨⟨global.type, value⟩, ?_, ?_⟩
      · simp only [instantiate, evaluated, if_pos typed]
      · rw [← typed] at declared
        exact begun.concat denotes (begun.resolves_of_denotes denotes declared)
    · right
      refine ⟨.typeMismatch global.type.valueType value.type, ?_, ?_⟩
      · simp only [instantiate, evaluated, if_neg typed]
      · exact first (.inr ⟨_, value, declared, denotes, typed, rfl⟩)
  · right
    refine ⟨trap, ?_, first fails⟩
    simp only [instantiate, failed]

theorem lt_length_of_initial? {place : Nat} {expression : ConstExpr}
    (init : initial? globals place = some expression) :
    place < globals.length := by
  obtain ⟨global, found, _⟩ := Option.map_eq_some_iff.mp init
  exact (List.getElem?_eq_some_iff.mp found).1

theorem Denotes.lt_length {place : Nat} {value : Value}
    (denotes : Denotes globals place value) :
    place < globals.length := by
  rcases denotes_iff.mp denotes with constant | ⟨_, ⟨_, index, init, _⟩, _⟩
  · obtain ⟨expression, init, _⟩ := Option.bind_eq_some_iff.mp constant
    exact lt_length_of_initial? init
  · exact lt_length_of_initial? init

theorem FirstFault.lt_length {place : Nat} {trap : Trap}
    (fault : FirstFault globals place trap) : place < globals.length := by
  rcases fault.cause with ⟨index, init, _⟩ | ⟨_, value, _, denotes, _⟩
  · exact lt_length_of_initial? init
  · exact denotes.lt_length

theorem Begun.value_eq_iff_denotes (begun : Begun globals instances)
    (count : instances.length = globals.length) (place : Nat) (value : Value) :
    instances[place]?.map GlobalInstance.value = some value ↔
      Denotes globals place value := by
  constructor
  · intro found
    obtain ⟨instantiated, there, rfl⟩ := Option.map_eq_some_iff.mp found
    exact (begun place instantiated there).1
  · intro denotes
    have there := List.getElem?_eq_getElem (count ▸ denotes.lt_length)
    rw [there]
    exact congrArg some ((begun place _ there).1.unique denotes)

end Steps

end Global

open Global

/-! ## Whole modules -/

/-- Initialising the globals behind the first ones gives all instances, or stops
at the first fault. -/
theorem Instantiation.ofGlobals_cases (globals before others : List Global)
    (instances : List GlobalInstance) (whole : globals = before ++ others)
    (count : instances.length = before.length)
    (begun : Begun globals instances) :
    ((ofGlobals instances others).error = none ∧
      Begun globals (ofGlobals instances others).globals ∧
      (ofGlobals instances others).globals.length = globals.length) ∨
    ∃ place trap, (ofGlobals instances others).error = some (.trap trap) ∧
      FirstFault globals place trap := by
  induction others generalizing before instances with
  | nil =>
      left
      rw [List.append_nil] at whole
      rw [whole] at begun ⊢
      exact ⟨rfl, begun, count⟩
  | cons global others induction =>
      have there : globals[instances.length]? = some global := by
        rw [whole, count, List.getElem?_append_right (Nat.le_refl _),
          Nat.sub_self]
        rfl
      unfold ofGlobals
      rcases begun.instantiate_cases there with
          ⟨fresh, done, longer⟩ | ⟨trap, failed, fault⟩
      · rw [done]
        apply induction (before ++ [global]) (instances ++ [fresh]) _ _ longer
        · rw [whole, List.append_assoc]
          rfl
        · rw [List.length_append, List.length_append, count]
          rfl
      · rw [failed]
        exact .inr ⟨instances.length, trap, rfl, fault⟩

/-- The import brings a global into the module. -/
def Import.ImportsGlobal (item : Import) : Prop :=
  ∃ type, item.description = .global type

theorem Import.isGlobal_iff {item : Import} :
    item.isGlobal = true ↔ item.ImportsGlobal := by
  unfold Import.isGlobal Import.ImportsGlobal
  cases item.description <;> simp

/-- The item is the first of the imports that brings a global into the
module. -/
def Module.FirstImportedGlobal (module : Module) (item : Import) : Prop :=
  ∃ before behind, module.imports.getD [] = before ++ item :: behind ∧
    item.ImportsGlobal ∧ ∀ other ∈ before, ¬ other.ImportsGlobal

/-- No import brings a global into the module. -/
def Module.ImportsNoGlobal (module : Module) : Prop :=
  ∀ item ∈ module.imports.getD [], ¬ item.ImportsGlobal

namespace Store

section Modules

variable {module : Module}

theorem find?_isGlobal_eq_some_iff {item : Import} :
    (module.imports.getD []).find? Import.isGlobal = some item ↔
      module.FirstImportedGlobal item := by
  rw [List.find?_eq_some_iff_append, Import.isGlobal_iff]
  simp only [Module.FirstImportedGlobal, ← Import.isGlobal_iff,
    Bool.not_eq_true, Bool.not_eq_eq_eq_not, Bool.not_true]
  constructor
  · rintro ⟨isGlobal, before, behind, whole, earlier⟩
    exact ⟨before, behind, whole, isGlobal, earlier⟩
  · rintro ⟨before, behind, whole, isGlobal, earlier⟩
    exact ⟨isGlobal, before, behind, whole, earlier⟩

theorem find?_isGlobal_eq_none_iff :
    (module.imports.getD []).find? Import.isGlobal = none ↔
      module.ImportsNoGlobal := by
  simp only [List.find?_eq_none, Import.isGlobal_iff, Module.ImportsNoGlobal]

theorem imports_cases (module : Module) :
    module.ImportsNoGlobal ∨ ∃ item, module.FirstImportedGlobal item := by
  cases found : (module.imports.getD []).find? Import.isGlobal with
  | none => exact .inl (find?_isGlobal_eq_none_iff.mp found)
  | some item => exact .inr ⟨item, find?_isGlobal_eq_some_iff.mp found⟩

/-- An imported global is reported, whatever the globals of the module are. -/
theorem ofModule_of_importedGlobal {item : Import}
    (first : module.FirstImportedGlobal item) :
    ofModule module = .error (.importedGlobal item.moduleName item.field) := by
  simp only [ofModule, Instantiation.ofModule,
    find?_isGlobal_eq_some_iff.mpr first]

/-- Without imported globals there is an instance for each global, or a first
fault. -/
theorem ofModule_cases (unimported : module.ImportsNoGlobal) :
    (∃ store, ofModule module = .ok store ∧
      Begun (module.globals.getD []) store.globals ∧
      store.globals.length = (module.globals.getD []).length) ∨
    ∃ place trap, ofModule module = .error (.trap trap) ∧
      FirstFault (module.globals.getD []) place trap := by
  have start : Begun (module.globals.getD []) [] := nofun
  have cases :=
    Instantiation.ofGlobals_cases _ [] (module.globals.getD []) [] rfl rfl start
  simp only [ofModule, Instantiation.ofModule,
    find?_isGlobal_eq_none_iff.mpr unimported]
  rcases cases with ⟨complete, begun, count⟩ | ⟨place, trap, stopped, fault⟩
  · rw [complete]
    exact .inl ⟨_, rfl, begun, count⟩
  · rw [stopped]
    exact .inr ⟨place, trap, rfl, fault⟩

theorem ofModule_of_resolved (unimported : module.ImportsNoGlobal)
    (resolved : ∀ place < (module.globals.getD []).length,
      Resolves (module.globals.getD []) place) :
    ∃ store, ofModule module = .ok store := by
  rcases ofModule_cases unimported with
      ⟨store, done, _⟩ | ⟨place, trap, _, fault⟩
  · exact ⟨store, done⟩
  · exact absurd (resolved place fault.lt_length) fault.unresolved

theorem ofModule_of_firstFault (unimported : module.ImportsNoGlobal)
    {place : Nat} {trap : Trap}
    (fault : FirstFault (module.globals.getD []) place trap) :
    ofModule module = .error (.trap trap) := by
  rcases ofModule_cases unimported with
      ⟨store, _, begun, count⟩ | ⟨other, another, failed, again⟩
  · exact absurd (begun.resolves place (count ▸ fault.lt_length))
      fault.unresolved
  · rw [(fault.unique again).2]
    exact failed

/-- A store is had only if no global is imported and every global has its
instance. -/
theorem begun_of_ofModule {store : Store} (done : ofModule module = .ok store) :
    module.ImportsNoGlobal ∧ Begun (module.globals.getD []) store.globals ∧
      store.globals.length = (module.globals.getD []).length := by
  rcases imports_cases module with unimported | ⟨item, first⟩
  · rcases ofModule_cases unimported with
        ⟨same, doneAgain, begun, count⟩ | ⟨place, trap, failed, _⟩
    · rw [done] at doneAgain
      cases doneAgain
      exact ⟨unimported, begun, count⟩
    · rw [done] at failed
      cases failed
  · rw [ofModule_of_importedGlobal first] at done
    cases done

end Modules

/-- A module is instantiated if it imports no global and each of its globals
resolves.  Each instance then has the declared type and the value that the chain
of references leads to.  Otherwise the first imported global is reported, and
without one the first global that does not resolve. -/
theorem instantiation_follows_references (module : Module) :
    ((∃ store, ofModule module = .ok store) ↔
      module.ImportsNoGlobal ∧
        ∀ place < (module.globals.getD []).length,
          Resolves (module.globals.getD []) place) ∧
    (∀ store, ofModule module = .ok store →
      store.types = (module.globals.getD []).map Global.type ∧
      ∀ (place : Nat) (value : Value),
        store.globals[place]?.map GlobalInstance.value = some value ↔
          Denotes (module.globals.getD []) place value) ∧
    (∀ error, ofModule module = .error error ↔
      (∃ item, module.FirstImportedGlobal item ∧
        error = .importedGlobal item.moduleName item.field ∧
        error.message =
          "imported global " ++ item.moduleName ++ "." ++ item.field ++
            " is not supported") ∨
      module.ImportsNoGlobal ∧ ∃ place trap,
        FirstFault (module.globals.getD []) place trap ∧
          error = .trap trap) := by
  refine ⟨⟨?_, ?_⟩, ?_, fun error => ⟨?_, ?_⟩⟩
  · rintro ⟨store, done⟩
    obtain ⟨unimported, begun, count⟩ := begun_of_ofModule done
    exact ⟨unimported, fun place inside =>
      begun.resolves place (count ▸ inside)⟩
  · rintro ⟨unimported, resolved⟩
    exact ofModule_of_resolved unimported resolved
  · intro store done
    obtain ⟨_, begun, count⟩ := begun_of_ofModule done
    exact ⟨(wellTyped_of_ofModule done).2, begun.value_eq_iff_denotes count⟩
  · intro failed
    rcases imports_cases module with unimported | ⟨item, first⟩
    · rcases ofModule_cases unimported with
          ⟨store, done, _⟩ | ⟨place, trap, failedAgain, fault⟩
      · rw [failed] at done
        cases done
      · rw [failed] at failedAgain
        cases failedAgain
        exact .inr ⟨unimported, place, trap, fault, rfl⟩
    · rw [ofModule_of_importedGlobal first] at failed
      cases failed
      exact .inl ⟨item, first, rfl, rfl⟩
  · rintro (⟨item, first, rfl, _⟩ | ⟨unimported, place, trap, fault, rfl⟩)
    · exact ofModule_of_importedGlobal first
    · exact ofModule_of_firstFault unimported fault

/-- Two references lead to one constant.  With another type declared in between,
that global is reported and not the reference behind it, which leads nowhere. -/
theorem instantiation_follows_two_references :
    Denotes [⟨⟨.i64, .constant⟩, .i64 7⟩, ⟨⟨.i64, .variable⟩, .globalGet 0⟩,
        ⟨⟨.i64, .constant⟩, .globalGet 1⟩] 2 (.i64 7) ∧
    ∃ place,
      FirstFault [⟨⟨.i64, .constant⟩, .i64 7⟩,
        ⟨⟨.f32, .variable⟩, .globalGet 0⟩,
        ⟨⟨.i64, .constant⟩, .globalGet 5⟩] place (.typeMismatch .f32 .i64) := by
  obtain ⟨_, values, _⟩ := instantiation_follows_references
    { Module.empty with
      globals :=
        some [⟨⟨.i64, .constant⟩, .i64 7⟩, ⟨⟨.i64, .variable⟩, .globalGet 0⟩,
        ⟨⟨.i64, .constant⟩, .globalGet 1⟩] }
  obtain ⟨_, _, errors⟩ := instantiation_follows_references
    { Module.empty with
      globals :=
        some [⟨⟨.i64, .constant⟩, .i64 7⟩, ⟨⟨.f32, .variable⟩, .globalGet 0⟩,
        ⟨⟨.i64, .constant⟩, .globalGet 5⟩] }
  refine ⟨((values _ rfl).2 2 (.i64 7)).mp rfl, ?_⟩
  rcases (errors (.trap (.typeMismatch .f32 .i64))).mp rfl with
      ⟨_, _, impossible, _⟩ |
      ⟨_, place, trap, fault, same⟩
  · cases impossible
  · cases same
    exact ⟨place, fault⟩

end Store

end Wasm
