import Mathlib.Data.List.Induction
import Wasm.Proofs.BinaryGrammar.Production

/-!
# Modules made of sections

The sections of a module come in order, so no kind but the custom one occurs
twice.  Collecting them then loses nothing, and the sections determine the
module.
-/

namespace Wasm

namespace Section

/-- The sections may follow one after the other when `last` is the last one
before them that is not custom. -/
def OrderedAfter : Option SectionKind → List Section → Prop
  | _, [] => True
  | last, entry :: others =>
      entry.kind.mayFollow last = true ∧
        OrderedAfter (entry.kind.lastAfter last) others

theorem ordered_cons_iff_of_custom {entry : Section} {others : List Section}
    (custom : entry.kind = .custom) :
    Ordered (entry :: others) ↔ Ordered others := by
  simp [Ordered, custom]

theorem ordered_cons_iff_of_not_custom {entry : Section} {others : List Section}
    (proper : entry.kind ≠ .custom) :
    Ordered (entry :: others) ↔
      (∀ later ∈ others, later.kind ≠ .custom →
        entry.kind.toByte < later.kind.toByte) ∧
        Ordered others := by
  simp [Ordered, proper, List.pairwise_cons]

-- The state of the order check is only ever compared with the sections that are
-- still to come, so it can be replaced by a bound on all of them.
theorem orderedAfter_iff {last : Option SectionKind} {sections : List Section} :
    OrderedAfter last sections ↔
      (∀ earlier ∈ last, ∀ entry ∈ sections, entry.kind ≠ .custom →
        earlier.toByte < entry.kind.toByte) ∧ Ordered sections := by
  induction sections generalizing last with
  | nil => simp [OrderedAfter, Ordered]
  | cons entry others induction =>
      rw [OrderedAfter, induction]
      by_cases custom : entry.kind = .custom
      · rw [ordered_cons_iff_of_custom custom]
        simp [custom, SectionKind.mayFollow, SectionKind.lastAfter]
      · rw [ordered_cons_iff_of_not_custom custom]
        have allowed : entry.kind.mayFollow last = true ↔
            ∀ earlier ∈ last, earlier.toByte < entry.kind.toByte := by
          cases last <;> simp [SectionKind.mayFollow, custom]
        have state : entry.kind.lastAfter last = some entry.kind :=
          if_neg custom
        rw [allowed, state]
        constructor
        · intro parts
          obtain ⟨above, increasing, ordered⟩ := parts
          have later := increasing entry.kind rfl
          refine ⟨?_, later, ordered⟩
          intro earlier known candidate member proper
          rcases List.mem_cons.mp member with rfl | member
          · exact above earlier known
          · exact UInt8.lt_trans (above earlier known)
              (later candidate member proper)
        · intro parts
          obtain ⟨above, later, ordered⟩ := parts
          refine ⟨?_, ?_, ordered⟩
          · intro earlier known
            exact above earlier known entry List.mem_cons_self custom
          · intro kind same
            obtain rfl := Option.some.inj same
            exact later

theorem orderedAfter_none_iff {sections : List Section} :
    OrderedAfter none sections ↔ Ordered sections := by
  rw [orderedAfter_iff]
  simp

theorem ordered_concat {sections : List Section} {entry : Section}
    (ordered : Ordered (sections ++ [entry])) :
    Ordered sections ∧
      ∀ earlier ∈ sections, earlier.kind = entry.kind →
        entry.kind = .custom := by
  unfold Ordered at ordered
  rw [List.filter_append, List.pairwise_append] at ordered
  obtain ⟨before, _, increasing⟩ := ordered
  refine ⟨before, ?_⟩
  intro earlier member same
  by_contra proper
  have kept : earlier ∈ sections.filter fun entry => entry.kind != .custom := by
    simp [member, same, proper]
  have last : entry ∈ [entry].filter fun entry => entry.kind != .custom := by
    simp [proper]
  have less := increasing earlier kept entry last
  rw [same] at less
  exact UInt8.lt_irrefl _ less

end Section

namespace Module

theorem version_insert (module : Module) (entry : Section) :
    (module.insert entry).version = module.version := by
  cases entry <;> rfl

theorem customs_insert (module : Module) (entry : Section) :
    (module.insert entry).customs = module.customs ++ entry.custom?.toList := by
  cases entry <;> simp [insert, Section.custom?]

theorem sectionOf?_insert (module : Module) (entry : Section)
    {kind : SectionKind} (proper : kind ≠ .custom) :
    (module.insert entry).sectionOf? kind =
      if entry.kind = kind then some entry else module.sectionOf? kind := by
  cases kind with
  | custom => exact absurd rfl proper
  | _ => cases entry <;> rfl

theorem kind_of_sectionOf? {module : Module} {kind : SectionKind}
    {entry : Section} (found : module.sectionOf? kind = some entry) :
    entry.kind = kind := by
  cases kind with
  | custom => cases found
  | _ =>
      obtain ⟨_, _, rfl⟩ := Option.map_eq_some_iff.mp found
      rfl

theorem ofSections_concat (sections : List Section) (entry : Section) :
    ofSections (sections ++ [entry]) = (ofSections sections).insert entry := by
  simp [ofSections]

theorem holds_empty : empty.Holds [] where
  version := rfl
  customs := rfl
  sections := by
    intro entry _
    cases entry <;> simp [sectionOf?, empty, Section.kind]

theorem Holds.insert {module : Module} {sections : List Section}
    {entry : Section} (holds : module.Holds sections)
    (fresh : ∀ earlier ∈ sections, earlier.kind = entry.kind →
      entry.kind = .custom) :
    (module.insert entry).Holds (sections ++ [entry]) where
  version := by
    rw [version_insert, holds.version]
  customs := by
    rw [customs_insert, holds.customs, List.filterMap_append]
    cases entry <;> rfl
  sections := by
    intro candidate proper
    rw [sectionOf?_insert module entry proper, List.mem_append,
      List.mem_singleton]
    by_cases same : entry.kind = candidate.kind
    · have absent : candidate ∉ sections := by
        intro member
        rw [← same] at proper
        exact proper (fresh candidate member same.symm)
      rw [if_pos same]
      simp [absent, eq_comm]
    · have different : candidate ≠ entry := by
        intro equal
        subst equal
        exact same rfl
      rw [if_neg same, holds.sections candidate proper]
      simp [different]

theorem holds_ofSections {sections : List Section}
    (ordered : Section.Ordered sections) :
    (ofSections sections).Holds sections := by
  induction sections using List.reverseRecOn with
  | nil => exact holds_empty
  | append_singleton sections entry induction =>
      obtain ⟨before, fresh⟩ := Section.ordered_concat ordered
      rw [ofSections_concat]
      exact (induction before).insert fresh

theorem eq_of_sectionOf?_eq {left right : Module}
    (version : left.version = right.version)
    (customs : left.customs = right.customs)
    (same : ∀ kind, left.sectionOf? kind = right.sectionOf? kind) :
    left = right := by
  have types :=
    Option.map_injective (fun _ _ => Section.types.inj) (same .types)
  have imports :=
    Option.map_injective (fun _ _ => Section.imports.inj) (same .imports)
  have functions :=
    Option.map_injective (fun _ _ => Section.functions.inj) (same .functions)
  have tables :=
    Option.map_injective (fun _ _ => Section.tables.inj) (same .tables)
  have memories :=
    Option.map_injective (fun _ _ => Section.memories.inj) (same .memories)
  have globals :=
    Option.map_injective (fun _ _ => Section.globals.inj) (same .globals)
  have exports :=
    Option.map_injective (fun _ _ => Section.exports.inj) (same .exports)
  have start :=
    Option.map_injective (fun _ _ => Section.start.inj) (same .start)
  have elements :=
    Option.map_injective (fun _ _ => Section.elements.inj) (same .elements)
  have code := Option.map_injective (fun _ _ => Section.code.inj) (same .code)
  have data := Option.map_injective (fun _ _ => Section.data.inj) (same .data)
  cases left
  cases right
  simp only [mk.injEq]
  exact ⟨version, customs, types, imports, functions, tables, memories,
    globals, exports, start, elements, code, data⟩

/-- The sections determine the module that holds them. -/
theorem Holds.unique {left right : Module} {sections : List Section}
    (leftHolds : left.Holds sections) (rightHolds : right.Holds sections) :
    left = right := by
  apply eq_of_sectionOf?_eq
  · rw [leftHolds.version, rightHolds.version]
  · rw [leftHolds.customs, rightHolds.customs]
  · intro kind
    by_cases custom : kind = .custom
    · subst custom
      rfl
    · have listed : ∀ {module : Module}, module.Holds sections →
          ∀ entry, module.sectionOf? kind = some entry ↔
            entry.kind = kind ∧ entry ∈ sections := by
        intro module holds entry
        constructor
        · intro found
          have same := kind_of_sectionOf? found
          rw [← same] at found custom
          exact ⟨same, (holds.sections entry custom).mp found⟩
        · intro parts
          obtain ⟨rfl, member⟩ := parts
          exact (holds.sections entry custom).mpr member
      apply Option.ext
      intro entry
      rw [listed leftHolds, listed rightHolds]

theorem holds_iff_eq_ofSections {module : Module} {sections : List Section}
    (ordered : Section.Ordered sections) :
    module.Holds sections ↔ module = ofSections sections := by
  constructor
  · intro holds
    exact holds.unique (holds_ofSections ordered)
  · intro equal
    subst equal
    exact holds_ofSections ordered

end Module

end Wasm
