import Mathlib.Algebra.BigOperators.Group.List.Basic
import Wasm.Proofs.BinaryGrammar.NextSection
import Wasm.Proofs.Decoding.Payment
import Wasm.Proofs.Decoding.VectorElements

/-!
# Modules are no larger than their input

The volume of a module is the number of its entries, of the elements of their
lists and of the bytes of their names and data.  Each of these was read from a
byte of the input of its own, so a number of entries that is written in the
input yields no more entries than there are bytes.
-/

namespace Wasm

open Decoder

/-! ## Volumes -/

/-- A function type, with its parameters and results. -/
def FunctionType.volume (type : FunctionType) : Nat :=
  1 + type.params.length + type.results.length

/-- An import, with the bytes of its names. -/
def Import.volume (entry : Import) : Nat :=
  1 + entry.moduleName.utf8ByteSize + entry.field.utf8ByteSize

/-- An export, with the bytes of its name. -/
def Export.volume (entry : Export) : Nat :=
  1 + entry.name.utf8ByteSize

/-- An element segment, with its functions. -/
def ElementSegment.volume (segment : ElementSegment) : Nat :=
  1 + segment.init.length

/-- A function, with its groups of locals and the bytes of its body. -/
def FunctionBody.volume (function : FunctionBody) : Nat :=
  1 + function.locals.length + function.body.length

/-- A data segment, with its bytes. -/
def DataSegment.volume (segment : DataSegment) : Nat :=
  1 + segment.init.length

/-- A custom section, with the bytes of its name and its data. -/
def CustomSection.volume (contents : CustomSection) : Nat :=
  1 + contents.name.utf8ByteSize + contents.data.length

/-- The volumes of some entries together. -/
def totalVolume {α : Type} (volume : α → Nat) (entries : List α) : Nat :=
  (entries.map volume).sum

/-- The entries of a module and what they hold.  Indices, tables, memories and
globals hold nothing that is counted. -/
def Module.volume (module : Module) : Nat :=
  totalVolume CustomSection.volume module.customs +
  totalVolume FunctionType.volume (module.types.getD []) +
  totalVolume Import.volume (module.imports.getD []) +
  (module.functions.getD []).length +
  (module.tables.getD []).length +
  (module.memories.getD []).length +
  (module.globals.getD []).length +
  totalVolume Export.volume (module.exports.getD []) +
  totalVolume ElementSegment.volume (module.elements.getD []) +
  totalVolume FunctionBody.volume (module.code.getD []) +
  totalVolume DataSegment.volume (module.data.getD [])

namespace Section

/-- The entries of a section and what they hold. -/
def volume : Section → Nat
  | .custom contents => contents.volume
  | .types entries => totalVolume FunctionType.volume entries
  | .imports entries => totalVolume Import.volume entries
  | .functions entries => entries.length
  | .tables entries => entries.length
  | .memories entries => entries.length
  | .globals entries => entries.length
  | .exports entries => totalVolume Export.volume entries
  | .start _ => 0
  | .elements entries => totalVolume ElementSegment.volume entries
  | .code entries => totalVolume FunctionBody.volume entries
  | .data entries => totalVolume DataSegment.volume entries

/-- The number of entries of a section that is a list of them. -/
def entryCount? : Section → Option Nat
  | .custom _ => none
  | .types entries => some entries.length
  | .imports entries => some entries.length
  | .functions entries => some entries.length
  | .tables entries => some entries.length
  | .memories entries => some entries.length
  | .globals entries => some entries.length
  | .exports entries => some entries.length
  | .start _ => none
  | .elements entries => some entries.length
  | .code entries => some entries.length
  | .data entries => some entries.length

end Section

/-! ## Entries -/

theorem pays_functionType :
    FunctionType.decoder.Pays 0 FunctionType.volume := by
  have types : (vector ValueType.decoder).Pays 0 _ :=
    (byteMap_consuming _).vector_pays
  apply (byteMap_consuming _).pays.bind
  intro _
  apply types.bind
  intro params
  apply types.bind
  intro results
  apply pays_pure
  simp only [FunctionType.volume]
  omega

theorem consuming_tableType : TableType.decoder.Consuming := by
  apply recognises_tableType.consuming
  rintro type ⟨limits, _, impossible⟩
  cases impossible

theorem consuming_limits : Limits.decoder.Consuming := by
  apply recognises_limits.consuming
  rintro limits ⟨sizes, _, impossible⟩
  cases impossible

theorem consuming_constExpr : ConstExpr.decoder.Consuming := by
  apply recognises_constExpr.consuming
  rintro expression ⟨operand, _, impossible⟩
  cases impossible

theorem consuming_importDescription : ImportDescription.decoder.Consuming := by
  apply recognises_importDescription.consuming
  rintro description ⟨type, _, impossible⟩
  cases impossible

theorem consuming_global : Global.decoder.Consuming := by
  apply recognises_global.consuming
  rintro entry ⟨_, init, rfl, _, impossible⟩
  cases impossible

theorem consuming_localGroup : LocalGroup.decoder.Consuming := by
  apply recognises_localGroup.consuming
  rintro group ⟨count, _, impossible⟩
  cases (List.append_eq_nil_iff.mp impossible.symm).2

theorem pays_import : Import.decoder.Pays 0 Import.volume := by
  apply pays_name.bind
  intro moduleName
  apply pays_name.bind
  intro field
  apply consuming_importDescription.pays.bind
  intro description
  apply pays_pure
  simp only [Import.volume]
  omega

theorem pays_export : Export.decoder.Pays 0 Export.volume := by
  apply pays_name.bind
  intro title
  apply (byteMap_consuming _).pays.bind
  intro kind
  apply pays_uint32.bind
  intro position
  apply pays_pure
  simp only [Export.volume]
  omega

theorem pays_elementSegment :
    ElementSegment.decoder.Pays 0 ElementSegment.volume := by
  apply pays_uint32.bind
  intro table
  apply consuming_constExpr.pays.bind
  intro offset
  apply Leb128.uint32_consuming.vector_pays.bind
  intro init
  apply pays_pure
  simp only [ElementSegment.volume]
  omega

theorem pays_functionBody :
    FunctionBody.decoder.Pays 0 FunctionBody.volume := by
  have contents : FunctionBody.contents.Pays 0 FunctionBody.volume := by
    apply consuming_localGroup.vector_pays.bind
    intro locals
    apply pays_takeRest.bind
    intro body
    split
    · apply pays_pure
      simp only [FunctionBody.volume]
      omega
    · exact pays_reject _
  apply pays_uint32.bind
  intro size cursor after function run
  have paid := contents.within size run
  omega

theorem pays_dataSegment : DataSegment.decoder.Pays 0 DataSegment.volume := by
  apply pays_uint32.bind
  intro memory
  apply consuming_constExpr.pays.bind
  intro offset
  apply pays_byteVector.bind
  intro init
  apply pays_pure
  simp only [DataSegment.volume]
  omega

theorem pays_customSection :
    CustomSection.decoder.Pays 0 CustomSection.volume := by
  apply pays_name.bind
  intro title
  apply pays_takeRest.bind
  intro data
  apply pays_pure
  simp only [CustomSection.volume]
  omega

/-! ## Sections -/

namespace Section

variable {kind : SectionKind} {contents after : ByteCursor} {entry : Section}

/-- The number of entries is written in front of them, and with what they hold
they fit into the bytes that were read behind it. -/
def CountedIn (entry : Section) (contents after : ByteCursor) : Prop :=
  ∃ count behind, Leb128.uint32 contents = .ok (count, behind) ∧
    entry.entryCount? = some count.toNat ∧
    entry.volume + after.rest.length ≤ behind.rest.length

theorem countedIn_of_vector {α : Type} {element : Decoder α} {weight : α → Nat}
    {make : List α → Section} (pays : element.Pays 0 weight)
    (counts : ∀ entries, (make entries).entryCount? = some entries.length)
    (weighs : ∀ entries, (make entries).volume = (entries.map weight).sum)
    (run : (make <$> vector element) contents = .ok (entry, after)) :
    entry.CountedIn contents after := by
  obtain ⟨entries, read, rfl⟩ := map_eq_ok_iff.mp run
  obtain ⟨count, behind, sized, rest⟩ := bind_eq_ok_iff.mp read
  obtain ⟨length, _⟩ := replicate_eq_ok_iff.mp rest
  have paid := pays.replicate count.toNat rest
  refine ⟨count, behind, sized, ?_, ?_⟩
  · rw [counts, length]
  · rw [weighs]
    simpa only [Nat.zero_add] using paid

/-- A section is a list of entries, or it has none and is paid for as a
whole. -/
theorem decoder_cases
    (run : Section.decoder kind contents = .ok (entry, after)) :
    entry.CountedIn contents after ∨
      entry.entryCount? = none ∧
        entry.volume + after.rest.length ≤ contents.rest.length := by
  have unit : ∀ {α : Type} (entries : List α),
      entries.length = (entries.map fun _ => 1).sum := by
    intro α entries
    simp
  cases kind with
  | custom =>
      obtain ⟨custom, read, rfl⟩ := map_eq_ok_iff.mp run
      have paid := pays_customSection read
      exact .inr ⟨rfl, by rwa [Nat.zero_add] at paid⟩
  | types =>
      exact .inl (countedIn_of_vector pays_functionType (fun _ => rfl)
        (fun _ => rfl) run)
  | imports =>
      exact .inl (countedIn_of_vector pays_import (fun _ => rfl)
        (fun _ => rfl) run)
  | functions =>
      exact .inl (countedIn_of_vector Leb128.uint32_consuming.pays
        (fun _ => rfl) unit run)
  | tables =>
      exact .inl (countedIn_of_vector consuming_tableType.pays
        (fun _ => rfl) unit run)
  | memories =>
      exact .inl (countedIn_of_vector consuming_limits.pays
        (fun _ => rfl) unit run)
  | globals =>
      exact .inl (countedIn_of_vector consuming_global.pays
        (fun _ => rfl) unit run)
  | exports =>
      exact .inl (countedIn_of_vector pays_export (fun _ => rfl)
        (fun _ => rfl) run)
  | start =>
      obtain ⟨function, read, rfl⟩ := map_eq_ok_iff.mp run
      have fewer := Leb128.uint32_consuming read
      exact .inr ⟨rfl,
        by simpa only [volume, Nat.zero_add] using Nat.le_of_lt fewer⟩
  | elements =>
      exact .inl (countedIn_of_vector pays_elementSegment (fun _ => rfl)
        (fun _ => rfl) run)
  | code =>
      exact .inl (countedIn_of_vector pays_functionBody (fun _ => rfl)
        (fun _ => rfl) run)
  | data =>
      exact .inl (countedIn_of_vector pays_dataSegment (fun _ => rfl)
        (fun _ => rfl) run)

theorem length_le_totalVolume {α : Type} {volume : α → Nat}
    (counted : ∀ entry, 1 ≤ volume entry) (entries : List α) :
    entries.length ≤ totalVolume volume entries := by
  have each : ∀ part ∈ entries.map volume, 1 ≤ part := by
    intro part member
    obtain ⟨entry, _, rfl⟩ := List.mem_map.mp member
    exact counted entry
  have total := List.length_le_sum_of_one_le _ each
  rwa [List.length_map] at total

/-- Every entry counts itself. -/
theorem entryCount_le_volume {entries : Nat}
    (counted : entry.entryCount? = some entries) :
    entries ≤ entry.volume := by
  cases entry with
  | custom contents => cases counted
  | start function => cases counted
  | functions list | tables list | memories list | globals list =>
      cases counted
      exact Nat.le_refl _
  | types list =>
      cases counted
      exact length_le_totalVolume
        (fun _ => by rw [FunctionType.volume]; omega) list
  | imports list =>
      cases counted
      exact length_le_totalVolume (fun _ => by rw [Import.volume]; omega) list
  | exports list =>
      cases counted
      exact length_le_totalVolume (fun _ => by rw [Export.volume]; omega) list
  | elements list =>
      cases counted
      exact length_le_totalVolume
        (fun _ => by rw [ElementSegment.volume]; omega) list
  | code list =>
      cases counted
      exact length_le_totalVolume
        (fun _ => by rw [FunctionBody.volume]; omega) list
  | data list =>
      cases counted
      exact length_le_totalVolume
        (fun _ => by rw [DataSegment.volume]; omega) list

theorem volume_add_rest_le
    (run : Section.decoder kind contents = .ok (entry, after)) :
    entry.volume + after.rest.length ≤ contents.rest.length := by
  rcases decoder_cases run with ⟨count, behind, sized, _, fits⟩ | ⟨_, fits⟩
  · have fewer := Leb128.uint32_consuming sized
    omega
  · exact fits

end Section

/-! ## Modules -/

theorem SectionFrame.volume_add_rest_le {last : Option SectionKind}
    {cursor after : ByteCursor} {frame : SectionFrame} {entry : Section}
    (split : SectionFrame.decoder last cursor = .ok (frame, after))
    (read : frame.read = .ok entry) :
    entry.volume + after.rest.length ≤ cursor.rest.length := by
  obtain ⟨_, between, headed, taken⟩ := decoder_eq_ok_iff.mp split
  obtain ⟨_, _, rest, _⟩ := window_eq_ok_iff.mp taken
  obtain ⟨behind, ran, _⟩ := read_eq_ok_iff_reads.mp read
  have header := SectionHeader.decoder_consuming headed
  have contents := Section.volume_add_rest_le ran
  rw [rest, List.length_append] at header
  omega

theorem SectionReading.volume_le {last : Option SectionKind}
    {cursor : ByteCursor} {sections : List Section}
    (read : (ofCursor last cursor).result = .ok sections) :
    totalVolume Section.volume sections ≤ cursor.rest.length := by
  refine induction_of_ok ?done ?step read
  case done =>
    intro last cursor _
    exact Nat.zero_le _
  case step =>
    intro last cursor after frame entry others split contents later
    have first := SectionFrame.volume_add_rest_le split contents
    simp only [totalVolume, List.map_cons, List.sum_cons] at later ⊢
    omega

namespace Module

theorem volume_insert_le (module : Module) (entry : Section) :
    (module.insert entry).volume ≤ module.volume + entry.volume := by
  cases entry <;>
    simp only [insert, volume, Section.volume, totalVolume, Option.getD_some,
      List.map_append,
      List.sum_append, List.map_cons, List.map_nil, List.sum_cons,
        List.sum_nil] <;>
    omega

theorem volume_foldl_insert_le (sections : List Section) (module : Module) :
    (sections.foldl insert module).volume ≤
      module.volume + totalVolume Section.volume sections := by
  induction sections generalizing module with
  | nil => exact Nat.le_refl _
  | cons entry others induction =>
      have first := volume_insert_le module entry
      have later := induction (module.insert entry)
      simp only [List.foldl_cons, totalVolume, List.map_cons,
        List.sum_cons] at later ⊢
      omega

/-- A module that was decoded has a volume of at most the bytes of the input
behind its header.  A section that is a list has as many entries as the number
in front of them says, and with what they hold they are no more than the bytes
behind that number. -/
theorem decoded_modules_fit_their_input :
    (∀ input module, decode input = .ok module →
      module.volume + 8 ≤ input.length) ∧
    (∀ kind contents entry after entries,
      Section.decoder kind contents = .ok (entry, after) →
        entry.entryCount? = some entries →
        ∃ count behind, Leb128.uint32 contents = .ok (count, behind) ∧
          entries = count.toNat ∧ entries ≤ entry.volume ∧
          entry.volume + after.rest.length ≤ behind.rest.length) := by
  constructor
  · intro input module decoded
    obtain ⟨sections, read, rfl⟩ := decode_eq_ok_iff.mp decoded
    obtain ⟨_, chunks, _, rfl⟩ := readSections_eq_ok_iff.mp read
    change (readSections (preamble ++ chunks.flatten)).result =
      .ok sections at read
    rw [readSections_preamble] at read
    have sectionsFit :
        totalVolume Section.volume sections ≤ chunks.flatten.length :=
      SectionReading.volume_le read
    have moduleFits :
        (ofSections sections).volume ≤
          0 + totalVolume Section.volume sections :=
      volume_foldl_insert_le sections empty
    rw [List.length_append, List.length_cons]
    simp only [List.length_cons, List.length_nil]
    omega
  · intro kind contents entry after entries run counted
    rcases Section.decoder_cases run with
        ⟨count, behind, sized, same, fits⟩ | ⟨single, _⟩
    · rw [counted] at same
      exact ⟨count, behind, sized, Option.some.inj same,
        Section.entryCount_le_volume counted, fits⟩
    · rw [counted] at single
      cases single

/-- A function type with one parameter behind a custom section, and three
function indices that take all the bytes behind their number. -/
theorem decoded_modules_fit_their_input_with_three_indices :
    (decode (preamble ++ [0x00, 0x03, 0x01, 0x61, 0xFF, 0x01, 0x05, 0x01,
          0x60, 0x01, 0x7F, 0x00]) =
        .ok { empty with
          customs := [⟨"a", [0xFF]⟩], types := some [⟨[.i32], []⟩] } ∧
      volume { empty with
        customs := [⟨"a", [0xFF]⟩], types := some [⟨[.i32], []⟩] } + 8 ≤ 20) ∧
    (Section.decoder .functions ⟨10, [0x03, 0x00, 0x01, 0x00]⟩ =
        .ok (.functions [0, 1, 0], ⟨14, []⟩) ∧
      ∃ count behind, Leb128.uint32 ⟨10, [0x03, 0x00, 0x01, 0x00]⟩ =
        .ok (count, behind) ∧
        3 = count.toNat ∧ 3 ≤ (Section.functions [0, 1, 0]).volume ∧
        (Section.functions [0, 1, 0]).volume ≤ behind.rest.length) := by
  obtain ⟨fits, counted⟩ := decoded_modules_fit_their_input
  have decoded : decode (preamble ++
      [0x00, 0x03, 0x01, 0x61, 0xFF, 0x01, 0x05, 0x01, 0x60, 0x01, 0x7F,
        0x00]) =
        .ok { empty with
          customs := [⟨"a", [0xFF]⟩], types := some [⟨[.i32], []⟩] } := by
    decide +kernel
  have read : Section.decoder .functions ⟨10, [0x03, 0x00, 0x01, 0x00]⟩ =
      .ok (.functions [0, 1, 0], ⟨14, []⟩) := by
    decide +kernel
  exact ⟨⟨decoded, fits _ _ decoded⟩, read, counted _ _ _ _ _ read rfl⟩

end Module

end Wasm
