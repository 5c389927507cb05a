import Wasm.Decoding.Progress
import Wasm.Format.Section

/-!
# Binary format of modules

A module is eight bytes of header and a sequence of sections.  A section is its
kind, the size of its contents and the contents, which have to fill that size.
-/

namespace Wasm

open Decoder

/-- The bytes that every module starts with. -/
def Module.magic : List UInt8 :=
  [0x00, 0x61, 0x73, 0x6D]

/-- The bytes of the one version that is known. -/
def Module.versionBytes : List UInt8 :=
  [0x01, 0x00, 0x00, 0x00]

/-- The header of a module. -/
def Module.header : Decoder Unit := do
  let _ ← bytes Module.magic
  let _ ← bytes Module.versionBytes

/-- What a section says before its contents. -/
structure SectionHeader where
  kind : SectionKind
  size : UInt32
deriving DecidableEq, Repr

/-- The kind of a section is one byte. -/
def SectionKind.decoder : Decoder SectionKind :=
  byteMap SectionKind.ofByte?

/-- The header of a section is its kind and the size of its contents. -/
def SectionHeader.decoder : Decoder SectionHeader := do
  let kind ← SectionKind.decoder
  let size ← Leb128.uint32
  pure ⟨kind, size⟩

/-- A section whose contents have been split off but not yet read. -/
structure SectionFrame where
  header : SectionHeader
  contents : ByteCursor
deriving DecidableEq, Repr

/-- Splits off the next section.  A section out of order is an error at its
first byte, whatever its contents are. -/
def SectionFrame.decoder (last : Option SectionKind) :
    Decoder SectionFrame := do
  let start ← get
  let header ← SectionHeader.decoder
  if header.kind.mayFollow last then
    let contents ← window header.size
    pure ⟨header, contents⟩
  else
    reject (.atCursor start)

/-- The contents of a section that has been split off. -/
def SectionFrame.read (frame : SectionFrame) : Except Failure Section :=
  ((Section.decoder frame.header.kind).exhaust frame.contents).map Prod.fst

theorem SectionHeader.decoder_consuming : SectionHeader.decoder.Consuming :=
  (byteMap_consuming _).bind fun _ =>
    Leb128.uint32_consuming.nonGrowing.bind fun _ => pure_nonGrowing _

theorem SectionFrame.decoder_consuming (last : Option SectionKind) :
    (SectionFrame.decoder last).Consuming := by
  refine Consuming.bind_get fun start =>
    SectionHeader.decoder_consuming.bind fun header => ?_
  split
  · exact (window_nonGrowing _).bind fun _ => pure_nonGrowing _
  · exact reject_nonGrowing _

/-- How far the sections of a module could be read. -/
structure SectionReading where
  /-- Headers of the sections whose contents were looked at, in order. -/
  reached : List SectionHeader
  /-- The sections, or the first failure. -/
  result : Except Failure (List Section)

/-- Reads sections up to the end of the input. -/
def SectionReading.ofCursor (last : Option SectionKind) (cursor : ByteCursor) :
    SectionReading :=
  if cursor.isEmpty then
    ⟨[], .ok []⟩
  else
    match _split : SectionFrame.decoder last cursor with
    | .error failure => ⟨[], .error failure⟩
    | .ok (frame, after) =>
        match frame.read with
        | .error failure => ⟨[frame.header], .error failure⟩
        | .ok contents =>
            let others :=
              SectionReading.ofCursor (frame.header.kind.lastAfter last) after
            ⟨frame.header :: others.reached, others.result.map (contents :: ·)⟩
termination_by cursor.rest.length
decreasing_by exact SectionFrame.decoder_consuming last _split

/-- Reads all sections of a module. -/
def Module.readSections (input : List UInt8) : SectionReading :=
  match Module.header (ByteCursor.ofBytes input) with
  | .error failure => ⟨[], .error failure⟩
  | .ok (_, cursor) => SectionReading.ofCursor none cursor

/-- The module that the bytes are, or the first error in them. -/
def Module.decode (input : List UInt8) : Except DecodeError Module :=
  match (Module.readSections input).result with
  | .error failure => .error failure.error
  | .ok sections => .ok (Module.ofSections sections)

end Wasm
