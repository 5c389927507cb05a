import Wasm.Decimal.Notation
import Wasm.Format.Module
import Wasm.Machine.Store
import Wasm.Text.Lexer
import Wasm.Text.Quoted

/-!
# Log

What decoding, instantiation and lexing report about their progress.  The
records say how far a run got, also when it fails.
-/

namespace Wasm

/-- How important a record is. -/
inductive LogLevel where
  | info
  | debug
  | trace
deriving DecidableEq, Repr

/-- The name of a level. -/
def LogLevel.name : LogLevel → String
  | .info => "INFO"
  | .debug => "DEBUG"
  | .trace => "TRACE"

/-- Something that is reported. -/
inductive LogRecord where
  /-- A module of some size is about to be decoded. -/
  | moduleDecoding (size : Nat)
  /-- The contents of a section are about to be decoded. -/
  | sectionDecoding (header : SectionHeader)
  /-- A global has got its initial value. -/
  | globalInitialised (index : Nat) (value : Value)
  /-- The lexer has stopped at a text that starts at an offset. -/
  | lexerHalted (offset : Nat) (text : String)
deriving DecidableEq, Repr

/-- Numbers in records are positional from `0.0001` up to sixteen digits. -/
def LogRecord.decimalStyle : DecimalStyle where
  least := -4
  greatest := 15
  wholeMark := ".0"
  exponentMark := "e"
  nan := "NaN"
  infinity := "inf"

/-- A value as it stands in a record. -/
def Value.logText : Value → String
  | .i32 number => "I32(" ++ number.toInt.repr ++ ")"
  | .i64 number => "I64(" ++ number.toInt.repr ++ ")"
  | .f32 number => "F32(" ++ LogRecord.decimalStyle.float number.classify ++ ")"
  | .f64 number => "F64(" ++ LogRecord.decimalStyle.float number.classify ++ ")"

namespace LogRecord

/-- The level of a record. -/
def level : LogRecord → LogLevel
  | .moduleDecoding _ => .info
  | .sectionDecoding _ => .debug
  | .globalInitialised _ _ => .debug
  | .lexerHalted _ _ => .trace

/-- The text of a record. -/
def message : LogRecord → String
  | .moduleDecoding size => "decoding module (" ++ size.repr ++ " bytes)"
  | .sectionDecoding header =>
      "decoding " ++ header.kind.name ++ " section (" ++
        header.size.toNat.repr ++ " bytes)"
  | .globalInitialised index value =>
      "global " ++ index.repr ++ " initialized to " ++ value.logText
  | .lexerHalted offset text =>
      "lexer halted at offset " ++ offset.repr ++ " on " ++
        Text.Quoted.quote text

end LogRecord

/-- The log of decoding a module: its size, then each section whose contents
were looked at. -/
def Module.decodeLog (input : List UInt8) : List LogRecord :=
  .moduleDecoding input.length ::
    (Module.readSections input).reached.map .sectionDecoding

/-- The log of an instantiation: each global that was initialised. -/
def Instantiation.log (instantiation : Instantiation) : List LogRecord :=
  instantiation.globals.zipIdx.map fun (global, index) =>
    .globalInitialised index global.value

/-- The record of a token with the position behind it, if reading stopped
there. -/
def Token.haltRecord? : Token × Nat → Option LogRecord
  | (.unknown text, position) =>
      some (.lexerHalted (position - text.utf8ByteSize) text)
  | _ => none

/-- The log of reading tokens up to the end. -/
def Lexer.log (lexer : Lexer) : List LogRecord :=
  lexer.run.1.filterMap Token.haltRecord?

end Wasm
