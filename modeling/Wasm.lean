import Wasm.Decoding.Leb128.Wrapping
import Wasm.Log
import Wasm.Machine.Frame
import Wasm.Machine.OperandStack
import Wasm.Proofs.Leb128.Encoding
import Wasm.Proofs.Leb128.Exactness
import Wasm.Proofs.Leb128.FixedWidth
import Wasm.Proofs.Leb128.Agreement
import Wasm.Proofs.BinaryGrammar.Production
import Wasm.Proofs.Leb128.Minimal
import Wasm.Proofs.BinaryGrammar.Recognition
import Wasm.Proofs.BinaryGrammar.Entities
import Wasm.Proofs.BinaryGrammar.Assembly
import Wasm.Proofs.BinaryGrammar.Modules
import Wasm.Proofs.Decoding.ErrorLaw
import Wasm.Proofs.Decoding.Composed
import Wasm.Proofs.Decoding.FormatErrors
import Wasm.Proofs.Decoding.Honesty
import Wasm.Proofs.Decoding.SequenceLaw
import Wasm.Proofs.Decoding.Relocation
import Wasm.Proofs.Decoding.PlaceIndependence
import Wasm.Proofs.Decoding.SelfDelimiting
import Wasm.Proofs.BinaryGrammar.SectionLoop
import Wasm.Proofs.BinaryGrammar.Stability
import Wasm.Proofs.BinaryGrammar.CustomSections
import Wasm.Proofs.Text.Trivia
import Wasm.Proofs.Text.Numerals
import Wasm.Proofs.Text.StringLiterals
import Wasm.Proofs.Text.Lexemes
import Wasm.Proofs.Text.Partition
import Wasm.Proofs.Text.Separation
import Wasm.Proofs.Text.Printing
import Wasm.Proofs.Machine.Session
import Wasm.Proofs.Machine.OperandPops
import Wasm.Proofs.Machine.OperandConservation
import Wasm.Proofs.Machine.GlobalHistory
import Wasm.Proofs.Text.OffsetScanner
import Wasm.Proofs.Text.OffsetLexemes
import Wasm.Proofs.Text.Progress
import Wasm.Proofs.Guarded.Buffer
import Wasm.Proofs.Guarded.Integers
import Wasm.Proofs.Guarded.Plan
import Wasm.Proofs.Guarded.Agreement
import Wasm.Proofs.Guarded.FormatPlans
import Wasm.Proofs.Guarded.Modules
import Wasm.Proofs.Leb128.GroupSums
import Wasm.Proofs.Leb128.ExactValues
import Wasm.Proofs.Leb128.WrappedValues
import Wasm.Proofs.BinaryGrammar.NextSection
import Wasm.Proofs.Decoding.ReturnedWindows
import Wasm.Proofs.Guarded.Streams
import Wasm.Proofs.Machine.GlobalChains
import Wasm.Proofs.Machine.SinglePops
import Wasm.Proofs.Decoding.ViablePrefixes
import Wasm.Proofs.Decoding.TypeRejections
import Wasm.Proofs.Utf8.Sequences
import Wasm.Proofs.Decoding.Names
import Wasm.Proofs.Decoding.VectorElements
import Wasm.Proofs.Text.TokenStarts
import Wasm.Proofs.Text.ExactNumerals
import Wasm.Proofs.Text.LiteralItems
import Wasm.Proofs.Text.CodeGrouping
import Wasm.Proofs.Decoding.ExpectedBytes
import Wasm.Proofs.Decoding.Payment
import Wasm.Proofs.BinaryGrammar.ModuleVolume
import Wasm.Proofs.Machine.FrameHistory
import Wasm.Proofs.BinaryGrammar.SectionLog
