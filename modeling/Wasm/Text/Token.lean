/-!
# Tokens
-/

namespace Wasm

/-- A token of the text format. -/
inductive Token where
  | leftParen
  | rightParen
  /-- A run of identifier characters that does not start with a digit. -/
  | keyword (text : String)
  /-- An unsigned numeral. -/
  | unsigned (value : UInt64)
  /-- The bytes that a string literal denotes. -/
  | string (bytes : List UInt8)
  /-- Text that is no token.  Nothing is read behind it. -/
  | unknown (text : String)
deriving DecidableEq, Repr

namespace Token

/-- Whether reading stops at the token. -/
def isUnknown : Token → Bool
  | .unknown _ => true
  | _ => false

end Token

/-- A token and the characters it was read from. -/
structure Lexeme where
  token : Token
  text : List Char
deriving DecidableEq, Repr

namespace Lexeme

/-- Text that is no token. -/
def unknown (text : List Char) : Lexeme :=
  ⟨.unknown (String.ofList text), text⟩

end Lexeme

end Wasm
