import LuaStubs.Text.Basic

/-! What can be wrong with a JSON text, and where. Places are byte offsets; a message gives them as
line and column. -/
namespace LuaStubs.Json

inductive Flaw where
  | eofInValue
  | eofInList
  | eofInObject
  | eofInString
  | expectedValue
  | expectedIdent
  | expectedColon
  | expectedListEnd
  | expectedObjectEnd
  | keyNotString
  | trailingComma
  | trailingCharacters
  | badEscape
  | badNumber
  | numberOutOfRange
  | controlCharacter
  | shortEscape
  | loneSurrogate
  | tooDeep
  deriving DecidableEq, Repr

def Flaw.message : Flaw → Text
  | .eofInValue => "EOF while parsing a value"
  | .eofInList => "EOF while parsing a list"
  | .eofInObject => "EOF while parsing an object"
  | .eofInString => "EOF while parsing a string"
  | .expectedValue => "expected value"
  | .expectedIdent => "expected ident"
  | .expectedColon => "expected `:`"
  | .expectedListEnd => "expected `,` or `]`"
  | .expectedObjectEnd => "expected `,` or `\x7d`"
  | .keyNotString => "key must be a string"
  | .trailingComma => "trailing comma"
  | .trailingCharacters => "trailing characters"
  | .badEscape => "invalid escape"
  | .badNumber => "invalid number"
  | .numberOutOfRange => "number out of range"
  | .controlCharacter => "control character (\\u0000-\\u001F) found while parsing a string"
  | .shortEscape => "unexpected end of hex escape"
  | .loneSurrogate => "lone leading surrogate in hex escape"
  | .tooDeep => "recursion limit exceeded"

/-- A flaw and the number of bytes read when it was seen. -/
structure Spot where
  flaw : Flaw
  offset : Nat
  deriving DecidableEq, Repr

/-- Line and column after the first `offset` bytes of a text: lines count from 1, columns are bytes
since the last line feed. -/
def positionFrom : (line column : Nat) → (offset : Nat) → Text → Nat × Nat
  | line, column, _, [] => (line, column)
  | line, column, offset, c :: rest =>
    if offset = 0 then (line, column)
    else if c = '\n' then positionFrom (line + 1) 0 (offset - 1) rest
    else if offset < c.utf8Size then (line, column + offset)
    else positionFrom line (column + c.utf8Size) (offset - c.utf8Size) rest

def position (t : Text) (offset : Nat) : Nat × Nat := positionFrom 1 0 offset t

def atPosition (t : Text) (offset : Nat) : Text :=
  let (line, column) := position t offset
  " at line " ++ Text.ofNat line ++ " column " ++ Text.ofNat column

end LuaStubs.Json
