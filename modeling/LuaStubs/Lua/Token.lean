import LuaStubs.Lua.Name
import LuaStubs.Text.Utf8

/-! Tokens of a Lua chunk. A chunk that cannot be cut into tokens ends in a fault. -/
namespace LuaStubs.Lua

/-- Why the characters of a chunk make no token. `near` is the text that the message points at. -/
structure LexFault where
  message : Text
  near : Text
  line : Nat
  deriving DecidableEq, Repr

inductive Token where
  /-- A keyword or an operator. -/
  | key (text : String)
  | name (text : Text)
  /-- A number as it is written. -/
  | number (text : Text)
  /-- A string with its delimiters, its escapes resolved. -/
  | string (bytes : Text.Bytes)
  /-- A byte that starts no token. -/
  | stray (byte : Nat)
  | eof
  | broken (fault : LexFault)
  deriving DecidableEq, Repr

/-- A token and the line where reading it ended. -/
structure Lexeme where
  token : Token
  line : Nat
  deriving DecidableEq, Repr

def quote (t : Text) : Text := "'" ++ t ++ "'"

/-- Bytes in a message: they end at a zero byte. -/
def quoteBytes (bytes : Text.Bytes) : Text :=
  quote (Text.ofUtf8Lossy (bytes.takeWhile (· != 0)))

/-- The token as messages show it. The zero byte is not shown at all. -/
def Token.shown : Token → Option Text
  | .key text => some (quote text)
  | .name text => some (quote text)
  | .number text => some (quote text)
  | .string bytes => some (quoteBytes bytes)
  | .stray byte =>
    if byte = 0 then none
    else if 0x20 ≤ byte && byte < 0x7F then some (quote [Char.ofNat byte])
    else some (quote ("<\\" ++ Text.ofNat byte ++ ">"))
  | .eof => some "<eof>"
  | .broken fault => some fault.near

end LuaStubs.Lua
