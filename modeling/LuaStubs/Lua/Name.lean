import LuaStubs.Text.Basic

/-! Names in Lua: ASCII letters, digits and underscores, not starting with a digit, that are no
keyword. -/
namespace LuaStubs.Lua

def keywords : List Text :=
  ["and", "break", "do", "else", "elseif", "end", "false", "for", "function", "goto", "if", "in",
    "local", "nil", "not", "or", "repeat", "return", "then", "true", "until", "while"].map
    String.toList

def isNameHead (c : Char) : Bool := c.isAlpha || c == '_'
def isNameTail (c : Char) : Bool := c.isAlphanum || c == '_'

def isName : Text → Bool
  | [] => false
  | c :: rest => isNameHead c && rest.all isNameTail && !keywords.contains (c :: rest)

end LuaStubs.Lua
