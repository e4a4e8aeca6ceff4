import LuaStubs.Json.Flaw

/-! A place in a JSON text: what is still to be read and how many bytes lie before it. -/
namespace LuaStubs.Json

structure Cursor where
  rest : Text
  offset : Nat
  deriving DecidableEq, Repr

namespace Cursor

def ofText (t : Text) : Cursor := ⟨t, 0⟩

/-- A flaw noticed after what has been read. -/
def spot (c : Cursor) (flaw : Flaw) : Spot := ⟨flaw, c.offset⟩

/-- A flaw of the next byte, which is counted where there is one. -/
def spotNext (c : Cursor) (flaw : Flaw) : Spot :=
  ⟨flaw, if c.rest.isEmpty then c.offset else c.offset + 1⟩

def skip (c : Cursor) (bytes : Nat) : Cursor := ⟨c.rest.tail, c.offset + bytes⟩

end Cursor

def isSpace (c : Char) : Bool := c == ' ' || c == '\n' || c == '\t' || c == '\r'

def Cursor.skipSpace (c : Cursor) : Cursor :=
  ⟨c.rest.dropWhile isSpace, c.offset + (c.rest.takeWhile isSpace).length⟩

def Cursor.digits (c : Cursor) : List Nat × Cursor :=
  let read := c.rest.takeWhile Char.isDigit
  (read.map fun d => d.toNat - '0'.toNat, ⟨c.rest.dropWhile Char.isDigit, c.offset + read.length⟩)

/-- A text cannot be read on: how reading it says so, and how skipping it does. -/
structure Fault where
  read : Spot
  skipped : Spot
  deriving DecidableEq, Repr

def Fault.both (s : Spot) : Fault := ⟨s, s⟩

/-- The rest of a literal such as `null`, after its first letter. -/
def Cursor.literal : (letters : Text) → Cursor → Except Spot Cursor
  | [], c => .ok c
  | letter :: letters, c =>
    match c.rest with
    | [] => .error (c.spot .eofInValue)
    | d :: _ =>
      if d = letter then literal letters (c.skip 1) else .error (c.spotNext .expectedIdent)

end LuaStubs.Json
