import LuaStubs.Lua.Lexer
import LuaStubs.Lua.Statement
import LuaStubs.Text.Digit

/-! A named Lua chunk: whether it is a program, and the complaint where it is none. -/
namespace LuaStubs.Lua

namespace Check

/-- The main function takes any number of arguments, and its environment from outside. -/
def program (below : Below) : Check Unit := do
  enterBlock false
  advance
  statements below
  unless (← token) == .eof do expected "<eof>"
  leaveBlock

end Check

namespace Chunk

/-- Levels in which statements and expressions may nest. -/
def depth : Nat := 199

def start (source : Text) : State where
  current := ⟨.eof, 1⟩
  ahead := lexemes source
  func := { line := 0, isVararg := true, upvalues := [⟨"_ENV", false⟩] }
  outer := []

def refusal? (source : Text) : Option Refusal :=
  match (Check.program (Check.level depth)).run (start source) with
  | .ok _ => none
  | .error refusal => some refusal

/-- A source with this character in front is taken for a compiled chunk. -/
def compiledMark : Char := '\x1b'

/-- What follows the mark of a compiled chunk, and what is said where other bytes stand in its place. -/
def compiledHeader : List (Text.Bytes × Text) :=
  [([0x4c, 0x75, 0x61], "not a binary chunk"), ([0x54], "version mismatch"),
    ([0x00], "format mismatch")]

/-- Why bytes do not go on as a compiled chunk does. Behind the header come six bytes that are no UTF-8,
so no text has them. -/
def compiledFlaw : (header : List (Text.Bytes × Text)) → Text.Bytes → Text
  | [], bytes => if bytes.length < 6 then "truncated chunk" else "corrupted chunk"
  | (part, other) :: header, bytes =>
    if bytes.length < part.length then "truncated chunk"
    else if bytes.take part.length = part then compiledFlaw header (bytes.drop part.length)
    else other

/-- The name of a chunk in messages, of at most 59 bytes. -/
def shownName (name : Text) : Text := Text.ofUtf8Lossy ((Text.utf8 name).take 59)

end Chunk

/-- What is wrong with a chunk. Line 0 stands for an unknown one. -/
structure Complaint where
  line : Nat
  message : Text
  deriving DecidableEq, Repr

namespace Complaint

def number? (t : Text) : Option Text :=
  let digits := t.takeWhile Text.isDecimalDigit
  match t.drop digits.length with
  | ':' :: _ => if digits.isEmpty then none else some digits
  | _ => none

/-- The first number between colons in a message. -/
def firstNumber? : Text → Option Text
  | [] => none
  | ':' :: rest =>
    match number? rest with
    | some digits => some digits
    | none => firstNumber? rest
  | _ :: rest => firstNumber? rest

/-- A line number in ASCII digits that fits 64 bits. -/
def lineNumber (digits : Text) : Nat :=
  let n := digits.foldl (fun n c => n * 10 + (c.toNat - '0'.toNat)) 0
  if digits.all Char.isDigit && n < 0x10000000000000000 then n else 0

/-- The line is the first number between colons, so that the name of the chunk can give it. -/
def ofMessage (message : Text) : Complaint :=
  ⟨((firstNumber? message).map lineNumber).getD 0, message⟩

def ofRefusal (name : Text) : Refusal → Complaint
  | .fault line message near =>
    ofMessage (Chunk.shownName name ++ ":" ++ Text.ofNat line ++ ": " ++ message ++
      match near with
      | some shown => " near " ++ shown
      | none => [])
  | .tooDeep => ⟨0, "runtime error: C stack overflow"⟩

def ofCompiled (name flaw : Text) : Complaint :=
  ofMessage (name ++ ": bad binary format (" ++ flaw ++ ")")

/-- A name with a zero character names no chunk; the place counts the mark before the name. -/
def ofName (name : Text) : Complaint :=
  let before := name.takeWhile (· != '\x00')
  ⟨0, "runtime error: invalid name: nul byte found in provided data at position: " ++
    Text.ofNat (Text.byteSize before + 1)⟩

end Complaint

def complaint? (name source : Text) : Option Complaint :=
  if name.contains '\x00' then some (.ofName name)
  else if source.head? = some Chunk.compiledMark then
    some (.ofCompiled name (Chunk.compiledFlaw Chunk.compiledHeader (Text.utf8 source.tail)))
  else (Chunk.refusal? source).map (.ofRefusal name)

end LuaStubs.Lua
