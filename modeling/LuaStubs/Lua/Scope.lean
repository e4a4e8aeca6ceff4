import LuaStubs.Lua.Token

/-! What a Lua function being read has declared so far: local variables, values taken from
enclosing functions, blocks, labels, and jumps that still look for their label. -/
namespace LuaStubs.Lua

inductive Literal where
  | nil
  | yes
  | no
  /-- Whether the number is an integer below 256, which can index a table directly. -/
  | number (isByte : Bool)
  /-- Whether the string is short enough to be a field name. -/
  | string (isShort : Bool)
  deriving DecidableEq, Repr

inductive Binding where
  | regular
  | const
  | close
  /-- A constant whose value is known; it takes no register. -/
  | known (value : Literal)
  deriving DecidableEq, Repr

structure Variable where
  name : Text
  binding : Binding := .regular
  deriving DecidableEq, Repr

namespace Variable

def isKnown (v : Variable) : Bool := match v.binding with
  | .known _ => true
  | _ => false

def isReadOnly (v : Variable) : Bool := v.binding != .regular

end Variable

structure Upvalue where
  name : Text
  isReadOnly : Bool
  deriving DecidableEq, Repr

/-- A block knows what was there when it was entered. -/
structure Block where
  labels : Nat
  gotos : Nat
  active : Nat
  isLoop : Bool
  deriving DecidableEq, Repr

/-- A label, or a jump to one, with the number of locals that are in scope there. -/
structure Mark where
  name : Text
  line : Nat
  active : Nat
  deriving DecidableEq, Repr

/-- A function while its body is read. The main function has line 0. -/
structure Func where
  line : Nat
  isVararg : Bool
  /-- Declared locals, oldest first. Only the first `active` of them are in scope yet. -/
  locals : List Variable := []
  active : Nat := 0
  upvalues : List Upvalue := []
  /-- Innermost first. -/
  blocks : List Block := []
  labels : List Mark := []
  gotos : List Mark := []
  /-- The first register that holds nothing. -/
  free : Nat := 0
  deriving DecidableEq, Repr

namespace Func

def registers (f : Func) (n : Nat) : Nat :=
  ((f.locals.take n).filter (!·.isKnown)).length

/-- The first register above the locals in scope. -/
def level (f : Func) : Nat := f.registers f.active

/-- The newest variable of a name among those in scope, with its position. -/
def find? (f : Func) (name : Text) : Option (Variable × Nat) :=
  (f.locals.take f.active).zipIdx.reverse.find? (·.1.name == name)

/-- The words that messages use for the function. -/
def title (f : Func) : Text :=
  if f.line = 0 then "main function" else "function at line " ++ Text.ofNat f.line

end Func

end LuaStubs.Lua
