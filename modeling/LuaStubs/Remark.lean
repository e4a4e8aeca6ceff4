import LuaStubs.Order
import LuaStubs.Text.Basic

/-! What the checks of a stub file remark. Remarks never stop a run. -/
namespace LuaStubs

inductive Concern where
  /-- The file is no Lua program, or cannot be read. -/
  | program
  /-- A tag is missing or incomplete. -/
  | tag
  /-- A type is a fragment of a name of several words. -/
  | fragment
  /-- A union is written in words. -/
  | union
  deriving DecidableEq, Repr

def Concern.rank : Concern → Nat
  | .program => 0
  | .tag => 1
  | .fragment => 2
  | .union => 3

structure Remark where
  /-- Counted from 1; 0 where the line is unknown. -/
  line : Nat
  concern : Concern
  message : Text
  /-- The text of the line. -/
  text : Text
  deriving DecidableEq, Repr

namespace Remark

/-- By line, and on a line by concern. -/
def le (a b : Remark) : Bool :=
  a.line < b.line || (a.line == b.line && a.concern.rank ≤ b.concern.rank)

def sort (remarks : List Remark) : List Remark := sortBy le remarks

end Remark
end LuaStubs
