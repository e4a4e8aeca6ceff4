import LuaStubs.Text.Basic

/-! Tags in comments: a marker at the start of a line, and what follows it. -/
namespace LuaStubs

inductive Tag where
  | param
  | returned
  | overload
  deriving DecidableEq, Repr

namespace Tag

def marker : Tag → Text
  | .param => "---@param"
  | .returned => "---@return"
  | .overload => "---@overload"

/-- What follows a marker: nothing, or something behind white space. -/
def after? (a : Tag) (line : Text) : Option Text :=
  match Text.after a.marker line with
  | some [] => some []
  | some (c :: rest) => if Text.isBlank c then some (c :: rest) else none
  | none => none

/-- The tag that a line holds, and what follows its marker. -/
def read? (line : Text) : Option (Tag × Text) :=
  [param, returned, overload].findSome? fun a => (a.after? line).map (a, ·)

/-- The part before a description. -/
def undescribed (t : Text) : Text := t.takeWhile (· != '#')

/-- Whether a line is a comment that tags may stand among. -/
def isComment (line : Text) : Bool := Text.startsWith line "---"

def header : Text := "---@meta"

end Tag
end LuaStubs
