import LuaStubs.Tag.Completeness
import LuaStubs.Tag.Types
import LuaStubs.Lua.Chunk
import LuaStubs.TypeTable

/-! All checks of a stub file together. -/
namespace LuaStubs

/-- What the checks know of the type table: its fragments, and the names they begin. -/
structure Validator where
  fragments : List (Text × List Text)
  deriving DecidableEq, Repr

namespace Validator

def ofTable (table : TypeTable) : Validator := ⟨table.fragments⟩

def names (v : Validator) : List Text := v.fragments.flatMap Prod.snd

def programRemark (lines : List Text) (c : Lua.Complaint) : Remark :=
  ⟨c.line, .program, c.message, if c.line = 0 then [] else (lines[c.line - 1]?).getD []⟩

def unsortedRemarks (v : Validator) (name source : Text) : List Remark :=
  let lines := Text.lines source
  let typed := Tag.typedLines v.names lines
  ((Lua.complaint? name source).map (programRemark lines)).toList ++ Tag.remarks lines ++
    Tag.fragmentRemarks v.fragments typed ++ Tag.unionRemarks typed

def remarks (v : Validator) (name source : Text) : List Remark :=
  Remark.sort (v.unsortedRemarks name source)

end Validator
end LuaStubs
