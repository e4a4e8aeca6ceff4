import LuaStubs.Text.Basic

/-! What is worth telling about a written type. Findings never stop a run. -/
namespace LuaStubs

inductive Severity where
  | warning
  | error
  deriving DecidableEq, Repr

inductive FindingKind where
  /-- The name or the text of a type means nothing to the table and the model. -/
  | unrecognizedType
  /-- A fragment was taken for the name that it begins. -/
  | completedFragment
  deriving DecidableEq, Repr

structure Finding where
  severity : Severity
  kind : FindingKind
  /-- The place in the model, such as `graphics.Image.getWidth#1.x`. -/
  subject : Text
  message : Text
  /-- The text it is about. -/
  text : Text
  deriving DecidableEq, Repr

end LuaStubs
