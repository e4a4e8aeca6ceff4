import LuaStubs.Json.Value

/-! An API description as it is written: modules with classes, functions and enums. Nothing is
checked yet. -/
namespace LuaStubs.Description

/-- The type of an argument or a return: usually a text, sometimes a structure. -/
inductive TypeShape where
  | token (text : Text)
  | alternatives (members : List TypeShape)
  | table (fields : List (Text × TypeShape))
  deriving Inhabited, Repr

mutual
def TypeShape.text : TypeShape → Text
  | .token text => text
  | .alternatives members => Text.join " or " (texts members)
  | .table fields => "\x7b" ++ Text.join ", " (fieldTexts fields) ++ "\x7d"

def TypeShape.texts : List TypeShape → List Text
  | [] => []
  | member :: rest => member.text :: texts rest

def TypeShape.fieldTexts : List (Text × TypeShape) → List Text
  | [] => []
  | field :: rest => fieldText field :: fieldTexts rest

def TypeShape.fieldText : Text × TypeShape → Text
  | (name, shape) => name ++ ": " ++ shape.text
end

structure Argument where
  name : Text := []
  type : TypeShape := .token []
  description : Text := []
  default : Option Json.Value := none
  optional : Option Bool := none
  deriving Inhabited, Repr

structure Return where
  name : Option Text := none
  type : TypeShape := .token []
  description : Text := []
  optional : Bool := false
  deriving Inhabited, Repr

structure Variant where
  description : Text := []
  arguments : List Argument := []
  returns : List Return := []
  deriving Inhabited, Repr

structure Function where
  name : Text := []
  description : Text := []
  variants : List Variant := []
  deriving Inhabited, Repr

structure Class where
  name : Text := []
  description : Text := []
  supertypes : List Text := []
  functions : List Function := []
  deriving Inhabited, Repr

structure Constant where
  name : Text := []
  description : Text := []
  deriving Inhabited, Repr

structure Enum where
  name : Text := []
  description : Text := []
  constants : List Constant := []
  deriving Inhabited, Repr

structure Module where
  description : Text := []
  types : List Class := []
  functions : List Function := []
  enums : List Enum := []
  deriving Inhabited, Repr

/-- A default as it is shown: a string as it is, null not at all. -/
def literal? : Json.Value → Option Text
  | .null => none
  | .string t => some t
  | v => some v.render

end LuaStubs.Description

namespace LuaStubs

/-- Modules by name, in document order. -/
abbrev Description := List (Text × Description.Module)

end LuaStubs
