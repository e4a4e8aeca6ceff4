import LuaStubs.Text.Basic

/-! Types of the annotation language and how they are written. -/
namespace LuaStubs

inductive LuaType where
  | primitive (name : Text)
  | named (name : Text)
  | union (arms : List LuaType)
  | table (fields : List (Text × LuaType)) (isOpen : Bool)
  | varargs (inner : LuaType)
  deriving Inhabited, Repr

namespace LuaType

/-- A table from its written fields. Without fields it is the bare name, with the type of its
entries where it is open. -/
def renderTable (fields : List Text) (isOpen : Bool) : Text :=
  match fields, isOpen with
  | [], false => "table"
  | [], true => "table<any, any>"
  | _, false => "\x7b" ++ Text.join ", " fields ++ "\x7d"
  | _, true => "\x7b" ++ Text.join ", " (fields ++ [("[any]: any" : Text)]) ++ "\x7d"

mutual
def render : LuaType → Text
  | .primitive name => name
  | .named name => name
  | .union arms => Text.join "|" (renderArms arms)
  | .table fields isOpen => renderTable (renderFields fields) isOpen
  | .varargs inner => render inner

def renderArms : List LuaType → List Text
  | [] => []
  | arm :: rest => render arm :: renderArms rest

def renderFields : List (Text × LuaType) → List Text
  | [] => []
  | field :: rest => renderField field :: renderFields rest

def renderField : Text × LuaType → Text
  | (name, type) => name ++ ": " ++ render type
end

/-- The mark of an optional value; a union is grouped before it. -/
def renderOptional (type : LuaType) : Text :=
  match type with
  | .union _ => "(" ++ render type ++ ")?"
  | _ => render type ++ "?"

/-- The arms a type brings into a union around it. -/
def arms : LuaType → List LuaType
  | .union inner => inner
  | type => [type]

/-- The first type of every rendering that is not among `seen`. -/
def firstOfEach (seen : List Text) : List LuaType → List LuaType
  | [] => []
  | type :: rest =>
    if seen.contains (render type) then firstOfEach seen rest
    else type :: firstOfEach (render type :: seen) rest

/-- Arms with different renderings, in order; one arm alone is that arm. -/
def unionOf (alternatives : List LuaType) : LuaType :=
  match firstOfEach [] (alternatives.flatMap arms) with
  | [arm] => arm
  | kept => .union kept

end LuaType
end LuaStubs
