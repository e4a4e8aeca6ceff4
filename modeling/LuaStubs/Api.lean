import LuaStubs.Text.Basic

/-! The API that stubs are written for. Types are still the texts of the description: their names
can only be resolved once all classes and enums are known. -/
namespace LuaStubs.Api

/-- The name of a parameter that takes all further arguments. -/
def varargsName : Text := "..."

structure Param where
  name : Text
  type : Text
  optional : Bool
  default : Option Text
  description : Text
  deriving DecidableEq, Repr

def Param.isVarargs (p : Param) : Bool := p.name = varargsName

structure Return where
  name : Option Text
  type : Text
  optional : Bool
  description : Text
  deriving DecidableEq, Repr

structure Variant where
  params : List Param
  returns : List Return
  description : Text
  deriving DecidableEq, Repr

def Variant.arity (v : Variant) : Nat := v.params.length

def Variant.isVariadic (v : Variant) : Bool := v.params.getLast?.any Param.isVarargs

/-- Methods of a class are called with a colon, functions of a module with a dot. -/
inductive Owner where
  | ofModule (name : Text)
  | ofClass (name : Text)
  deriving DecidableEq, Repr

structure Function where
  name : Text
  owner : Owner
  description : Text
  variants : List Variant
  deriving DecidableEq, Repr

structure Class where
  name : Text
  description : Text
  supertypes : List Text
  methods : List Function
  deriving DecidableEq, Repr

structure Constant where
  value : Text
  description : Text
  deriving DecidableEq, Repr

structure Enum where
  name : Text
  description : Text
  constants : List Constant
  deriving DecidableEq, Repr

structure Module where
  name : Text
  description : Text
  classes : List Class
  functions : List Function
  enums : List Enum
  deriving DecidableEq, Repr

def Module.typeNames (m : Module) : List Text := m.classes.map Class.name ++ m.enums.map Enum.name

end LuaStubs.Api

namespace LuaStubs

structure Api where
  modules : List Api.Module
  deriving DecidableEq, Repr

def Api.typeNames (api : Api) : List Text := api.modules.flatMap Api.Module.typeNames

end LuaStubs
