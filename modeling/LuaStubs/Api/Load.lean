import LuaStubs.Api
import LuaStubs.Description.Error
import LuaStubs.Description.Reader
import LuaStubs.Json.Pointer

/-! From descriptions to an API. All rules of a description are checked here: its faults are listed
in order, and without a fault it becomes an API of the same shape. -/
namespace LuaStubs.Description

inductive Trouble where
  | emptyName
  | noVariants
  | requiredWithDefault
  | varargsNotLast
  deriving DecidableEq, Repr

def Trouble.message : Trouble → Text
  | .emptyName => "empty name"
  | .noVariants => "function has no variants"
  | .requiredWithDefault => "argument has a default but is marked required"
  | .varargsNotLast => "varargs must be the last argument"

structure Fault where
  path : Text
  trouble : Trouble
  deriving DecidableEq, Repr

def isBlankName (name : Text) : Bool := (Text.trim name).isEmpty

def faultIf (broken : Bool) (path : Text) (trouble : Trouble) : List Fault :=
  if broken then [⟨path, trouble⟩] else []

def Argument.literal (a : Argument) : Option Text := a.default.bind literal?

/-- `isLast` tells whether no argument follows. -/
def Argument.faults (a : Argument) (path : Text) (isLast : Bool) : List Fault :=
  let path := path ++ "." ++ a.name
  faultIf (isBlankName a.name) path .emptyName ++
    faultIf (a.optional = some false && a.literal.isSome) path .requiredWithDefault ++
    faultIf (a.name = Api.varargsName && !isLast) path .varargsNotLast

def argumentFaults (path : Text) : List Argument → List Fault
  | [] => []
  | a :: rest => a.faults path rest.isEmpty ++ argumentFaults path rest

/-- Variants count from 1 in paths. -/
def variantPath (path : Text) (index : Nat) : Text := path ++ "#" ++ Text.ofNat (index + 1)

def Function.faults (parent : Text) (f : Function) : List Fault :=
  let path := parent ++ "." ++ f.name
  faultIf (isBlankName f.name) path .emptyName ++
    faultIf f.variants.isEmpty path .noVariants ++
    (f.variants.mapIdx fun i v => argumentFaults (variantPath path i) v.arguments).flatten

def Class.faults (parent : Text) (c : Class) : List Fault :=
  let path := parent ++ "." ++ c.name
  faultIf (isBlankName c.name) path .emptyName ++ c.functions.flatMap (Function.faults path)

def Enum.faults (parent : Text) (e : Enum) : List Fault :=
  faultIf (isBlankName e.name) (parent ++ "." ++ e.name) .emptyName

def Module.faults (name : Text) (m : Module) : List Fault :=
  faultIf (isBlankName name) "module" .emptyName ++ m.types.flatMap (Class.faults name) ++
    m.functions.flatMap (Function.faults name) ++ m.enums.flatMap (Enum.faults name)

/-- The broken rules, in the order of the document: within a module its name, classes, functions,
enums. -/
def faults (d : Description) : List Fault := d.flatMap fun (name, m) => m.faults name

/-- An argument with a default is optional unless it says otherwise. -/
def Argument.toApi (a : Argument) : Api.Param where
  name := a.name
  type := a.type.text
  optional := a.optional.getD a.literal.isSome
  default := a.literal
  description := a.description

def Return.toApi (r : Return) : Api.Return where
  name := r.name.filter (!·.isEmpty)
  type := r.type.text
  optional := r.optional
  description := r.description

def Variant.toApi (v : Variant) : Api.Variant where
  params := v.arguments.map Argument.toApi
  returns := v.returns.map Return.toApi
  description := v.description

def Function.toApi (owner : Api.Owner) (f : Function) : Api.Function where
  name := f.name
  owner := owner
  description := f.description
  variants := f.variants.map Variant.toApi

def Class.toApi (c : Class) : Api.Class where
  name := c.name
  description := c.description
  supertypes := c.supertypes
  methods := c.functions.map (Function.toApi (.ofClass c.name))

def Enum.toApi (e : Enum) : Api.Enum where
  name := e.name
  description := e.description
  constants := e.constants.map fun c => ⟨c.name, c.description⟩

def Module.toApi (name : Text) (m : Module) : Api.Module where
  name := name
  description := m.description
  classes := m.types.map Class.toApi
  functions := m.functions.map (Function.toApi (.ofModule name))
  enums := m.enums.map Enum.toApi

def toApi (d : Description) : Api := ⟨d.map fun (name, m) => m.toApi name⟩

/-- The API of a description without faults; else the first fault. -/
def load (d : Description) : Except LoadError Api :=
  match d.faults with
  | [] => .ok d.toApi
  | fault :: _ => .error (.malformed fault.path fault.trouble.message)

end LuaStubs.Description

namespace LuaStubs.Api

/-- The description in a document: the whole text, or the part of its value that a JSON pointer
selects. -/
def describe (source origin : Text) : (pointer : Option Text) → Except LoadError Description
  | none => Description.reader.ofText origin source
  | some pointer => do
    let value ← Json.Reader.value.ofText origin source
    match value.select? pointer with
    | some part => Description.reader.ofValue origin part
    | none => .error (.malformed origin ("JSON pointer " ++ pointer ++ " selects nothing"))

def load (source origin : Text) (pointer : Option Text) : Except LoadError Api := do
  (← describe source origin pointer).load

/-- Append modules one by one, each under a new name. -/
def mergeModules (before : List Module) : List Module → Except LoadError (List Module)
  | [] => .ok before
  | m :: rest =>
    if before.any (·.name = m.name) then
      .error (.malformed m.name "module defined by more than one input")
    else mergeModules (before ++ [m]) rest

def merge (a b : Api) : Except LoadError Api := (mergeModules a.modules b.modules).map Api.mk

structure Document where
  origin : Text
  source : Text

/-- Load documents and merge them in order; the first error ends it. -/
def loadAll (pointer : Option Text) (before : Api) : List (Except LoadError Document) →
    Except LoadError Api
  | [] => .ok before
  | document :: rest => do
    let document ← document
    loadAll pointer (← before.merge (← load document.source document.origin pointer)) rest

end LuaStubs.Api
