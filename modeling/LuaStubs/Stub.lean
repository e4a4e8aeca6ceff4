import LuaStubs.Api.Ranking
import LuaStubs.Resolver

/-! A module of the API with all types resolved and one signature chosen per function, ready to be
written. -/
namespace LuaStubs

structure Normalized where
  type : LuaType
  base : Text
  /-- The text with the mark of an optional value, where it is one. -/
  rendered : Text
  deriving Inhabited, Repr

def Resolver.normalize (r : Resolver) (raw : Text) (optional : Bool) : Normalized :=
  let type := r.type raw
  ⟨type, type.render, if optional then type.renderOptional else type.render⟩

namespace Stub

structure Param where
  name : Text
  type : LuaType
  base : Text
  rendered : Text
  optional : Bool
  default : Option Text
  description : Text
  deriving Inhabited, Repr

structure Return where
  name : Option Text
  type : LuaType
  base : Text
  rendered : Text
  description : Text
  deriving Inhabited, Repr

structure Signature where
  params : List Param
  returns : List Return
  description : Text
  deriving Inhabited, Repr

structure Function where
  name : Text
  owner : Api.Owner
  description : Text
  primary : Signature
  alternates : List Signature
  deriving Repr

structure Class where
  name : Text
  qualified : Text
  description : Text
  supertypes : List Text
  methods : List Function
  deriving Repr

structure Enum where
  name : Text
  qualified : Text
  description : Text
  /-- Values with their descriptions. -/
  constants : List (Text × Text)
  deriving Inhabited, Repr

structure Module where
  name : Text
  description : Text
  classes : List Class
  enums : List Enum
  functions : List Function
  deriving Repr

end Stub

namespace Resolver

variable (r : Resolver)

def stubParam (p : Api.Param) : Stub.Param :=
  let n := r.normalize p.type p.optional
  { name := p.name
    type := if p.isVarargs then .varargs n.type else n.type
    base := n.base
    rendered := n.rendered
    optional := p.optional
    default := p.default
    description := p.description }

def stubReturn (s : Api.Return) : Stub.Return :=
  let n := r.normalize s.type s.optional
  ⟨s.name, n.type, n.base, n.rendered, s.description⟩

def stubSignature (v : Api.Variant) : Stub.Signature :=
  ⟨v.params.map r.stubParam, v.returns.map r.stubReturn, v.description⟩

def stubFunction (f : Api.Function) : Stub.Function :=
  let signatures := (Api.ranked f.variants).map fun (_, v) => r.stubSignature v
  ⟨f.name, f.owner, f.description, signatures.headD default, signatures.tail⟩

def stubClass (c : Api.Class) : Stub.Class where
  name := c.name
  qualified := r.qualified c.name
  description := c.description
  supertypes := c.supertypes.map fun name => (r.nameType name).render
  methods := c.methods.map r.stubFunction

def stubEnum (e : Api.Enum) : Stub.Enum where
  name := e.name
  qualified := r.qualified e.name
  description := e.description
  constants := e.constants.map fun c => (c.value, c.description)

def stubModule (m : Api.Module) : Stub.Module where
  name := m.name
  description := m.description
  classes := m.classes.map r.stubClass
  enums := m.enums.map r.stubEnum
  functions := m.functions.map r.stubFunction

/-- A return without a name is known by its number. -/
def returnLabel (index : Nat) (s : Api.Return) : Text :=
  s.name.getD ("return" ++ Text.ofNat (index + 1))

def variantFindings (path : Text) (v : Api.Variant) : List Finding :=
  v.params.flatMap (fun p => r.findings (path ++ "." ++ p.name) p.type) ++
    (v.returns.mapIdx fun i s => r.findings (path ++ "->" ++ returnLabel i s) s.type).flatten

def functionFindings (parent : Text) (f : Api.Function) : List Finding :=
  (Api.ranked f.variants).flatMap fun (i, v) =>
    r.variantFindings (parent ++ "." ++ f.name ++ "#" ++ Text.ofNat (i + 1)) v

def classFindings (parent : Text) (c : Api.Class) : List Finding :=
  let path := parent ++ "." ++ c.name
  c.supertypes.flatMap (r.nameFindings path) ++ c.methods.flatMap (r.functionFindings path)

/-- What there is to tell about the types of a module, signatures in the order of their rank. -/
def moduleFindings (m : Api.Module) : List Finding :=
  m.classes.flatMap (r.classFindings m.name) ++ m.functions.flatMap (r.functionFindings m.name)

end Resolver

def Api.resolver (api : Api) (config : Config) : Resolver := ⟨config, api.typeNames⟩

end LuaStubs
