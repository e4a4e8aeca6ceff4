import LuaStubs.Lua.Name
import LuaStubs.Stub

/-! Why a module cannot be written: a name that is no Lua name, or a type whose brackets do not
match. The faults are listed in the order in which the parts are written. -/
namespace LuaStubs.Stub

inductive Fault where
  | unbalanced (subject rendered : Text)
  | invalidName (subject name : Text)
  deriving DecidableEq, Repr

def Fault.message : Fault → Text
  | .unbalanced subject rendered =>
    "unbalanced brackets in rendered type `" ++ rendered ++ "` (" ++ subject ++ ")"
  | .invalidName subject name =>
    "`" ++ name ++ "` is not a valid Lua identifier (" ++ subject ++ ")"

def closing? : Char → Option Char
  | '\x7b' => some '\x7d'
  | '(' => some ')'
  | '<' => some '>'
  | '[' => some ']'
  | _ => none

def isClosing (c : Char) : Bool := c == '\x7d' || c == ')' || c == '>' || c == ']'

/-- Whether the brackets of a text close those of the stack and their own, in order. The stack
holds the closing brackets that are due. -/
def balancedFrom : (due : List Char) → Text → Bool
  | due, [] => due.isEmpty
  | due, c :: rest =>
    match closing? c with
    | some close => balancedFrom (close :: due) rest
    | none =>
      if isClosing c then
        match due with
        | close :: due => c == close && balancedFrom due rest
        | [] => false
      else balancedFrom due rest

def isBalanced (t : Text) : Bool := balancedFrom [] t

def nameFaults (subject name : Text) : List Fault :=
  if Lua.isName name then [] else [.invalidName subject name]

def paramNameFaults (subject name : Text) : List Fault :=
  if name = Api.varargsName then [] else nameFaults subject name

def typeFaults (subject rendered : Text) : List Fault :=
  if isBalanced rendered then [] else [.unbalanced subject rendered]

def Param.faults (subject : Text) (p : Param) : List Fault :=
  paramNameFaults subject p.name ++ typeFaults (subject ++ "." ++ p.name) p.rendered

def Return.faults (subject : Text) (r : Return) : List Fault :=
  typeFaults subject r.rendered ++ (r.name.map (nameFaults subject)).getD []

/-- The faults of a signature that is written as an overload. -/
def Signature.faults (subject : Text) (s : Signature) : List Fault :=
  s.params.flatMap (fun p => paramNameFaults subject p.name ++ typeFaults subject p.base) ++
    s.returns.flatMap fun r => typeFaults subject r.rendered

def Function.faults (parent : Text) (f : Function) : List Fault :=
  let subject := parent ++ "." ++ f.name
  nameFaults subject f.name ++ f.primary.params.flatMap (Param.faults subject) ++
    f.primary.returns.flatMap (Return.faults subject) ++
    f.alternates.flatMap (Signature.faults subject)

def Class.faults (parent : Text) (c : Class) : List Fault :=
  let subject := parent ++ "." ++ c.name
  nameFaults subject c.name ++ c.methods.flatMap (Function.faults subject)

def Module.faults (m : Module) : List Fault :=
  nameFaults m.name m.name ++ m.classes.flatMap (Class.faults m.name) ++
    m.functions.flatMap (Function.faults m.name)

end LuaStubs.Stub
