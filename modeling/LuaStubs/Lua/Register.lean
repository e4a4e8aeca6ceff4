import LuaStubs.Lua.Check

/-! Where the value of an expression is while it is read, and the registers that this takes. A
function has 255 registers, and an expression that needs more is refused. -/
namespace LuaStubs.Lua

/-- Where a value is, or what it still takes to have it. -/
inductive Place where
  | void
  | literal (value : Literal)
  | register (register : Nat)
  | localVar (register : Nat) (position : Nat)
  | upvalue (index : Nat)
  /-- A variable of known value. -/
  | known (name : Text) (value : Literal)
  | indexed (table key : Nat)
  /-- An index that is no register of its own. -/
  | field (table : Nat)
  | upvalueField (index : Nat)
  /-- The outcome of a comparison, as a jump. -/
  | jump
  /-- Computed, and not yet put into a register. -/
  | pending
  | call (base : Nat)
  | varargs
  deriving DecidableEq, Repr

/-- An expression as read so far. Operators that cut evaluation short leave jumps behind, taken where
the value is true or where it is false. -/
structure Expr where
  place : Place
  onTrue : Bool := false
  onFalse : Bool := false
  deriving DecidableEq, Repr

namespace Expr

def hasJumps (e : Expr) : Bool := e.onTrue || e.onFalse

def isNumber (e : Expr) : Bool := match e.place with
  | .literal (.number _) => !e.hasJumps
  | _ => false

def isLiteral (e : Expr) : Bool := match e.place with
  | .literal _ => !e.hasJumps
  | _ => false

end Expr

namespace Check

def checkRegisters (n : Nat) : Check Unit := do
  if 255 ≤ (← func).free + n then refuse "function or expression needs too many registers"

def reserve (n : Nat) : Check Unit := do
  checkRegisters n
  modifyFunc fun f => { f with free := f.free + n }

/-- Give a register back, unless it is a variable's. -/
def freeRegister (r : Nat) : Check Unit := modifyFunc fun f =>
  if f.level ≤ r then { f with free := f.free - 1 } else f

def freeExpr (e : Expr) : Check Unit := match e.place with
  | .register r => freeRegister r
  | _ => pure ()

/-- Make a value of what names one. -/
def discharge (e : Expr) : Check Expr := do
  match e.place with
  | .known _ value => return { e with place := .literal value }
  | .localVar r _ => return { e with place := .register r }
  | .upvalue _ | .upvalueField _ | .varargs => return { e with place := .pending }
  | .field table =>
    freeRegister table
    return { e with place := .pending }
  | .indexed table key =>
    freeRegister table
    freeRegister key
    return { e with place := .pending }
  | .call base => return { e with place := .register base }
  | _ => return e

def toNextRegister (e : Expr) : Check Expr := do
  let e ← discharge e
  freeExpr e
  let r := (← func).free
  reserve 1
  return ⟨.register r, false, false⟩

def toRegister (e : Expr) : Check Expr := do
  let e ← discharge e
  match e.place with
  | .register r =>
    if !e.hasJumps || (← func).level ≤ r then return ⟨.register r, false, false⟩
    else toNextRegister e
  | _ => toNextRegister e

def toRegisterOrUpvalue (e : Expr) : Check Expr :=
  match e.place with
  | .upvalue _ => if e.hasJumps then toRegister e else return e
  | _ => toRegister e

def toValue (e : Expr) : Check Expr :=
  if e.hasJumps || e.place == .jump then toRegister e else discharge e

/-- A constant stays one, all else goes into a register. -/
def toOperand (e : Expr) : Check Expr := do
  let e ← toValue e
  if e.isLiteral then return e else toRegister e

/-- Discharge into a register that is there already. -/
def intoAny (e : Expr) : Check Expr := do
  match e.place with
  | .register _ => return e
  | _ =>
    let r := (← func).free
    reserve 1
    return { e with place := .register r }

def goIfTrue (e : Expr) : Check Expr := do
  let e ← discharge e
  match e.place with
  | .jump => return { e with onTrue := false, onFalse := true }
  | .literal value =>
    if value == .nil || value == .no then test e else return { e with onTrue := false }
  | _ => test e
where
  test (e : Expr) : Check Expr := do
    let e ← intoAny e
    freeExpr e
    return { e with onTrue := false, onFalse := true }

def goIfFalse (e : Expr) : Check Expr := do
  let e ← discharge e
  match e.place with
  | .jump => return { e with onTrue := true, onFalse := false }
  | .literal value =>
    if value == .nil || value == .no then return { e with onFalse := false } else test e
  | _ => test e
where
  test (e : Expr) : Check Expr := do
    let e ← intoAny e
    freeExpr e
    return { e with onTrue := true, onFalse := false }

def negate (e : Expr) : Check Expr := do
  let place ← match e.place with
    | .literal value =>
      pure (.literal (if value == .nil || value == .no then .yes else .no))
    | .jump => pure .jump
    | _ => do
      freeExpr (← intoAny e)
      pure .pending
  return ⟨place, e.onFalse, e.onTrue⟩

def index (table key : Expr) : Check Expr := do
  let table ← match table.place, key.place with
    | .upvalue _, .literal (.string true) => if key.hasJumps then toRegister table else pure table
    | .upvalue _, _ => toRegister table
    | _, _ => pure table
  match table.place, key.place with
  | .upvalue i, _ => return ⟨.upvalueField i, false, false⟩
  | .register r, .literal (.string true) | .localVar r _, .literal (.string true)
  | .register r, .literal (.number true) | .localVar r _, .literal (.number true) =>
    if key.hasJumps then indexed r else return ⟨.field r, false, false⟩
  | .register r, _ | .localVar r _, _ => indexed r
  | _, _ => indexed 0
where
  indexed (r : Nat) : Check Expr := do
    match (← toRegister key).place with
    | .register k => return ⟨.indexed r k, false, false⟩
    | _ => return ⟨.field r, false, false⟩

def method (e : Expr) : Check Expr := do
  freeExpr (← toRegister e)
  let base := (← func).free
  reserve 2
  return ⟨.register base, false, false⟩

/-- Put the value of `e` where `target` is. -/
def store (target : Place) (e : Expr) : Check Unit := do
  match target with
  | .localVar _ _ =>
    freeExpr e
    let _ ← discharge e
  | .upvalue _ => freeExpr (← toRegister e)
  | _ => freeExpr (← toOperand e)

end Check

end LuaStubs.Lua
