import LuaStubs.Lua.Register

/-! Operators of Lua: how strongly they bind, and what they do to the places of their operands. -/
namespace LuaStubs.Lua

inductive Unary where
  | not
  | arithmetic
  | length
  deriving DecidableEq, Repr

def Unary.ofToken? : Token → Option Unary
  | .key "not" => some .not
  | .key "-" => some .arithmetic
  | .key "~" => some .arithmetic
  | .key "#" => some .length
  | _ => none

inductive Combination where
  | arithmetic (commutes : Bool)
  | concat
  | equality
  | order
  | both
  | either
  deriving DecidableEq, Repr

/-- A binary operator. It takes the operand on its left if it binds it more strongly than the
operator before does. -/
structure Binary where
  left : Nat
  right : Nat
  combination : Combination
  deriving DecidableEq, Repr

def Binary.ofToken? : Token → Option Binary
  | .key "+" => some ⟨10, 10, .arithmetic true⟩
  | .key "-" => some ⟨10, 10, .arithmetic false⟩
  | .key "*" => some ⟨11, 11, .arithmetic true⟩
  | .key "%" => some ⟨11, 11, .arithmetic false⟩
  | .key "^" => some ⟨14, 13, .arithmetic false⟩
  | .key "/" => some ⟨11, 11, .arithmetic false⟩
  | .key "//" => some ⟨11, 11, .arithmetic false⟩
  | .key "&" => some ⟨6, 6, .arithmetic true⟩
  | .key "|" => some ⟨4, 4, .arithmetic true⟩
  | .key "~" => some ⟨5, 5, .arithmetic true⟩
  | .key "<<" => some ⟨7, 7, .arithmetic false⟩
  | .key ">>" => some ⟨7, 7, .arithmetic false⟩
  | .key ".." => some ⟨9, 8, .concat⟩
  | .key "==" => some ⟨3, 3, .equality⟩
  | .key "~=" => some ⟨3, 3, .equality⟩
  | .key "<" => some ⟨3, 3, .order⟩
  | .key "<=" => some ⟨3, 3, .order⟩
  | .key ">" => some ⟨3, 3, .order⟩
  | .key ">=" => some ⟨3, 3, .order⟩
  | .key "and" => some ⟨2, 2, .both⟩
  | .key "or" => some ⟨1, 1, .either⟩
  | _ => none

def Unary.strength : Nat := 12

namespace Check

def unary (op : Unary) (e : Expr) : Check Expr := do
  let e ← discharge e
  match op with
  | .not => negate e
  | .arithmetic => if e.isNumber then return ⟨.literal (.number false), false, false⟩ else compute e
  | .length => compute e
where
  compute (e : Expr) : Check Expr := do
    freeExpr (← toRegister e)
    return ⟨.pending, false, false⟩

/-- What an operator does to its left operand before the right one is read. -/
def leftOperand (op : Combination) (e : Expr) : Check Expr := do
  let e ← discharge e
  match op with
  | .both => goIfTrue e
  | .either => goIfFalse e
  | .concat => toNextRegister e
  | .arithmetic _ => if e.isNumber then return e else toRegister e
  | .equality => if e.isNumber then return e else toOperand e
  | .order => if e.isNumber then return e else toRegister e

/-- Both operands in registers, constants apart where `isFree` says so, and given back. -/
def operands (a b : Expr) (isFree : Expr → Bool) : Check Unit := do
  let b ← if isFree b then pure b else toRegister b
  let a ← if isFree a then pure a else toRegister a
  freeExpr b
  freeExpr a

def combine (op : Combination) (a b : Expr) : Check Expr := do
  let b ← discharge b
  match op with
  | .both => return { b with onFalse := b.onFalse || a.onFalse }
  | .either => return { b with onTrue := b.onTrue || a.onTrue }
  | .concat =>
    freeExpr (← toNextRegister b)
    return a
  | .arithmetic commutes =>
    if a.isNumber && b.isNumber then return ⟨.literal (.number false), false, false⟩
    else
      let b ← if b.isNumber then pure b else toRegister b
      let a ← if a.isNumber && commutes then pure a else toRegister a
      freeExpr b
      freeExpr a
      return ⟨.pending, false, false⟩
  | .equality =>
    operands a b Expr.isLiteral
    return ⟨.jump, false, false⟩
  | .order =>
    operands a b Expr.isNumber
    return ⟨.jump, false, false⟩

end Check

end LuaStubs.Lua
