import LuaStubs.Lua.Operator

/-! Expressions of Lua. What is nested in an expression or a statement is read one level down, and
the readers of that level are given. -/
namespace LuaStubs.Lua

/-- The readers one level down. -/
structure Below where
  /-- An expression of operators that bind more strongly than a bound, and the operator after it. -/
  operation : Nat → Check (Expr × Option Binary)
  statement : Check Unit
  /-- The rest of an assignment, after the targets read so far. -/
  assignment : List Place → Check Unit

namespace Check

def expression (below : Below) : Check Expr := return (← below.operation 0).1

/-- Whether a variable that is an upvalue of a function may not be assigned to. -/
def isReadOnlyIn (f : Func) : Place → Bool
  | .localVar _ position => ((f.locals[position]?).map Variable.isReadOnly).getD false
  | .upvalue i => ((f.upvalues[i]?).map Upvalue.isReadOnly).getD false
  | _ => false

/-- Find a name in a function or the ones around it. On the way in, every function takes what it
does not declare itself as an upvalue; one that has too many is the error. -/
def resolve (name : Text) : (f : Func) → (outer : List Func) →
    Except Func (Option Place × Func × List Func)
  | f, outer =>
    match f.find? name with
    | some (v, position) =>
      match v.binding with
      | .known value => .ok (some (.known name value), f, outer)
      | _ => .ok (some (.localVar (f.registers position) position), f, outer)
    | none =>
      match f.upvalues.findIdx? (·.name == name) with
      | some i => .ok (some (.upvalue i), f, outer)
      | none =>
        match outer with
        | [] => .ok (none, f, [])
        | g :: rest =>
          match resolve name g rest with
          | .error full => .error full
          | .ok (none, g, rest) => .ok (none, f, g :: rest)
          | .ok (some (.known n value), g, rest) => .ok (some (.known n value), f, g :: rest)
          | .ok (some place, g, rest) =>
            if f.upvalues.length < 255 then
              let taken : Upvalue := ⟨name, isReadOnlyIn g place⟩
              .ok (some (.upvalue f.upvalues.length),
                { f with upvalues := f.upvalues ++ [taken] }, g :: rest)
            else .error f

def variableNamed (name : Text) : Check (Option Place) := do
  let s ← get
  match resolve name s.func s.outer with
  | .error full => limit full "upvalues" 255
  | .ok (place, func, outer) =>
    modify fun s => { s with func, outer }
    return place

def fieldName (name : Text) : Expr := ⟨.literal (.string (name.length ≤ 40)), false, false⟩

/-- A variable, or the field of the environment that is a global one. -/
def variableExpr (name : Text) : Check Expr := do
  match ← variableNamed name with
  | some place => return ⟨place, false, false⟩
  | none =>
    let environment ← variableNamed "_ENV"
    let table ← toRegisterOrUpvalue ⟨environment.getD .void, false, false⟩
    index table (fieldName name)

/-- Expressions between commas. All but the last are put into registers; the count comes with it. -/
def expressions (below : Below) : Check (Nat × Expr) := do
  let first ← expression below
  repeatFrom (1, first) fun (n, e) => do
    if ← accept "," then
      let _ ← toNextRegister e
      let e ← expression below
      return some (n + 1, e)
    else return none

def isMulti (e : Expr) : Bool := match e.place with
  | .call _ | .varargs => true
  | _ => false

/-- Leave the number of values of a call or of the variable arguments open. -/
def openMulti (e : Expr) : Check Unit := do
  if e.place == .varargs then reserve 1

def bracketIndex (below : Below) : Check Expr := do
  expect "["
  let key ← toValue (← expression below)
  expect "]"
  return key

/-- The fields of a table so far: how many values wait in registers, and the last one read. -/
structure Fields where
  waiting : Nat := 0
  last : Option Expr := none

def setFree (free : Nat) : Check Unit := modifyFunc fun f => { f with free }

/-- Put the last value into a register, and all of them into the table when there are fifty. -/
def closeField (table : Nat) (fields : Fields) : Check Fields := do
  match fields.last with
  | none => return fields
  | some e =>
    let _ ← toNextRegister e
    if fields.waiting = 50 then
      setFree (table + 1)
      return {}
    else return { fields with last := none }

def namedField (below : Below) (table : Nat) : Check Unit := do
  let free := (← func).free
  let key ← match ← token with
    | .name text => do
      advance
      pure (fieldName text)
    | _ => bracketIndex below
  expect "="
  let target ← index ⟨.register table, false, false⟩ key
  let e ← expression below
  store target.place e
  setFree free

def tableField (below : Below) (table : Nat) (fields : Fields) : Check Fields := do
  let isNamed ← match ← token with
    | .name _ => pure ((← peek) == .key "=")
    | .key "[" => pure true
    | _ => pure false
  if isNamed then
    namedField below table
    return fields
  else
    let e ← expression below
    return ⟨fields.waiting + 1, some e⟩

def finishFields (table : Nat) (fields : Fields) : Check Unit := do
  match fields.last with
  | some e => if isMulti e then openMulti e else let _ ← toNextRegister e
  | none => pure ()
  unless fields.waiting = 0 do setFree (table + 1)

def table (below : Below) : Check Expr := do
  let start ← line
  let base := (← func).free
  reserve 1
  expect "\x7b"
  let (fields, _) ← repeatFrom (({}, true) : Fields × Bool) fun (fields, isOpen) => do
    if !isOpen then return none
    else if ← isKey "\x7d" then return none
    else
      let fields ← tableField below base (← closeField base fields)
      let isOpen ← accept "," <||> accept ";"
      return some (fields, isOpen)
  expectClose "\x7d" "\x7b" start
  finishFields base fields
  return ⟨.register base, false, false⟩

/-- Whether a token ends a block; `until` may be left out. -/
def isBlockEnd (withUntil : Bool) : Token → Bool
  | .eof | .key "end" | .key "else" | .key "elseif" => true
  | .key "until" => withUntil
  | _ => false

/-- The statements of a block. A `return` is the last one. -/
def statements (below : Below) : Check Unit := do
  let _ ← repeatFrom true fun isOpen => do
    let current ← token
    if !isOpen || isBlockEnd true current then return none
    else
      below.statement
      return some (current != .key "return")

/-- The parameters of a function. They are in scope, and in registers, from its first statement. -/
def parameters : Check Unit := do
  let n ← if ← isKey ")" then pure 0 else do
    let (n, _) ← repeatFrom (0, true) fun (n, isOpen) => do
      if !isOpen then return none
      else match ← token with
        | .name text =>
          advance
          declare ⟨text, .regular⟩
          return some (n + 1, ← accept ",")
        | .key "..." =>
          advance
          modifyFunc fun f => { f with isVararg := true }
          return some (n, false)
        | _ => refuse "<name> or '...' expected"
    pure n
  activate n
  reserve (← func).active

/-- Parameters and statements of a function, up to its `end`. Its value takes a register. -/
def functionBody (below : Below) (isMethod : Bool) (start : Nat) : Check Expr := do
  inFunction start false do
    expect "("
    if isMethod then
      declare ⟨"self", .regular⟩
      activate 1
    parameters
    expect ")"
    statements below
    expectClose "end" "function" start
  toNextRegister ⟨.pending, false, false⟩

def stringLiteral (bytes : Text.Bytes) : Expr :=
  ⟨.literal (.string (bytes.length ≤ 42)), false, false⟩

/-- The arguments of a call whose function is in register `base`. -/
def arguments (below : Below) (base : Nat) : Check Expr := do
  let start ← line
  match ← token with
  | .key "(" =>
    advance
    let last ← if ← isKey ")" then pure none else do
      let (_, e) ← expressions below
      if isMulti e then openMulti e
      pure (some e)
    expectClose ")" "(" start
    close last
  | .key "\x7b" => close (some (← table below))
  | .string bytes =>
    advance
    close (some (stringLiteral bytes))
  | _ => refuse "function arguments expected"
where
  close (last : Option Expr) : Check Expr := do
    match last with
    | some e => unless isMulti e do let _ ← toNextRegister e
    | none => pure ()
    setFree (base + 1)
    return ⟨.call base, false, false⟩

def primary (below : Below) : Check Expr := do
  match ← token with
  | .name text =>
    advance
    variableExpr text
  | .key "(" =>
    let start ← line
    advance
    let e ← expression below
    expectClose ")" "(" start
    discharge e
  | _ => refuse "unexpected symbol"

def namedIndex (e : Expr) : Check Expr := do
  let e ← toRegisterOrUpvalue e
  advance
  index e (fieldName (← name))

def baseOf (e : Expr) : Nat := match e.place with
  | .register r => r
  | _ => 0

/-- A primary expression with the fields, indices and calls after it. -/
def suffixed (below : Below) : Check Expr := do
  let e ← primary below
  repeatFrom e fun e => do
    match ← token with
    | .key "." => return some (← namedIndex e)
    | .key "[" =>
      let e ← toRegisterOrUpvalue e
      let key ← bracketIndex below
      return some (← index e key)
    | .key ":" =>
      advance
      let _ ← name
      let e ← method e
      return some (← arguments below (baseOf e))
    | .key "(" | .key "\x7b" | .string _ =>
      let e ← toNextRegister e
      return some (← arguments below (baseOf e))
    | _ => return none

def isByteNumeral (text : Text) : Bool :=
  text.all Char.isDigit && text.foldl (fun n c => n * 10 + (c.toNat - '0'.toNat)) 0 < 256

def simple (below : Below) : Check Expr := do
  match ← token with
  | .number text => literal (.number (isByteNumeral text))
  | .string bytes =>
    advance
    return stringLiteral bytes
  | .key "nil" => literal .nil
  | .key "true" => literal .yes
  | .key "false" => literal .no
  | .key "..." =>
    unless (← func).isVararg do refuse "cannot use '...' outside a vararg function"
    advance
    return ⟨.varargs, false, false⟩
  | .key "\x7b" => table below
  | .key "function" =>
    advance
    functionBody below false (← line)
  | _ => suffixed below
where
  literal (value : Literal) : Check Expr := do
    advance
    return ⟨.literal value, false, false⟩

/-- An operand and the operators after it that bind it more strongly than `bound`; the operator that
does not comes with the value. -/
def operation (below : Below) (bound : Nat) : Check (Expr × Option Binary) := do
  let e ← match Unary.ofToken? (← token) with
    | some op => do
      advance
      let (e, _) ← below.operation Unary.strength
      unary op e
    | none => simple below
  repeatFrom (e, Binary.ofToken? (← token)) fun (e, op) => do
    match op with
    | none => return none
    | some op =>
      if op.left ≤ bound then return none
      else
        advance
        let a ← leftOperand op.combination e
        let (b, next) ← below.operation op.right
        return some (← combine op.combination a b, next)

end Check

end LuaStubs.Lua
