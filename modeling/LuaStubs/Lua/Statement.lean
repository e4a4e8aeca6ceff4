import LuaStubs.Lua.Expression

/-! Statements of Lua, and the levels in which statements and expressions nest. -/
namespace LuaStubs.Lua

namespace Check

/-- Match `needed` registers to `count` expressions, of which `last` is still open. -/
def adjust (needed count : Nat) (last : Option Expr) : Check Unit := do
  match last with
  | some e => if isMulti e then openMulti e else let _ ← toNextRegister e
  | none => pure ()
  if count < needed then reserve (needed - count)
  else modifyFunc fun f => { f with free := f.free - (count - needed) }

def isAssignable : Place → Bool
  | .localVar _ _ | .upvalue _ | .known _ _ | .indexed _ _ | .field _ | .upvalueField _ => true
  | _ => false

def nameIn (f : Func) : Place → Text
  | .known name _ => name
  | .localVar _ position => ((f.locals[position]?).map Variable.name).getD []
  | .upvalue i => ((f.upvalues[i]?).map Upvalue.name).getD []
  | _ => []

def checkWritable (target : Place) : Check Unit := do
  let f ← func
  let isKnown := match target with
    | .known _ _ => true
    | _ => false
  if isKnown || isReadOnlyIn f target then
    refuseMeaning ("attempt to assign to const variable '" ++ nameIn f target ++ "'")

/-- Whether assigning to `target` would change what `earlier` indexes. -/
def conflicts (target : Place) (earlier : Place) : Bool :=
  match target, earlier with
  | .upvalue i, .upvalueField j => i == j
  | .localVar r _, .field table => r == table
  | .localVar r _, .indexed table key => r == table || r == key
  | _, _ => false

def storeTop (target : Place) : Check Unit := do
  store target ⟨.register ((← func).free - 1), false, false⟩

/-- The rest of an assignment after its targets, the newest first. -/
def assignment (below : Below) : List Place → Check Unit
  | [] => pure ()
  | target :: earlier => do
    unless isAssignable target do refuse "syntax error"
    checkWritable target
    if ← accept "," then
      let e ← suffixed below
      if (target :: earlier).any (conflicts e.place) then reserve 1
      below.assignment (e.place :: target :: earlier)
      storeTop target
    else
      expect "="
      let (count, e) ← expressions below
      if count = earlier.length + 1 then store target (← if isMulti e then discharge e else pure e)
      else
        adjust (earlier.length + 1) count (some e)
        storeTop target

def expressionStatement (below : Below) : Check Unit := do
  let e ← suffixed below
  if ← isKey "=" <||> isKey "," then assignment below [e.place]
  else match e.place with
    | .call _ => pure ()
    | _ => refuse "syntax error"

def block (below : Below) : Check Unit := do
  enterBlock false
  statements below
  leaveBlock

def condition (below : Below) : Check Unit := do
  let e ← expression below
  let _ ← goIfTrue e

def goto (name : Text) (line : Nat) : Check Unit := modifyFunc fun f =>
  { f with gotos := f.gotos ++ [⟨name, line, f.active⟩] }

/-- A condition and the statements under it. A lone `break` there is part of the condition. -/
def thenBlock (below : Below) : Check Unit := do
  advance
  let e ← expression below
  expect "then"
  if ← isKey "break" then
    let start ← line
    let _ ← goIfFalse e
    advance
    enterBlock false
    goto "break" start
    let _ ← repeatFrom () fun _ => do
      if ← accept ";" then return some () else return none
    unless isBlockEnd false (← token) do statements below
  else
    let _ ← goIfTrue e
    enterBlock false
    statements below
  leaveBlock

def ifStatement (below : Below) (start : Nat) : Check Unit := do
  thenBlock below
  let _ ← repeatFrom () fun _ => do
    if ← isKey "elseif" then
      thenBlock below
      return some ()
    else return none
  if ← accept "else" then block below
  expectClose "end" "if" start

def whileStatement (below : Below) (start : Nat) : Check Unit := do
  advance
  condition below
  enterBlock true
  expect "do"
  block below
  expectClose "end" "while" start
  leaveBlock

def repeatStatement (below : Below) (start : Nat) : Check Unit := do
  enterBlock true
  enterBlock false
  advance
  statements below
  expectClose "until" "repeat" start
  condition below
  leaveBlock
  leaveBlock

def forBody (below : Below) (count : Nat) : Check Unit := do
  expect "do"
  enterBlock false
  activate count
  reserve count
  block below
  leaveBlock

def declareHidden (n : Nat) : Check Unit :=
  (List.replicate n ()).forM fun _ => declare ⟨"(for state)", .regular⟩

def bound (below : Below) : Check Unit := do
  let e ← expression below
  let _ ← toNextRegister e

def countingFor (below : Below) (first : Text) : Check Unit := do
  declareHidden 3
  declare ⟨first, .regular⟩
  expect "="
  bound below
  expect ","
  bound below
  if ← accept "," then bound below else reserve 1
  activate 3
  forBody below 1

def namesAfter (count : Nat) : Check Nat :=
  repeatFrom count fun count => do
    if ← accept "," then
      declare ⟨← name, .regular⟩
      return some (count + 1)
    else return none

def iteratingFor (below : Below) (first : Text) : Check Unit := do
  declareHidden 4
  declare ⟨first, .regular⟩
  let count ← namesAfter 1
  expect "in"
  let (values, e) ← expressions below
  adjust 4 values (some e)
  activate 4
  checkRegisters 3
  forBody below count

def forStatement (below : Below) (start : Nat) : Check Unit := do
  enterBlock true
  advance
  let first ← name
  match ← token with
  | .key "=" => countingFor below first
  | .key "," | .key "in" => iteratingFor below first
  | _ => refuse "'=' or 'in' expected"
  expectClose "end" "for" start
  leaveBlock

def functionStatement (below : Below) (start : Nat) : Check Unit := do
  advance
  let e ← variableExpr (← name)
  let e ← repeatFrom e fun e => do
    if ← isKey "." then return some (← namedIndex e) else return none
  let isMethod ← isKey ":"
  let e ← if isMethod then namedIndex e else pure e
  let body ← functionBody below isMethod start
  checkWritable e.place
  store e.place body

def localFunction (below : Below) : Check Unit := do
  declare ⟨← name, .regular⟩
  activate 1
  let _ ← functionBody below false (← line)

def binding : Check Binding := do
  if ← accept "<" then
    let word ← name
    expect ">"
    if word == "const" then return .const
    else if word == "close" then return .close
    else refuseMeaning ("unknown attribute '" ++ word ++ "'")
  else return .regular

/-- One variable of a list with its attribute; `hasClose` says that an earlier one is to be
closed. -/
def localName (hasClose : Bool) : Check (Binding × Bool) := do
  let text ← name
  declare ⟨text, .regular⟩
  let kind ← binding
  modifyFunc fun f => { f with locals := f.locals.dropLast ++ [⟨text, kind⟩] }
  if kind == .close && hasClose then
    refuseMeaning "multiple to-be-closed variables in local list"
  return (kind, hasClose || kind == .close)

def knownValue? (e : Expr) : Option Literal :=
  if e.hasJumps then none
  else match e.place with
    | .literal value => some value
    | .known _ value => some value
    | _ => none

def localVariables (below : Below) : Check Unit := do
  let (kind, hasClose) ← localName false
  let (count, last, _) ← repeatFrom (1, kind, hasClose) fun (count, _, hasClose) => do
    if ← accept "," then
      let (kind, hasClose) ← localName hasClose
      return some (count + 1, kind, hasClose)
    else return none
  let (values, e) ← if ← accept "=" then do
      let (values, e) ← expressions below
      pure (values, some e)
    else pure (0, none)
  match e.bind knownValue? with
  | some value =>
    if values = count && last == .const then
      modifyFunc fun f => { f with locals := (f.locals.dropLast ++
        (f.locals.getLast?.map fun v => { v with binding := .known value }).toList) }
    else adjust count values e
  | none => adjust count values e
  activate count

def labelStatement (below : Below) (start : Nat) : Check Unit := do
  advance
  let text ← name
  expect "::"
  let _ ← repeatFrom () fun _ => do
    if ← isKey ";" <||> isKey "::" then
      below.statement
      return some ()
    else return none
  match (← func).labels.find? (·.name == text) with
  | some label => refuseMeaning ("label '" ++ text ++ "' already defined on line " ++
      Text.ofNat label.line)
  | none => createLabel text start (isBlockEnd false (← token))

def returnStatement (below : Below) : Check Unit := do
  advance
  let isEmpty := isBlockEnd true (← token)
  unless isEmpty || (← isKey ";") do
    let (count, e) ← expressions below
    if isMulti e then openMulti e
    else if count = 1 then let _ ← toRegister e
    else let _ ← toNextRegister e
  let _ ← accept ";"

def gotoStatement : Check Unit := do
  advance
  let start ← line
  let text ← name
  match (← func).labels.find? (·.name == text) with
  | some _ => pure ()
  | none => goto text start

def statement (below : Below) : Check Unit := do
  let start ← line
  match ← token with
  | .key ";" => advance
  | .key "if" => ifStatement below start
  | .key "while" => whileStatement below start
  | .key "do" =>
    advance
    block below
    expectClose "end" "do" start
  | .key "for" => forStatement below start
  | .key "repeat" => repeatStatement below start
  | .key "function" => functionStatement below start
  | .key "local" =>
    advance
    if ← accept "function" then localFunction below else localVariables below
  | .key "::" => labelStatement below start
  | .key "return" => returnStatement below
  | .key "break" =>
    advance
    goto "break" start
  | .key "goto" => gotoStatement
  | _ => expressionStatement below
  modifyFunc fun f => { f with free := f.level }

/-- The readers of a level; below the last one everything is nested too deep. -/
def level : Nat → Below
  | 0 => ⟨fun _ => throw .tooDeep, throw .tooDeep, fun _ => throw .tooDeep⟩
  | n + 1 => ⟨operation (level n), statement (level n), assignment (level n)⟩

end Check

end LuaStubs.Lua
