import LuaStubs.Lua.Scope

/-! The checker of Lua chunks: its state, its refusals, and the steps that look at one token. -/
namespace LuaStubs.Lua

inductive Refusal where
  | fault (line : Nat) (message : Text) (near : Option Text)
  /-- Statements and expressions are nested too deep. -/
  | tooDeep
  deriving DecidableEq, Repr

structure State where
  current : Lexeme
  /-- The tokens to come; the last one ends the chunk. -/
  ahead : List Lexeme
  func : Func
  /-- Enclosing functions, innermost first. -/
  outer : List Func
  deriving Repr

abbrev Check := StateT State (Except Refusal)

namespace Check

def token : Check Token := return (← get).current.token
def line : Check Nat := return (← get).current.line
def func : Check Func := return (← get).func

def modifyFunc (change : Func → Func) : Check Unit :=
  modify fun s => { s with func := change s.func }

def refuse (message : Text) : Check α := do
  let s ← get
  throw (.fault s.current.line message s.current.token.shown)

/-- Refuse a text that is well formed and still means nothing. -/
def refuseMeaning (message : Text) : Check α := do
  throw (.fault (← line) message none)

def limit (f : Func) (what : Text) (most : Nat) : Check α :=
  refuse ("too many " ++ what ++ " (limit is " ++ Text.ofNat most ++ ") in " ++ f.title)

/-- Go on to a token, unless the text could not be read there. -/
def takeUp (next : Lexeme) (rest : List Lexeme) : Check Unit :=
  match next.token with
  | .broken fault => throw (.fault fault.line fault.message (some fault.near))
  | _ => modify fun s => { s with current := next, ahead := rest }

/-- Go on to the next token. The end of the chunk has none. -/
def advance : Check Unit := do
  match (← get).ahead with
  | next :: rest => takeUp next rest
  | [] => pure ()

def peek : Check Token := do
  match (← get).ahead with
  | next :: _ =>
    match next.token with
    | .broken fault => throw (.fault fault.line fault.message (some fault.near))
    | token => return token
  | [] => return .eof

def isKey (text : String) : Check Bool := return (← token) == .key text

def accept (text : String) : Check Bool := do
  if ← isKey text then
    advance
    return true
  else return false

def expected (what : Text) : Check α := refuse (what ++ " expected")

def check (text : String) : Check Unit := do
  unless ← isKey text do expected (quote text)

def expect (text : String) : Check Unit := do
  check text
  advance

/-- The token that closes what `opening` opened at line `start`. -/
def expectClose (text opening : String) (start : Nat) : Check Unit := do
  unless ← accept text do
    if start = (← line) then expected (quote text)
    else refuse (quote text ++ " expected (to close " ++ quote opening ++ " at line " ++
      Text.ofNat start ++ ")")

def name : Check Text := do
  match ← token with
  | .name text =>
    advance
    return text
  | _ => expected "<name>"

/-- Repeat a step until it gives no further state. Steps that go on take a token each, so the
tokens to come bound their number. -/
def repeatWith (step : σ → Check (Option σ)) : (fuel : Nat) → σ → Check σ
  | 0, s => return s
  | fuel + 1, s => do
    match ← step s with
    | some s => repeatWith step fuel s
    | none => return s

def repeatFrom (s : σ) (step : σ → Check (Option σ)) : Check σ := do
  repeatWith step ((← get).ahead.length + 2) s

def declare (v : Variable) : Check Unit := do
  let f ← func
  if f.locals.length < 200 then modifyFunc fun f => { f with locals := f.locals ++ [v] }
  else limit f "local variables" 200

/-- Bring the oldest `n` pending locals into scope. -/
def activate (n : Nat) : Check Unit := modifyFunc fun f => { f with active := f.active + n }

def enterBlock (isLoop : Bool) : Check Unit := modifyFunc fun f =>
  { f with blocks := ⟨f.labels.length, f.gotos.length, f.active, isLoop⟩ :: f.blocks }

def jumpsInto (goto : Mark) (f : Func) : Check α :=
  let name := ((f.locals[goto.active]?).map Variable.name).getD []
  refuseMeaning ("<goto " ++ goto.name ++ "> at line " ++ Text.ofNat goto.line ++
    " jumps into the scope of local '" ++ name ++ "'")

/-- Let the jumps of the innermost block that look for a label find it. -/
def resolveGotos (label : Mark) : Check Unit := do
  let f ← func
  let old := ((f.blocks.head?).map Block.gotos).getD 0
  let found := (f.gotos.drop old).filter (·.name == label.name)
  match found.find? (·.active < label.active) with
  | some goto => jumpsInto goto f
  | none =>
    let kept := (f.gotos.drop old).filter (·.name != label.name)
    modifyFunc fun f => { f with gotos := f.gotos.take old ++ kept }

/-- A label. At the end of a block it stands outside the scope of the block's locals. -/
def createLabel (name : Text) (line : Nat) (isLast : Bool) : Check Unit := do
  let f ← func
  let active := if isLast then ((f.blocks.head?).map Block.active).getD 0 else f.active
  let label : Mark := ⟨name, line, active⟩
  modifyFunc fun f => { f with labels := f.labels ++ [label] }
  resolveGotos label

def undefinedGoto (goto : Mark) : Check α :=
  if goto.name == "break" then
    refuseMeaning ("break outside loop at line " ++ Text.ofNat goto.line)
  else refuseMeaning ("no visible label '" ++ goto.name ++ "' for <goto> at line " ++
    Text.ofNat goto.line)

/-- Leave the innermost block. Its locals and labels go out of scope; a loop gives its breaks
their target; other jumps go on looking in the enclosing block, without the locals left. -/
def leaveBlock : Check Unit := do
  let f ← func
  match f.blocks with
  | [] => pure ()
  | block :: blocks =>
    modifyFunc fun f => { f with
      locals := f.locals.take block.active
      active := block.active
      free := f.registers block.active }
    if block.isLoop then createLabel "break" 0 false
    modifyFunc fun f => { f with labels := f.labels.take block.labels, blocks }
    let f ← func
    if blocks.isEmpty then
      match f.gotos[block.gotos]? with
      | some goto => undefinedGoto goto
      | none => pure ()
    else
      modifyFunc fun f => { f with gotos := f.gotos.take block.gotos ++
        (f.gotos.drop block.gotos).map fun goto =>
          { goto with active := block.active } }

/-- The body of a new function, read inside `body`. -/
def inFunction (line : Nat) (isVararg : Bool) (body : Check Unit) : Check Unit := do
  modify fun s => { s with func := { line, isVararg }, outer := s.func :: s.outer }
  enterBlock false
  body
  leaveBlock
  modify fun s => match s.outer with
    | f :: outer => { s with func := f, outer }
    | [] => s

end Check

end LuaStubs.Lua
