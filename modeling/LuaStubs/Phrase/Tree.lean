import LuaStubs.Phrase.Token

/-! The structure of a written type, read by an automaton that takes one token at a time.

`union := alt (or alt)*`, `alt := table | ( union ) | word+`,
`table := { [entry (, entry)* [,]] }`, `entry := ... | word : union`, the ellipsis only first. A union
of one alternative and a group stand for their content. -/
namespace LuaStubs.Phrase

inductive Tree where
  | phrase (text : Text)
  | union (alts : List Tree)
  | table (fields : List (Text × Tree)) (isOpen : Bool)
  deriving Inhabited, Repr

def Tree.ofAlts : List Tree → Tree
  | [alt] => alt
  | alts => .union alts

/-- What stands around the union that is being read. Each frame keeps the finished alternatives of
the union outside it. -/
inductive Context where
  | top
  | group (alts : List Tree) (outer : Context)
  | field (name : Text) (fields : List (Text × Tree)) (isOpen : Bool) (alts : List Tree)
      (outer : Context)
  deriving Inhabited, Repr

inductive State where
  /-- An alternative has to come. -/
  | alt (alts : List Tree) (context : Context)
  /-- Words of a phrase have been read. -/
  | words (read : List Text) (alts : List Tree) (context : Context)
  /-- A table or a group has ended. -/
  | closed (alts : List Tree) (context : Context)
  /-- A table entry, or the end of the table, has to come. -/
  | entry (fields : List (Text × Tree)) (isOpen : Bool) (alts : List Tree) (context : Context)
  /-- The colon after a field's name has to come. -/
  | colon (name : Text) (fields : List (Text × Tree)) (isOpen : Bool) (alts : List Tree)
      (context : Context)
  /-- An ellipsis has been read. -/
  | opened (alts : List Tree) (context : Context)
  deriving Inhabited, Repr

def afterAlt (alts : List Tree) : Context → Token → Except Trouble State
  | context, .or => .ok (.alt alts context)
  | .top, _ => .error .trailingInput
  | .group outer context, .closeParen => .ok (.closed (outer ++ [.ofAlts alts]) context)
  | .group _ _, _ => .error .expectedCloseParen
  | .field name fields isOpen outer context, .comma =>
    .ok (.entry (fields ++ [(name, .ofAlts alts)]) isOpen outer context)
  | .field name fields isOpen outer context, .closeBrace =>
    .ok (.closed (outer ++ [.table (fields ++ [(name, .ofAlts alts)]) isOpen]) context)
  | .field _ _ _ _ _, _ => .error .expectedFieldEnd

def step : State → Token → Except Trouble State
  | .alt alts context, .word w => .ok (.words [w] alts context)
  | .alt alts context, .openParen => .ok (.alt [] (.group alts context))
  | .alt alts context, .openBrace => .ok (.entry [] false alts context)
  | .alt _ _, _ => .error .expectedType
  | .words read alts context, .word w => .ok (.words (read ++ [w]) alts context)
  | .words read alts context, token =>
    afterAlt (alts ++ [.phrase (Text.join " " read)]) context token
  | .closed alts context, token => afterAlt alts context token
  | .entry fields isOpen alts context, .closeBrace =>
    .ok (.closed (alts ++ [.table fields isOpen]) context)
  | .entry fields isOpen alts context, .ellipsis =>
    if fields.isEmpty && !isOpen then .ok (.opened alts context) else .error .lateEllipsis
  | .entry fields isOpen alts context, .word name => .ok (.colon name fields isOpen alts context)
  | .entry _ _ _ _, _ => .error .expectedField
  | .colon name fields isOpen alts context, .colon =>
    .ok (.alt [] (.field name fields isOpen alts context))
  | .colon _ _ _ _ _, _ => .error .expectedColon
  | .opened alts context, .comma => .ok (.entry [] true alts context)
  | .opened alts context, .closeBrace => .ok (.closed (alts ++ [.table [] true]) context)
  | .opened _ _, _ => .error .expectedFieldEnd

def endAfterAlt (alts : List Tree) : Context → Except Trouble Tree
  | .top => .ok (.ofAlts alts)
  | .group _ _ => .error .expectedCloseParen
  | .field _ _ _ _ _ => .error .expectedFieldEnd

def finish : State → Except Trouble Tree
  | .alt _ _ => .error .expectedType
  | .words read alts context => endAfterAlt (alts ++ [.phrase (Text.join " " read)]) context
  | .closed alts context => endAfterAlt alts context
  | .entry _ _ _ _ => .error .expectedField
  | .colon _ _ _ _ _ => .error .expectedColon
  | .opened _ _ => .error .expectedFieldEnd

def run (stop : Nat) : State → List Placed → Except Error Tree
  | state, [] => (finish state).mapError (⟨·, stop⟩)
  | state, placed :: rest =>
    match step state placed.token with
    | .ok next => run stop next rest
    | .error trouble => .error ⟨trouble, placed.offset⟩

def start : State := .alt [] .top

/-- The tree of a written type, or the first place where it cannot be one. -/
def parse (t : Text) : Except Error Tree := do
  run (Text.byteSize t) start (← tokens t)

end LuaStubs.Phrase
