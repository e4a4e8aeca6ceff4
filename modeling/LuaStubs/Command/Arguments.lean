import LuaStubs.Text.Basic

/-! Arguments of a command line: options by their long or short name with their values, and values
without a name. -/
namespace LuaStubs.Command

/-- Why arguments are refused, or not acted upon. -/
inductive Usage where
  | help
  /-- Help in place of a command that is missing. -/
  | helpForMissing
  | unknownCommand
  | unknownArgument
  | invalidValue
  | tooManyValues
  /-- An option that may be given once is given again. -/
  | repeated
  | missingArgument
  deriving DecidableEq, Repr

def Usage.message : Usage → Text
  | .help | .helpForMissing => "usage: generate -i <input>... [-o <out>] | validate -d <dir>"
  | .unknownCommand => "unknown command"
  | .unknownArgument => "unknown argument"
  | .invalidValue => "an option has no value"
  | .tooManyValues => "an option takes no value"
  | .repeated => "an option is given twice"
  | .missingArgument => "a required option is missing"

inductive Arity where
  | switch
  | help
  | one
  | several
  deriving DecidableEq, Repr

structure Opt where
  long : Text
  short : Option Char
  arity : Arity
  /-- Whether the values are paths, which may not be empty. -/
  isPath : Bool := false
  deriving DecidableEq, Repr

structure Form where
  options : List Opt
  /-- The option that values without a name belong to. -/
  free : Option Opt := none
  required : List Text := []
  deriving DecidableEq, Repr

def helpOption : Opt := ⟨"help", some 'h', .help, false⟩

namespace Form

def byLong? (f : Form) (name : Text) : Option Opt :=
  (f.options ++ [helpOption]).find? (·.long == name)

def byShort? (f : Form) (c : Char) : Option Opt :=
  (f.options ++ [helpOption]).find? (·.short == some c)

end Form

/-- What is read so far. An option that waits for values is settled when the next one comes. -/
structure Given where
  settled : List (Text × List Text) := []
  waiting : Option (Opt × List Text) := none
  /-- Whether the next value goes to the waiting option. -/
  isOpen : Bool := false
  deriving Repr

namespace Given

def has (g : Given) (name : Text) : Bool := g.settled.any (·.1 == name)

def add (g : Given) (o : Opt) (values : List Text) : Given :=
  { g with settled := g.settled ++ [(o.long, values)] }

def pathsAreNamed (o : Opt) (values : List Text) : Bool :=
  !o.isPath || values.all (!·.isEmpty)

def take (g : Given) (o : Opt) (values : List Text) : Except Usage Given :=
  match o.arity with
  | .help => .error .help
  | .switch => if g.has o.long then .error .repeated else .ok (g.add o [])
  | .one =>
    if values.isEmpty then .error .invalidValue
    else if g.has o.long then .error .repeated
    else if pathsAreNamed o values then .ok (g.add o values)
    else .error .invalidValue
  | .several =>
    if values.isEmpty || !pathsAreNamed o values then .error .invalidValue
    else .ok (g.add o values)

def settle (g : Given) : Except Usage Given :=
  match g.waiting with
  | none => .ok { g with isOpen := false }
  | some (o, values) => ({ g with waiting := none, isOpen := false } : Given).take o values

/-- An option after its name: with a value attached, or with values to come. -/
def start (g : Given) (o : Opt) (attached : Option Text) : Except Usage Given := do
  let g ← g.settle
  match attached with
  | some value => g.take o [value]
  | none =>
    if o.arity = .one || o.arity = .several then return { g with waiting := some (o, []), isOpen := true }
    else g.take o []

def value (g : Given) (o : Opt) (values : List Text) (text : Text) : Given :=
  { g with waiting := some (o, values ++ [text]), isOpen := o.arity = .several }

def freeValue (f : Form) (g : Given) (text : Text) : Except Usage Given :=
  match f.free with
  | none => .error .unknownArgument
  | some o =>
    match g.waiting with
    | some (waiting, values) =>
      if waiting = o then .ok { g with waiting := some (o, values ++ [text]), isOpen := false }
      else do return { ← g.settle with waiting := some (o, [text]) }
    | none => .ok { g with waiting := some (o, [text]), isOpen := false }

def isValued (o : Opt) : Bool := o.arity = .one || o.arity = .several

def long (f : Form) (g : Given) (text : Text) : Except Usage Given :=
  let name := text.takeWhile (· != '=')
  let attached := match text.dropWhile (· != '=') with
    | _ :: value => some value
    | [] => none
  match f.byLong? name with
  | none => .error .unknownArgument
  | some o => if attached.isSome && !isValued o then .error .tooManyValues else g.start o attached

/-- An argument `-abc`: switches, of which the last may be an option with its value behind it, also
after an equals sign. -/
def short (f : Form) (g : Given) : Text → Except Usage Given
  | [] => .ok g
  | c :: rest =>
    match f.byShort? c with
    | none => .error .unknownArgument
    | some o =>
      if isValued o then
        match rest with
        | [] => g.start o none
        | '=' :: value => g.start o (some value)
        | value => g.start o (some value)
      else do short f (← g.start o none) rest

def argument (f : Form) (g : Given) (text : Text) : Except Usage Given :=
  match text with
  | '-' :: '-' :: name => long f g name
  | '-' :: c :: letters => short f g (c :: letters)
  | text =>
    match g.waiting, g.isOpen with
    | some (o, values), true => .ok (g.value o values text)
    | _, _ => freeValue f g text

/-- All arguments. After `--` every one is a value without a name. -/
def all (f : Form) : (isPlain : Bool) → Given → List Text → Except Usage Given
  | _, g, [] => g.settle
  | true, g, text :: rest => do all f true (← freeValue f g text) rest
  | false, g, text :: rest =>
    if text = "--" then all f true g rest else do all f false (← argument f g text) rest

end Given

structure Values where
  given : List (Text × List Text)
  deriving DecidableEq, Repr

namespace Values

def has (v : Values) (name : Text) : Bool := v.given.any (·.1 == name)

def get (v : Values) (name : Text) : List Text :=
  (v.given.filter (·.1 == name)).flatMap Prod.snd

def get? (v : Values) (name : Text) : Option Text := (v.get name).head?

end Values

def Form.read (f : Form) (args : List Text) : Except Usage Values := do
  let g ← Given.all f false {} args
  if f.required.all g.has then return ⟨g.settled⟩ else .error .missingArgument

end LuaStubs.Command
