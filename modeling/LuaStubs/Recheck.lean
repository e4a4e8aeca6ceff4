import LuaStubs.Command.Run

/-! The check that generation is stable: the same description is generated into two new directories,
which have to be equal and valid. -/
namespace LuaStubs.Recheck

structure Settings where
  inputs : List Files.Path
  pointer : Option Text
  typeTable : Option Files.Path
  deriving DecidableEq, Repr

def inputsOption : Command.Opt := ⟨"inputs", none, .several, true⟩

def form : Command.Form where
  options := [Command.pointerOption, Command.tableOption]
  free := some inputsOption
  required := [inputsOption.long]

def parse (args : List Text) : Except Command.Usage Settings := do
  let v ← form.read args
  return ⟨v.get inputsOption.long, v.get? Command.pointerOption.long,
    v.get? Command.tableOption.long⟩

def generated (api : Api) (config : Config) : Files.Tree × Except Files.WriteError Generation.Report :=
  Generation.run api config Files.temporaryName .empty

def unstable (api : Api) (first second : Files.Tree) : List Text :=
  (api.modules.map Api.Module.name).filter fun name =>
    let path := Generation.fileOf Files.temporaryName name
    (first.read path).toOption != (second.read path).toOption

def remarkLine (p : Files.Path) (r : Remark) : Text :=
  "✗ " ++ p ++ ":" ++ Text.ofNat r.line ++ ": " ++ r.message

def failedLine (n : Nat) : Text := "✗ " ++ Text.ofNat n ++ " module(s) failed to emit"

def unstableLine (name : Text) : Text := "✗ " ++ name ++ ".lua: output differs between runs"

def stableLine (api : Api) : Text :=
  "✓ " ++ Text.ofNat api.modules.length ++ " module(s) stable and valid"

def compare (api : Api) (config : Config) (first second : Files.Tree) : Except Text (List Text × Bool) :=
  match (Validator.ofTable config.table).checkDirectory first Files.temporaryName with
  | .error e => .error e.message
  | .ok report =>
    let differing := (unstable api first second).map unstableLine
    let remarks := report.files.flatMap fun f => f.remarks.map (remarkLine f.path)
    let isGood := differing.isEmpty && report.isSuccess
    .ok (differing ++ remarks ++ (if isGood then [stableLine api] else []), isGood)

/-- Generate once; a module that fails ends the check. -/
def attempt (api : Api) (config : Config) : Except (List Text × Except Text Bool) Files.Tree :=
  match generated api config with
  | (_, .error e) => .error ([], .error (Command.tellWrite e))
  | (t, .ok report) =>
    if report.failed = 0 then .ok t else .error ([failedLine report.failed], .ok false)

def check (api : Api) (config : Config) : List Text × Except Text Bool :=
  match attempt api config, attempt api config with
  | .error ended, _ => ended
  | .ok _, .error ended => ended
  | .ok first, .ok second =>
    match compare api config first second with
    | .ok (lines, isGood) => (lines, .ok isGood)
    | .error e => ([], .error e)

def prepare (t : Files.Tree) (s : Settings) : Except Text (Config × Api) := do
  let table ← Command.typeTable t s.typeTable
  match Api.loadFiles t s.inputs s.pointer with
  | .ok api => return (⟨"love", false, table⟩, api)
  | .error e => .error (Command.tellLoad e)

/-- The files that are there stay as they are. -/
def run (t : Files.Tree) (s : Settings) : Run :=
  match prepare t s with
  | .error e => ⟨t, [], .error e⟩
  | .ok (config, api) =>
    let (lines, result) := check api config
    ⟨t, lines, result⟩

end LuaStubs.Recheck
