import LuaStubs.Command
import LuaStubs.Files.Documents
import LuaStubs.Summary

/-! What a command does: the files afterwards, what is told, and whether all went well. -/
namespace LuaStubs

/-- The end of a run. An error is the text that is told in place of a result. -/
structure Run where
  tree : Files.Tree
  output : List Text
  result : Except Text Bool
  deriving Repr

namespace Command

/-- An error of the files is told with its cause once more. -/
def tellLoad (e : LoadError) : Text :=
  match e with
  | .unreadable _ cause => e.message ++ ": " ++ cause.message
  | _ => e.message

def tellTable (e : TypeTable.FileError) : Text :=
  match e with
  | .unreadable _ cause => e.message ++ ": " ++ cause.message
  | .invalid _ _ => e.message

def tellWrite (e : Files.WriteError) : Text := e.message ++ ": " ++ e.cause.message

def typeTable (t : Files.Tree) : Option Files.Path → Except Text TypeTable
  | none => .ok .builtin
  | some path => (TypeTable.loadFile t path).mapError tellTable

def inputFiles (t : Files.Tree) (input : Text) : Except Text (List Files.Path) :=
  if isPattern input then
    match t.search input with
    | .error e => .error e.message
    | .ok [] => .error ("glob pattern matched no files: " ++ input)
    | .ok found => .ok (sortBy Files.Path.le found)
  else .ok [input]

/-- The API and the configuration of a generation. The type table is read first. -/
def prepare (t : Files.Tree) (s : GenerateSettings) : Except Text (Config × Api) := do
  let config : Config := ⟨s.space, s.verbose, ← typeTable t s.typeTable⟩
  let inputs ← s.inputs.mapM (inputFiles t)
  match Api.loadFiles t inputs.flatten s.pointer with
  | .ok api => return (config, api)
  | .error e => .error ("failed to load API description: " ++ tellLoad e)

def validateRun (isColored : Bool) (t : Files.Tree) (dir : Files.Path) (table : TypeTable)
    (verbose : Bool) : Run :=
  match (Validator.ofTable table).checkDirectory t dir with
  | .ok report => ⟨t, Summary.validation isColored verbose report, .ok report.isSuccess⟩
  | .error e => ⟨t, [], .error ("invalid output directory " ++ dir ++ ": " ++ e.message)⟩

/-- Both runs one after the other: all goes well if both do. -/
def andThen (first : Run) (isGood : Bool) (second : Files.Tree → Run) : Run :=
  let next := second first.tree
  ⟨next.tree, first.output ++ next.output, next.result.map (isGood && ·)⟩

def generateRun (isColored : Bool) (t : Files.Tree) (s : GenerateSettings) : Run :=
  match prepare t s with
  | .error e => ⟨t, [], .error e⟩
  | .ok (config, api) =>
    match Generation.run api config s.out t with
    | (t, .error e) => ⟨t, [], .error ("failed to prepare " ++ s.out ++ ": " ++ tellWrite e)⟩
    | (t, .ok report) =>
      let isGood := report.failed == 0
      let generated : Run := ⟨t, Summary.generation isColored s.verbose report, .ok isGood⟩
      if s.validates then
        andThen generated isGood fun t => validateRun isColored t s.out config.table s.verbose
      else generated

def run (isColored : Bool) (t : Files.Tree) : Command → Run
  | .generate s => generateRun isColored t s
  | .validate s =>
    match typeTable t s.typeTable with
    | .ok table => validateRun isColored t s.dir table s.verbose
    | .error e => ⟨t, [], .error e⟩

end Command
end LuaStubs
