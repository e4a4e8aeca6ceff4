import LuaStubs.Command.Arguments
import LuaStubs.Files.Path

/-! The commands of the program and how they are written. -/
namespace LuaStubs

structure GenerateSettings where
  inputs : List Text
  pointer : Option Text
  typeTable : Option Files.Path
  verbose : Bool
  out : Files.Path
  space : Text
  validates : Bool
  deriving DecidableEq, Repr

structure ValidateSettings where
  dir : Files.Path
  typeTable : Option Files.Path
  verbose : Bool
  deriving DecidableEq, Repr

inductive Command where
  | generate (settings : GenerateSettings)
  | validate (settings : ValidateSettings)
  deriving DecidableEq, Repr

namespace Command

def verbose : Command → Bool
  | .generate settings => settings.verbose
  | .validate settings => settings.verbose

def pointerOption : Opt := ⟨"json-pointer", none, .one, false⟩
def tableOption : Opt := ⟨"type-table", none, .one, true⟩
def verboseOption : Opt := ⟨"verbose", some 'v', .switch, false⟩
def inputOption : Opt := ⟨"input", some 'i', .several, false⟩
def outOption : Opt := ⟨"out", some 'o', .one, true⟩
def spaceOption : Opt := ⟨"namespace", none, .one, false⟩
def unvalidatedOption : Opt := ⟨"no-validate", none, .switch, false⟩
def dirOption : Opt := ⟨"dir", some 'd', .one, true⟩

def generateForm : Form where
  options := [pointerOption, inputOption, tableOption, verboseOption, outOption, spaceOption,
    unvalidatedOption]
  required := [inputOption.long]

def validateForm : Form where
  options := [dirOption, tableOption, verboseOption]
  required := [dirOption.long]

def ofGenerate (v : Values) : Command := .generate {
  inputs := v.get inputOption.long
  pointer := v.get? pointerOption.long
  typeTable := v.get? tableOption.long
  verbose := v.has verboseOption.long
  out := (v.get? outOption.long).getD "library"
  space := (v.get? spaceOption.long).getD "love"
  validates := !v.has unvalidatedOption.long }

def ofValidate (v : Values) : Command := .validate {
  dir := (v.get? dirOption.long).getD []
  typeTable := v.get? tableOption.long
  verbose := v.has verboseOption.long }

def names : List Text := ["generate", "validate", "help"]

def isPattern (t : Text) : Bool := t.any fun c => c == '*' || c == '?' || c == '['

/-- The directory that a pattern is searched in: the components before its first wildcard. -/
def patternBase (t : Text) : Files.Path :=
  match Text.join "/" ((Files.Path.pieces t).takeWhile (!isPattern ·)) with
  | [] => if Files.Path.isAbsolute t then "/" else "."
  | base => base

/-- The paths that a command reads, each with whether all below it is read too. -/
def sources : Command → List (Files.Path × Bool)
  | .generate s =>
    s.typeTable.toList.map (·, false) ++
      s.inputs.map (fun input => if isPattern input then (patternBase input, true) else (input, false)) ++
      [(s.out, true)]
  | .validate s => s.typeTable.toList.map (·, false) ++ [(s.dir, true)]

/-- What is asked to be explained. Only the top has commands below it. -/
def helpOn : List Text → Usage
  | [] => .help
  | name :: rest => if names.contains name && rest.isEmpty then .help else .unknownCommand

def misplaced (text : Text) : Usage :=
  match text with
  | '-' :: '-' :: name =>
    if name = "help" then .help
    else if Text.startsWith name "help=" then .tooManyValues
    else .unknownArgument
  | '-' :: 'h' :: _ => .help
  | '-' :: _ :: _ => .unknownArgument
  | _ => .unknownCommand

/-- The first argument is the command, the rest are its own. -/
def parse : List Text → Except Usage Command
  | [] => .error .helpForMissing
  | name :: rest =>
    if name = "generate" then (generateForm.read rest).map ofGenerate
    else if name = "validate" then (validateForm.read rest).map ofValidate
    else if name = "help" then .error (helpOn rest)
    else if name = "--" then
      match rest with
      | [] => .error .helpForMissing
      | text :: _ => .error (if names.contains text then .unknownArgument else .unknownCommand)
    else .error (misplaced name)

end Command
end LuaStubs
