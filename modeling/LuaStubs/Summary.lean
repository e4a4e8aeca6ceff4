import LuaStubs.Generation
import LuaStubs.Validator.Files

/-! Reports as lines of text for a terminal. -/
namespace LuaStubs.Summary

inductive Ink where
  | red
  | green
  | yellow
  | dim
  | boldRed
  deriving DecidableEq, Repr

def Ink.code : Ink → Text
  | .red => "\x1b[31m"
  | .green => "\x1b[32m"
  | .yellow => "\x1b[33m"
  | .dim => "\x1b[2m"
  | .boldRed => "\x1b[1;31m"

def reset : Text := "\x1b[0m"

/-- Take up the ink again after every reset inside a text. `skip` characters are left of one. -/
def renew (code : Text) : (skip : Nat) → Text → Text
  | _, [] => []
  | 0, c :: rest =>
    if Text.startsWith (c :: rest) reset then c :: renew code (reset.length - 1) rest
    else c :: renew code 0 rest
  | 1, c :: rest => c :: (code ++ renew code 0 rest)
  | skip + 2, c :: rest => c :: renew code (skip + 1) rest

def paint (isColored : Bool) (ink : Ink) (t : Text) : Text :=
  if isColored then ink.code ++ renew ink.code 0 t ++ reset else t

/-- How many failed, which stands out unless none did. -/
def failures (isColored : Bool) (n : Nat) : Text :=
  if n = 0 then Text.ofNat n else paint isColored .boldRed (Text.ofNat n)

def findingLine (isColored : Bool) (f : Finding) : Text :=
  let tag := match f.severity with
    | .warning => paint isColored .yellow "warning"
    | .error => paint isColored .red "error"
  "  " ++ tag ++ ": " ++ f.subject ++ ": " ++ f.message ++ " (`" ++ f.text ++ "`)"

/-- The line on what became of a module; success is told only on request. -/
def statusLines (isColored verbose : Bool) (o : Generation.Outcome) : List Text :=
  match o.status with
  | .failed error => [paint isColored .red "✗" ++ " " ++ o.name ++ ": " ++ error.message]
  | .written =>
    if verbose then [paint isColored .green "✓" ++ " " ++ o.name ++ " → " ++ o.path] else []
  | .unchanged =>
    if verbose then [paint isColored .dim "·" ++ " " ++ o.name ++ " (unchanged)"] else []

def outcomeLines (isColored verbose : Bool) (o : Generation.Outcome) : List Text :=
  statusLines isColored verbose o ++
    if verbose then o.findings.map (findingLine isColored) else []

def generationTotal (isColored : Bool) (r : Generation.Report) : Text :=
  "modules: " ++ paint isColored .green (Text.ofNat r.written) ++ " written, " ++
    Text.ofNat r.unchanged ++ " unchanged, " ++ failures isColored r.failed ++ " failed"

def generation (isColored verbose : Bool) (r : Generation.Report) : List Text :=
  r.outcomes.flatMap (outcomeLines isColored verbose) ++ [generationTotal isColored r]

def concernTitle : Concern → Text
  | .program => "Syntax"
  | .tag => "Annotations"
  | .fragment => "DescriptiveType"
  | .union => "UnionSyntax"

def remarkLines (isColored : Bool) (p : Files.Path) (r : Remark) : List Text :=
  ("  " ++ p ++ ":" ++ Text.ofNat r.line ++ ": " ++ concernTitle r.concern ++ ": " ++ r.message) ::
    if r.text.isEmpty then [] else ["      " ++ paint isColored .dim r.text]

/-- The lines on a file; a file that passed has none. -/
def fileLines (isColored verbose : Bool) (f : Validator.FileReport) : List Text :=
  if f.passed then []
  else (paint isColored .red "✗" ++ " " ++ f.path) ::
    if verbose then f.remarks.flatMap (remarkLines isColored f.path) else []

def validationTotal (isColored : Bool) (r : Validator.Report) : Text :=
  "files: " ++ paint isColored .green (Text.ofNat r.passed) ++ " passed, " ++
    failures isColored r.failed ++ " failed"

def validation (isColored verbose : Bool) (r : Validator.Report) : List Text :=
  r.files.flatMap (fileLines isColored verbose) ++ [validationTotal isColored r]

end LuaStubs.Summary
