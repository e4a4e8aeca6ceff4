import LuaStubs.Files.Search
import LuaStubs.Validator

/-! Checking files: a report with one entry for each, in the order of their paths. -/
namespace LuaStubs.Validator

structure FileReport where
  path : Files.Path
  remarks : List Remark
  deriving DecidableEq, Repr

def FileReport.passed (f : FileReport) : Bool := f.remarks.isEmpty

structure Report where
  files : List FileReport
  deriving DecidableEq, Repr

namespace Report

def passed (r : Report) : Nat := (r.files.filter FileReport.passed).length
def failed (r : Report) : Nat := r.files.length - r.passed
def isSuccess (r : Report) : Bool := r.failed == 0

end Report

def unreadable (cause : Files.Trouble) : Remark :=
  ⟨0, .program, "cannot read file: " ++ cause.message, []⟩

/-- A file that cannot be read is a remark like any other. -/
def fileRemarks (v : Validator) (t : Files.Tree) (p : Files.Path) : List Remark :=
  match t.readText p with
  | .ok source => v.remarks ((Files.Path.fileName? p).getD []) source
  | .error cause => [unreadable cause]

def checkFiles (v : Validator) (t : Files.Tree) (paths : List Files.Path) : Report :=
  ⟨sortBy (fun a b => Files.Path.le a.path b.path)
    (paths.map fun p => ⟨p, v.fileRemarks t p⟩)⟩

/-- Every path below a directory, at any depth, whose name ends in `.lua`. -/
def stubPattern (dir : Files.Path) : Text := Files.Pattern.escape dir ++ "/**/*.lua"

def checkDirectory (v : Validator) (t : Files.Tree) (dir : Files.Path) :
    Except Files.PatternError Report :=
  (t.search (stubPattern dir)).map (v.checkFiles t)

end LuaStubs.Validator
