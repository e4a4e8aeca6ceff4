import LuaStubs.Files.Write
import LuaStubs.Stub.Lines

/-! Generation: every module of an API becomes a stub file. A module that fails stops no other. -/
namespace LuaStubs.Generation

inductive Error where
  /-- The module has no text. -/
  | faulty (fault : Stub.Fault)
  | unwritable (cause : Files.WriteError)
  deriving DecidableEq, Repr

def Error.message : Error → Text
  | .faulty fault => fault.message
  | .unwritable cause => cause.message

inductive Status where
  | written
  /-- The file held the text already. -/
  | unchanged
  | failed (error : Error)
  deriving DecidableEq, Repr

structure Outcome where
  name : Text
  path : Files.Path
  status : Status
  findings : List Finding
  deriving DecidableEq, Repr

structure Report where
  outcomes : List Outcome
  deriving DecidableEq, Repr

namespace Report

def count (r : Report) (holds : Status → Bool) : Nat :=
  (r.outcomes.filter fun o => holds o.status).length

def written (r : Report) : Nat := r.count (· == .written)
def unchanged (r : Report) : Nat := r.count (· == .unchanged)

def failed (r : Report) : Nat := r.count fun
  | .failed _ => true
  | _ => false

def findings (r : Report) : List Finding := r.outcomes.flatMap Outcome.findings

end Report

def fileOf (out : Files.Path) (name : Text) : Files.Path := Files.Path.join out (name ++ ".lua")

def write (t : Files.Tree) (p : Files.Path) : Except Stub.Fault Text → Files.Tree × Status
  | .error fault => (t, .failed (.faulty fault))
  | .ok text =>
    match t.write p text with
    | .ok (t, true) => (t, .written)
    | .ok (t, false) => (t, .unchanged)
    | .error cause => (t, .failed (.unwritable cause))

def moduleStep (r : Resolver) (out : Files.Path) (t : Files.Tree) (m : Api.Module) :
    Files.Tree × Outcome :=
  let path := fileOf out m.name
  let (t, status) := write t path ((r.stubModule m).emit r.config.space)
  (t, ⟨m.name, path, status, r.moduleFindings m⟩)

def modules (r : Resolver) (out : Files.Path) (t : Files.Tree) :
    List Api.Module → Files.Tree × List Outcome
  | [] => (t, [])
  | m :: rest =>
    let (t, outcome) := moduleStep r out t m
    let (t, outcomes) := modules r out t rest
    (t, outcome :: outcomes)

/-- Generate into a directory, which is made first. -/
def run (api : Api) (config : Config) (out : Files.Path) (t : Files.Tree) :
    Files.Tree × Except Files.WriteError Report :=
  match t.makeAll out with
  | (t, some trouble) => (t, .error ⟨out, trouble, none⟩)
  | (t, none) =>
    let (t, outcomes) := modules (api.resolver config) out t api.modules
    (t, .ok ⟨outcomes⟩)

end LuaStubs.Generation
