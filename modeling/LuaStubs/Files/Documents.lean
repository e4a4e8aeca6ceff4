import LuaStubs.Api.Load
import LuaStubs.Files.Tree
import LuaStubs.TypeTable.Reader

/-! Descriptions and type tables that are read from files. -/
namespace LuaStubs

namespace Api

def document (t : Files.Tree) (p : Files.Path) : Except LoadError Document :=
  match t.readText p with
  | .ok source => .ok ⟨p, source⟩
  | .error cause => .error (.unreadable p cause)

def loadFiles (t : Files.Tree) (paths : List Files.Path) (pointer : Option Text) :
    Except LoadError Api :=
  loadAll pointer ⟨[]⟩ (paths.map (document t))

end Api

namespace TypeTable

inductive FileError where
  | unreadable (path : Files.Path) (cause : Files.Trouble)
  | invalid (path : Files.Path) (message : Text)
  deriving DecidableEq, Repr

def FileError.message : FileError → Text
  | .unreadable path cause => "failed to read type table " ++ path ++ ": " ++ cause.message
  | .invalid path message => "invalid type table " ++ path ++ ": " ++ message

def loadFile (t : Files.Tree) (p : Files.Path) : Except FileError TypeTable :=
  match t.readText p with
  | .ok source => (ofJson source).mapError (.invalid p)
  | .error cause => .error (.unreadable p cause)

end TypeTable

end LuaStubs
