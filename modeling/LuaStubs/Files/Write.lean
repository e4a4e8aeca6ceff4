import LuaStubs.Files.Tree
import LuaStubs.Json.Quoted

/-! Writing a file in one step: its text goes to a temporary file in the same directory, which then
takes its place. A file that holds the text already is left alone. -/
namespace LuaStubs.Files

structure WriteError where
  path : Path
  cause : Trouble
  /-- The temporary file, where that could not be made. -/
  temporary : Option Path
  deriving DecidableEq, Repr

def WriteError.message (e : WriteError) : Text :=
  "failed to write " ++ e.path ++ ": " ++ e.cause.message ++
    match e.temporary with
    | some path => " at path " ++ Json.shown path
    | none => []

/-- The name of a temporary file, with its random letters left out. -/
def temporaryName : Text := ".tmpXXXXXX"

namespace Tree

def directoryOf (p : Path) : Path :=
  match Path.parent? p with
  | some [] | none => "."
  | some dir => dir

def temporaryTrouble? (t : Tree) (dir : Path) : Option Trouble :=
  match t.target (Path.join dir temporaryName) with
  | .ok _ => none
  | .error trouble => some trouble

def holds (t : Tree) (p : Path) (content : Text.Bytes) : Bool :=
  match t.read p with
  | .ok old => old == content
  | .error _ => false

/-- The tree after writing, and whether anything was written. -/
def write (t : Tree) (p : Path) (text : Text) : Except WriteError (Tree × Bool) :=
  let content := Text.utf8 text
  if t.holds p content then .ok (t, false)
  else match t.temporaryTrouble? (directoryOf p) with
    | some trouble => .error ⟨p, trouble, some (Path.join (directoryOf p) temporaryName)⟩
    | none =>
      match t.replace p content with
      | .ok t => .ok (t, true)
      | .error trouble => .error ⟨p, trouble, none⟩

end Tree

end LuaStubs.Files
