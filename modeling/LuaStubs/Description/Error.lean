import LuaStubs.Files.Trouble
import LuaStubs.Json.Shape

/-! Why an API description is refused, and reading a text or a value with such errors. -/
namespace LuaStubs

inductive LoadError where
  /-- The file cannot be read. -/
  | unreadable (path : Text) (cause : Files.Trouble)
  /-- The text is no JSON. -/
  | illFormed (origin message : Text)
  /-- The value is no description. -/
  | malformed (path message : Text)
  deriving DecidableEq, Repr

def LoadError.message : LoadError → Text
  | .unreadable path cause => "failed to read " ++ path ++ ": " ++ cause.message
  | .illFormed origin message => "invalid description (" ++ origin ++ "): " ++ message
  | .malformed path message => "malformed model at " ++ path ++ ": " ++ message

namespace Json

def Failure.inText (origin t : Text) (f : Failure) : LoadError :=
  match f.problem with
  | .flaw spot => .illFormed origin ("at JSON path " ++ renderPath f.path ++ " → " ++
      spot.flaw.message ++ atPosition t spot.offset)
  | .mismatch m offset => .malformed (origin ++ ":" ++ renderPath f.path)
      (m.message ++ match offset with
        | some offset => atPosition t offset
        | none => [])

/-- The failure of reading a value that comes from `origin`: it has no place in a text. -/
def Failure.inValue (origin : Text) (f : Failure) : LoadError :=
  .malformed (origin ++ ":" ++ renderPath f.path) <| match f.problem with
    | .flaw spot => spot.flaw.message
    | .mismatch m _ => m.message

/-- Read the first value of a text; what follows it is ignored. -/
def Reader.ofText (reader : Reader α) (origin t : Text) : Except LoadError α :=
  (reader ⟨maxRoom, false⟩ (document t).1).mapError (·.inText origin t)

def Reader.ofValue (reader : Reader α) (origin : Text) (v : Value) : Except LoadError α :=
  (reader ⟨maxRoom, true⟩ v.toTree).mapError (·.inValue origin)

end Json
end LuaStubs
