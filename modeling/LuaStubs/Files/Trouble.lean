import LuaStubs.Text.Basic

/-! Why a file cannot be read or written. -/
namespace LuaStubs.Files

inductive Trouble where
  | notFound
  | busy
  | alreadyExists
  | notDirectory
  | isDirectory
  | nameTooLong
  /-- A path with a zero character names nothing. -/
  | zeroInName
  /-- The bytes are no UTF-8. -/
  | notText
  deriving DecidableEq, Repr

def Trouble.message : Trouble → Text
  | .notFound => "No such file or directory (os error 2)"
  | .busy => "Device or resource busy (os error 16)"
  | .alreadyExists => "File exists (os error 17)"
  | .notDirectory => "Not a directory (os error 20)"
  | .isDirectory => "Is a directory (os error 21)"
  | .nameTooLong => "File name too long (os error 36)"
  | .zeroInName => "file name contained an unexpected NUL byte"
  | .notText => "stream did not contain valid UTF-8"

end LuaStubs.Files
