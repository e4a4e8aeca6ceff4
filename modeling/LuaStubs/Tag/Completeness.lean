import LuaStubs.Tag
import LuaStubs.Lua.Name
import LuaStubs.Remark
import LuaStubs.Text.Word

/-! Whether tags are complete: the header is there, every tag has its parts, and the
parameters of a function are those annotated above it. -/
namespace LuaStubs.Tag

/-- A function declared on one line, without a body. -/
structure Declaration where
  name : Text
  params : List Text
  deriving DecidableEq, Repr

namespace Declaration

def isNamePart (c : Char) : Bool := Text.isWordChar c || c == '.' || c == ':'

/-- Names between commas; empty ones do not count. -/
def paramNames (t : Text) : List Text :=
  ((Text.splitAt (· == ',') t).map Text.trim).filter (!·.isEmpty)

/-- The end of a declaration after its parameters. -/
def isEnd (t : Text) : Bool :=
  match Text.after "end" (Text.trimStart t) with
  | some rest => rest.all Text.isBlank
  | none => false

def withParams? (name : Text) : Text → Option Declaration
  | '(' :: rest =>
    match rest.dropWhile (· != ')') with
    | _ :: after => if isEnd after then some ⟨name, paramNames (rest.takeWhile (· != ')'))⟩ else none
    | [] => none
  | _ => none

def read? (line : Text) : Option Declaration :=
  match Text.after "function" line with
  | some (space :: rest) =>
    let named := Text.trimStart rest
    if Text.isBlank space && named.head?.any Lua.isNameHead then
      withParams? (named.takeWhile isNamePart) (Text.trimStart (named.dropWhile isNamePart))
    else none
  | _ => none

end Declaration

def paramNames (block : List Text) : List Text :=
  block.filterMap fun line => (param.after? line).bind fun rest => (Text.words rest).head?

def mismatch (d : Declaration) (annotated : List Text) : Text :=
  "`" ++ d.name ++ "` declares " ++ Text.ofNat d.params.length ++
    " parameter(s) but is annotated with " ++ Text.ofNat annotated.length ++
    " `@param` line(s) (" ++ Text.join ", " annotated ++ ")"

def incomplete? : Tag → Text → Option Text
  | .param, rest =>
    if (Text.words rest).length < 2 then some "`@param` without name and type" else none
  | .returned, rest =>
    if (Text.trim (undescribed rest)).isEmpty then some "`@return` without type" else none
  | .overload, rest =>
    if Text.startsWith (Text.trimStart rest) "fun(" then none
    else some "`@overload` is not a `fun(...)` type"

/-- What is wrong with a line under the comment lines `block`. -/
def wrong? (block : List Text) (line : Text) : Option Text :=
  match read? line with
  | some (a, rest) => incomplete? a rest
  | none =>
    match Declaration.read? line with
    | some d =>
      let annotated := paramNames block
      if d.params = annotated then none else some (mismatch d annotated)
    | none => none

/-- Remarks on the lines from number `n` on; `above` are the comment lines right above them, the
nearest first. -/
def lineRemarks (n : Nat) (above : List Text) : List Text → List Remark
  | [] => []
  | line :: rest =>
    ((wrong? above.reverse line).map fun message => ⟨n, .tag, message, line⟩).toList ++
      lineRemarks (n + 1) (if isComment line then line :: above else []) rest

def headerRemarks (lines : List Text) : List Remark :=
  if lines.any fun line => Text.trimEnd line = header then []
  else [⟨1, .tag, "missing `" ++ header ++ "` header", []⟩]

def remarks (lines : List Text) : List Remark := headerRemarks lines ++ lineRemarks 1 [] lines

end LuaStubs.Tag
