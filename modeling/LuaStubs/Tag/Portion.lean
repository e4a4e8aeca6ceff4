import LuaStubs.Tag
import LuaStubs.Phrase.Alternatives
import LuaStubs.Text.Alphanumeric

/-! The part of a tag that is its type. -/
namespace LuaStubs.Tag

/-- The pieces between white space outside brackets, where `depth` brackets are open. -/
def cutBlank : (depth : Int) → Text → List Text
  | _, [] => [[]]
  | depth, c :: rest =>
    let depth' := depth + Phrase.nesting c
    if Text.isBlank c && depth' = 0 then [] :: cutBlank depth' rest
    else Phrase.consFirst c (cutBlank depth' rest)

/-- Words outside brackets. What is in brackets belongs to the word around it. -/
def outerWords (t : Text) : List Text := (cutBlank 0 t).filter (!·.isEmpty)

/-- A type without the name behind it. A union in words is left as it is, and so is a text that ends
in one of the names of several words. -/
def unnamed (names : List Text) (t : Text) : Text :=
  match (outerWords t).reverse with
  | last :: previous :: _ =>
    if !last.all Text.isNameChar || previous = "or" || last = "or" || names.any (Text.endsWith t)
    then t
    else Text.trimEnd (t.take (t.length - last.length))
  | _ => t

/-- The type that follows a marker: after the name of a parameter, before the name of a value, all of
an overload. -/
def portion? (names : List Text) : Tag → Text → Option Text
  | .param, rest =>
    match (Text.trim (undescribed rest)).dropWhile (!Text.isBlank ·) with
    | [] => none
    | type => some (Text.trim type)
  | .returned, rest => some (unnamed names (Text.trim (undescribed rest)))
  | .overload, rest => some (Text.trim rest)

structure TypedLine where
  line : Nat
  text : Text
  portion : Text
  deriving DecidableEq, Repr

def type? (names : List Text) (line : Text) : Option Text :=
  match read? line with
  | some (a, rest) => (portion? names a rest).filter (!·.isEmpty)
  | none => none

def typedFrom (names : List Text) (n : Nat) : List Text → List TypedLine
  | [] => []
  | line :: rest =>
    ((type? names line).map fun portion => ⟨n, line, portion⟩).toList ++
      typedFrom names (n + 1) rest

def typedLines (names lines : List Text) : List TypedLine := typedFrom names 1 lines

end LuaStubs.Tag
