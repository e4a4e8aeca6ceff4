import LuaStubs.Text.Basic

/-! The table of type names: primitive names, other spellings of them, and names of several words.
A fragment is a name of several words cut off after some of its words. -/
namespace LuaStubs

structure TypeTable where
  primitives : List Text
  aliases : List (Text × Text)
  /-- Names of several words with the spelling they are written in, in declaration order. -/
  multiWord : List (Text × Text)
  /-- Whether a fragment with one completion stands for it. -/
  completeFragments : Bool
  deriving DecidableEq, Repr

inductive Classified where
  | primitive (spelling : Text)
  | fragment (completions : List Text)
  | unknown
  deriving DecidableEq, Repr

namespace TypeTable

def builtin : TypeTable where
  primitives := ["nil", "any", "boolean", "number", "integer", "string", "table", "function",
    "userdata", "lightuserdata", "thread", "cdata"].map String.toList
  aliases := [("bool", "boolean"), ("int", "integer"), ("value", "any"), ("mixed", "any"),
    ("Variant", "any")]
  multiWord := [("light userdata", "lightuserdata"), ("full userdata", "userdata")]
  completeFragments := true

def names (table : TypeTable) : List Text := table.multiWord.map Prod.fst

def spelling? (table : TypeTable) (name : Text) : Option Text := table.multiWord.lookup name

def completions (table : TypeTable) (phrase : Text) : List Text :=
  table.names.filter (Text.startsWith · (phrase ++ " "))

/-- A whole name wins over a primitive, a primitive over an alias, and all of them over a
fragment. -/
def classify (table : TypeTable) (phrase : Text) : Classified :=
  match table.spelling? phrase with
  | some spelling => .primitive spelling
  | none =>
    if table.primitives.contains phrase then .primitive phrase
    else match table.aliases.lookup phrase with
      | some target => .primitive target
      | none =>
        match table.completions phrase with
        | [] => .unknown
        | found => .fragment found

/-- The beginnings of a list, without the empty one and the list itself. -/
def properPrefixes : List α → List (List α)
  | [] | [_] => []
  | x :: rest => [x] :: (properPrefixes rest).map (x :: ·)

def cuts (name : Text) : List Text :=
  (properPrefixes (Text.splitAt (· == ' ') name)).map (Text.join " ")

/-- Keep a strictly increasing list so. -/
def insertKey (key : Text) : List Text → List Text
  | [] => [key]
  | k :: rest =>
    if key = k then k :: rest
    else if Text.le key k then key :: k :: rest
    else k :: insertKey key rest

/-- Every fragment, in order, with the names it begins, in declaration order. -/
def fragments (table : TypeTable) : List (Text × List Text) :=
  let keys := (table.names.flatMap cuts).foldr insertKey []
  keys.map fun key => (key, table.names.filter fun name => (cuts name).contains key)

end TypeTable
end LuaStubs
