import LuaStubs.Text.Basic

/-! Paths as they are written, and the components that they name. -/
namespace LuaStubs.Files

abbrev Path := Text

inductive Component where
  | root
  /-- A point at the start of a path. -/
  | here
  | up
  | name (text : Text)
  deriving DecidableEq, Repr

namespace Path

def pieces (p : Path) : List Text := Text.splitAt (· == '/') p

/-- Double slashes and points inside a path name nothing. -/
def isVoid (piece : Text) : Bool := piece.isEmpty || piece == "."

def component (piece : Text) : Component := if piece = ".." then .up else .name piece

def firstComponent (piece : Text) (isOnly : Bool) : List Component :=
  if piece.isEmpty then (if isOnly then [] else [.root])
  else if piece = "." then [.here]
  else [component piece]

def components (p : Path) : List Component :=
  match pieces p with
  | [] => []
  | first :: rest =>
    firstComponent first rest.isEmpty ++ (rest.filter (!isVoid ·)).map component

def fileName? (p : Path) : Option Text :=
  match (components p).getLast? with
  | some (.name text) => some text
  | _ => none

/-- Pieces, the last first, without those at the end that name nothing. The first piece stays. -/
def dropVoid : List Text → List Text
  | [] => []
  | [first] => [first]
  | piece :: rest => if isVoid piece then dropVoid rest else piece :: rest

def parent? (p : Path) : Option Path :=
  match dropVoid (pieces p).reverse with
  | [] | [[]] => none
  | [_] => some []
  | _ :: rest =>
    match dropVoid rest with
    | [[]] => some "/"
    | kept => some (Text.join "/" kept.reverse)

def isAbsolute (p : Path) : Bool := Text.startsWith p "/"

/-- The path `p` seen from the directory `dir`. -/
def join (dir p : Path) : Path :=
  if isAbsolute p || dir.isEmpty then p
  else if Text.endsWith dir "/" then dir ++ p
  else dir ++ "/" ++ p

end Path

namespace Component

def rank : Component → Nat
  | .root => 0
  | .here => 1
  | .up => 2
  | .name _ => 3

def le (a b : Component) : Bool :=
  match a, b with
  | .name a, .name b => Text.le a b
  | a, b => a.rank ≤ b.rank

end Component

/-- Paths are ordered component by component. -/
def leComponents : List Component → List Component → Bool
  | [], _ => true
  | _ :: _, [] => false
  | a :: as, b :: bs => if a = b then leComponents as bs else a.le b

def Path.le (a b : Path) : Bool := leComponents (Path.components a) (Path.components b)

end LuaStubs.Files
