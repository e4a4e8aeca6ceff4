import LuaStubs.Files.Pattern
import LuaStubs.Files.Tree
import LuaStubs.Order

/-! The paths in a tree that a pattern matches. -/
namespace LuaStubs.Files

structure Found where
  path : Path
  place : Place
  isDirectory : Bool
  deriving DecidableEq, Repr

namespace Found

def start (isAbsolute : Bool) : Found :=
  if isAbsolute then ⟨Tree.rootName, [Tree.rootName], true⟩ else ⟨".", [], true⟩

/-- A path below something found. The working directory adds nothing to it. -/
def below (f : Found) (name : Text) : Path :=
  if Path.components f.path = [.here] then name else Path.join f.path name

end Found

namespace Tree

def find? (t : Tree) (p : Path) : Option Found :=
  match t.locate p with
  | .ok place => some ⟨p, place, t.isDirectory place⟩
  | .error _ => none

/-- What is right below a directory, in order of the names. -/
def foundBelow (t : Tree) (f : Found) : List (Text × Found) :=
  if f.isDirectory then
    (sortBy Text.le (t.children f.place)).map fun name =>
      (name, ⟨f.below name, f.place ++ [name], t.isDirectory (f.place ++ [name])⟩)
  else []

/-- All that is below a directory. No place is deeper than there are entries, which bounds `fuel`. -/
def allBelow (t : Tree) : (fuel : Nat) → Found → List (Text × Found)
  | 0, _ => []
  | fuel + 1, f => (t.foundBelow f).flatMap fun child => child :: t.allBelow fuel child.2

/-- The points that stand for a directory and for the one above it match only a pattern that starts
with a point. -/
def pointsBelow (t : Tree) (f : Found) (p : Pattern) : List Found :=
  if f.isDirectory && p.head? == some (.char '.') then
    ([[ '.' ], [ '.', '.' ]].filter (Pattern.isMatch p)).filterMap fun name =>
      t.find? (Path.join f.path name)
  else []

def literalBelow (t : Tree) (f : Found) (name : Text) : Option Found :=
  if isSpecial name && !f.isDirectory then none else t.find? (f.below name)

/-- Follow patterns, one for each component, from something found. Patterns of any directories do not
follow each other. -/
def follow (t : Tree) : List Pattern → Found → List Found
  | [], f => [f]
  | p :: rest, f =>
    if p.isRecursive then
      (t.allBelow (t.entries.length + 1) f).flatMap fun (name, child) =>
        match rest with
        | [] => if child.isDirectory then [child] else []
        | next :: rest => if Pattern.isMatch next name then follow t rest child else []
    else match p.literal? with
      | some name => (t.literalBelow f name).toList.flatMap (follow t rest)
      | none =>
        ((t.foundBelow f).flatMap fun (name, child) =>
          if Pattern.isMatch p name then follow t rest child else []) ++
        (t.pointsBelow f p).flatMap (follow t rest)

/-- One of several patterns of any directories in a row is enough. -/
def mergeRecursive : List Pattern → List Pattern
  | [] => []
  | p :: rest =>
    match mergeRecursive rest with
    | next :: more => if p.isRecursive && next.isRecursive then next :: more else p :: next :: more
    | [] => [p]

/-- The texts between slashes, after the one that makes a path absolute and without an empty one at
the end. -/
def patternTexts (t : Text) : List Text :=
  let pieces := Path.pieces (if Path.isAbsolute t then t.drop 1 else t)
  if pieces.getLast? = some [] then pieces.dropLast else pieces

/-- Every path that a pattern matches. A slash at its end asks for directories. -/
def search (t : Tree) (pattern : Text) : Except PatternError (List Path) := do
  let _ ← Pattern.parse pattern
  let patterns ← (patternTexts pattern).mapM Pattern.parse
  let found := t.follow (mergeRecursive patterns) (.start (Path.isAbsolute pattern))
  let wanted := if Text.endsWith pattern "/" then found.filter Found.isDirectory else found
  return wanted.map Found.path

end Tree

end LuaStubs.Files
