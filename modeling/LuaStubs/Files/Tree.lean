import LuaStubs.Files.Path
import LuaStubs.Files.Trouble
import LuaStubs.Text.Utf8

/-! The files below a working directory. -/
namespace LuaStubs.Files

/-- A place in the tree: the names that lead to it from the working directory. The root of all files
has the name `/` there, which no path can give to anything else. -/
abbrev Place := List Text

inductive Node where
  | file (content : Text.Bytes)
  | directory
  deriving DecidableEq, Repr

structure Tree where
  entries : List (Place × Node)
  deriving DecidableEq, Repr

namespace Tree

def empty : Tree := ⟨[]⟩

/-- What is at a place. The working directory itself is always there. -/
def node? (t : Tree) (place : Place) : Option Node :=
  if place.isEmpty then some .directory else t.entries.lookup place

def isDirectory (t : Tree) (place : Place) : Bool := t.node? place == some .directory

def put (t : Tree) (place : Place) (node : Node) : Tree :=
  ⟨t.entries.filter (·.1 != place) ++ [(place, node)]⟩

def erase (t : Tree) (place : Place) : Tree :=
  ⟨t.entries.filter fun entry => !place.isPrefixOf entry.1⟩

def rootName : Text := "/"

/-- The names right below a place. The root is below no directory. -/
def children (t : Tree) (place : Place) : List Text :=
  t.entries.filterMap fun entry =>
    match entry.1.getLast? with
    | some name => if entry.1.dropLast = place && name != rootName then some name else none
    | none => none

/-- The names of a path that are followed one by one. -/
def steps (p : Path) : List Text :=
  (if Path.isAbsolute p then [rootName] else []) ++ (Path.pieces p).filter (!·.isEmpty)

/-- The place above a place. The root is above itself; what is above the working directory is not
part of the tree. -/
def above? (place : Place) : Option Place :=
  if place.isEmpty then none else if place = [rootName] then some place else some place.dropLast

/-- Follow names from a place. Every name but the last has to be a directory's. -/
def walk (t : Tree) : Place → List Text → Except Trouble Place
  | place, [] => .ok place
  | place, step :: rest =>
    if !t.isDirectory place then .error .notDirectory
    else if step = "." then walk t place rest
    else if step = ".." then
      match above? place with
      | some place => walk t place rest
      | none => .error .notFound
    else if 255 < Text.byteSize step then .error .nameTooLong
    else if (t.node? (place ++ [step])).isNone then .error .notFound
    else walk t (place ++ [step]) rest

def unusable? (p : Path) : Option Trouble :=
  if p.contains '\x00' then some .zeroInName
  else if p.isEmpty then some .notFound
  else none

/-- The place of what a path names. A path that ends in a slash names a directory. -/
def locate (t : Tree) (p : Path) : Except Trouble Place :=
  match unusable? p with
  | some trouble => .error trouble
  | none => do
    let place ← t.walk [] (steps p)
    if Text.endsWith p "/" && !t.isDirectory place then .error .notDirectory else .ok place

def hasDirectory (t : Tree) (p : Path) : Bool :=
  match t.locate p with
  | .ok place => t.isDirectory place
  | .error _ => false

def read (t : Tree) (p : Path) : Except Trouble Text.Bytes := do
  match t.node? (← t.locate p) with
  | some (.file content) => .ok content
  | some .directory => .error .isDirectory
  | none => .error .notFound

def readText (t : Tree) (p : Path) : Except Trouble Text := do
  match Text.ofUtf8? (← t.read p) with
  | some text => .ok text
  | none => .error .notText

/-- The directory that a path leads to, and the last name on it. -/
def target (t : Tree) (p : Path) : Except Trouble (Place × Text) :=
  match unusable? p with
  | some trouble => .error trouble
  | none => do
    let place ← t.walk [] (steps p).dropLast
    if t.isDirectory place then .ok (place, (steps p).getLast?.getD []) else .error .notDirectory

/-- Names that a directory has without being made. -/
def isSpecial (name : Text) : Bool := name = "." || name = ".." || name = rootName

def makeDirectory (t : Tree) (p : Path) : Except Trouble Tree := do
  let (place, name) ← t.target p
  if isSpecial name then .error .alreadyExists
  else if 255 < Text.byteSize name then .error .nameTooLong
  else if (t.node? (place ++ [name])).isSome then .error .alreadyExists
  else .ok (t.put (place ++ [name]) .directory)

def ensureDirectory (t : Tree) (p : Path) : Except Trouble Tree :=
  match t.makeDirectory p with
  | .ok t => .ok t
  | .error trouble => if t.hasDirectory p then .ok t else .error trouble

/-- Make a directory after the ones above it. What is made stays, also if the rest fails. The parent
of a path is shorter, so `fuel` need not exceed its length. -/
def makeAllWith : (fuel : Nat) → Tree → Path → Tree × Option Trouble
  | 0, t, _ => (t, none)
  | fuel + 1, t, p =>
    if p.isEmpty then (t, none)
    else match t.ensureDirectory p with
      | .ok t => (t, none)
      | .error .notFound =>
        match Path.parent? p with
        | none => (t, some .notFound)
        | some parent =>
          match makeAllWith fuel t parent with
          | (t, some trouble) => (t, some trouble)
          | (t, none) =>
            match t.ensureDirectory p with
            | .ok t => (t, none)
            | .error trouble => (t, some trouble)
      | .error trouble => (t, some trouble)

def makeAll (t : Tree) (p : Path) : Tree × Option Trouble := makeAllWith (p.length + 1) t p

/-- Put a finished file where a path leads, in place of the file that is there. -/
def replace (t : Tree) (p : Path) (content : Text.Bytes) : Except Trouble Tree := do
  let (place, name) ← t.target p
  if isSpecial name then .error .busy
  else if 255 < Text.byteSize name then .error .nameTooLong
  else if Text.endsWith p "/" then .error .notDirectory
  else if t.isDirectory (place ++ [name]) then .error .isDirectory
  else .ok (t.put (place ++ [name]) (.file content))

end Tree

end LuaStubs.Files
