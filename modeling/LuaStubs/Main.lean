import LuaStubs.Command.Run

/-! The program at the command line. It reads the files that a command names, runs the command on
them, writes back what changed, and tells the rest on the standard error. -/
namespace LuaStubs.Program

open Files (Tree Place)

/-- A place as the operating system names it. -/
def nameOf : Place → String
  | [] => "."
  | name :: rest =>
    if name = Tree.rootName then "/" ++ String.ofList (Text.join "/" rest)
    else String.ofList (Text.join "/" (name :: rest))

def nodeAt? (place : Place) : IO (Option Files.Node) := do
  let path := (← IO.currentDir) / nameOf place
  if ← path.isDir then return some .directory
  else if ← path.pathExists then return some (.file (← IO.FS.readBinFile path).toList)
  else return none

def namesBelow (place : Place) : IO (List Text) := do
  let path := (← IO.currentDir) / nameOf place
  return (← path.readDir).toList.map (·.fileName.toList)

/-- Add what is at a place to a tree, and all below it if `isDeep`. -/
partial def gather (isDeep : Bool) (place : Place) (t : Tree) : IO Tree := do
  match ← nodeAt? place with
  | none => return t
  | some node =>
    let t := if place.isEmpty then t else t.put place node
    if isDeep && node == .directory then
      (← namesBelow place).foldlM (fun t name => gather true (place ++ [name]) t) t
    else return t

def gatherPath (isDeep : Bool) (place : Place) : List Text → Tree → IO Tree
  | [], t => gather isDeep place t
  | step :: rest, t => do
    let next := if step = "." then place
      else if step = ".." then (Tree.above? place).getD place
      else place ++ [step]
    gatherPath isDeep next rest (← gather false place t)

def snapshot (command : Command) : IO Tree :=
  command.sources.foldlM (fun t (path, isDeep) => gatherPath isDeep [] (Tree.steps path) t) .empty

def draftOf (place : Place) : Place :=
  place.dropLast ++ [".tmp-" ++ place.getLast?.getD []]

/-- Write a file next to its place, then put it there. -/
def writeFile (place : Place) (content : Text.Bytes) : IO Unit := do
  IO.FS.writeBinFile (nameOf (draftOf place)) (ByteArray.mk content.toArray)
  IO.FS.rename (nameOf (draftOf place)) (nameOf place)

def writeBack (before after : Tree) : IO Unit :=
  after.entries.forM fun (place, node) => do
    unless before.node? place == some node do
      match node with
      | .directory => IO.FS.createDirAll ((← IO.currentDir) / nameOf place)
      | .file content => writeFile place content

def tell (lines : List Text) : IO Unit :=
  lines.forM fun line => IO.eprintln (String.ofList line)

def isColored : IO Bool := do
  return (← (← IO.getStdout).isTty) && (← IO.getEnv "NO_COLOR").isNone

def perform (command : Command) : IO UInt32 := do
  let before ← snapshot command
  let run := command.run (← isColored) before
  writeBack before run.tree
  tell run.output
  match run.result with
  | .ok isGood => return if isGood then 0 else 1
  | .error e =>
    tell ["error: " ++ e]
    return 1

end LuaStubs.Program

def main (args : List String) : IO UInt32 := do
  match LuaStubs.Command.parse (args.map String.toList) with
  | .ok command => LuaStubs.Program.perform command
  | .error usage =>
    LuaStubs.Program.tell [usage.message]
    return if usage = .help then 0 else 2
