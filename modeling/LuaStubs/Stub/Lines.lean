import LuaStubs.Stub.Fault

/-! The text of a stub file, line by line. -/
namespace LuaStubs.Stub

/-- Lines of free text: a carriage return of its own ends a line too, as it does in Lua. -/
def textLines (t : Text) : List Text := (Text.lines t).flatMap (Text.splitAt (· == '\r'))

def docLines (t : Text) : List Text := (textLines t).map (("---" : Text) ++ ·)

/-- A line with free text behind a mark; further lines of the text follow as comments. A text that
starts with an empty line keeps it. -/
def describedLines (head mark t : Text) : List Text :=
  match textLines t with
  | [] => [head]
  | first :: rest =>
    (if !first.isEmpty || t.contains '\n' || t.contains '\r' then head ++ mark ++ " " ++ first
      else head) :: rest.map (("---" : Text) ++ ·)

def quotedChar : Char → Text
  | '"' => "\\\""
  | '\\' => "\\\\"
  | '\n' => "\\n"
  | '\r' => "\\r"
  | c => [c]

def quoted (t : Text) : Text := "\"" ++ t.flatMap quotedChar ++ "\""

/-- The description of a parameter with its default behind it. -/
def Param.remark (p : Param) : Text :=
  Text.trimStart (p.description ++ match p.default with
    | some d => " (default: `" ++ d ++ "`)"
    | none => [])

def Param.lines (p : Param) : List Text :=
  describedLines ("---@param " ++ p.name ++ " " ++ p.rendered) " #" p.remark

def Return.lines (r : Return) : List Text :=
  let head := "---@return " ++ r.rendered ++ match r.name with
    | some name => " " ++ name
    | none => []
  describedLines head " #" r.description

def Param.inOverload (p : Param) : Text :=
  p.name ++ (if p.optional && p.name != Api.varargsName then "?: " else ": ") ++ p.base

/-- A signature as a function type. Methods take their object first. -/
def Signature.funType (s : Signature) (self : Option Text) : Text :=
  let params := self.toList.map (("self: " : Text) ++ ·) ++ s.params.map Param.inOverload
  let returns := match s.returns with
    | [] => "nil"
    | returns => Text.join ", " (returns.map Return.rendered)
  "fun(" ++ Text.join ", " params ++ "):" ++ returns

def Signature.overloadLine (self : Option Text) (s : Signature) : Text :=
  "---@overload " ++ s.funType self

def Signature.overloadLines (self : Option Text) (s : Signature) : List Text :=
  docLines s.description ++ [s.overloadLine self]

def emptyDoc : Text := "---"

/-- The description of a function, then that of its signature, with an empty comment between. -/
def Function.docLines (f : Function) : List Text :=
  Stub.docLines f.description ++
    (if !f.primary.description.isEmpty && !f.description.isEmpty then [emptyDoc] else []) ++
    Stub.docLines f.primary.description

def Function.declaration (f : Function) (owner : Text) (self : Option Text) : Text :=
  "function " ++ owner ++ (if self.isSome then ":" else ".") ++ f.name ++ "(" ++
    Text.join ", " (f.primary.params.map Param.name) ++ ") end"

/-- Comments, then the declaration. `self` is the type of the object of a method. -/
def Function.lines (owner : Text) (self : Option Text) (f : Function) : List Text :=
  f.docLines ++ f.primary.params.flatMap Param.lines ++ f.primary.returns.flatMap Return.lines ++
    f.alternates.flatMap (Signature.overloadLines self) ++ [f.declaration owner self]

def classLine (name : Text) : (supertypes : List Text) → Text
  | [] => "---@class " ++ name
  | supertypes => "---@class " ++ name ++ " : " ++ Text.join ", " supertypes

def regionStart (name : Text) : Text := "--#region " ++ name
def regionEnd (name : Text) : Text := "--#endregion " ++ name

def tableLine (name : Text) : Text := name ++ " = \x7b\x7d"

def localLine (name : Text) : Text := "local " ++ tableLine name

def Class.lines (c : Class) : List Text :=
  [[], regionStart c.name, []] ++ docLines c.description ++
    [classLine c.qualified c.supertypes, localLine c.name] ++
    c.methods.flatMap (fun f => [] :: f.lines c.name (some c.qualified)) ++
    [[], regionEnd c.name]

def constantLines (value description : Text) : List Text :=
  describedLines ("---| " ++ quoted value) " --" description

def aliasLine (name : Text) : Text := "---@alias " ++ name

def Enum.lines (e : Enum) : List Text :=
  [[], aliasLine e.qualified] ++ docLines e.description ++
    e.constants.flatMap fun (value, description) => constantLines value description

def metaLine : Text := "---@meta"

def Module.lines (m : Module) (space : Text) : List Text :=
  let table := space ++ "." ++ m.name
  [metaLine, classLine table []] ++ docLines m.description ++ [tableLine table] ++
    m.classes.flatMap Class.lines ++ m.enums.flatMap Enum.lines ++
    m.functions.flatMap fun f => [] :: f.lines table none

/-- Every line ends in a line feed. -/
def unlines (lines : List Text) : Text := lines.flatMap (· ++ "\n")

/-- The text of a module without faults; else its first fault. -/
def Module.emit (m : Module) (space : Text) : Except Fault Text :=
  match m.faults with
  | [] => .ok (unlines (m.lines space))
  | fault :: _ => .error fault

end LuaStubs.Stub
