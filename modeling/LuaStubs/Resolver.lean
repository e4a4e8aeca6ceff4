import LuaStubs.Finding
import LuaStubs.LuaType
import LuaStubs.Phrase.Alternatives
import LuaStubs.Phrase.Tree
import LuaStubs.TypeTable

/-! From a written type to a type of the annotation language. Phrases are looked up in the type
table, then among the names that the model defines; those get the namespace in front. What cannot be
resolved is kept as it is written and reported. The type and the findings are separate functions of
the same text. -/
namespace LuaStubs

structure Config where
  /-- The namespace that all modules live in. -/
  space : Text
  /-- Report unrecognized types as errors. -/
  verbose : Bool
  table : TypeTable
  deriving DecidableEq, Repr

def Config.default : Config := ⟨"love", false, .builtin⟩

structure Resolver where
  config : Config
  /-- The names of the classes and enums of the model. -/
  known : List Text

namespace Resolver

variable (r : Resolver)

def qualified (name : Text) : Text := r.config.space ++ "." ++ name

def unrecognized (subject message text : Text) : Finding where
  severity := if r.config.verbose then .error else .warning
  kind := .unrecognizedType
  subject := subject
  message := message
  text := text

def nameType (name : Text) : LuaType :=
  if r.known.contains name then .named (r.qualified name) else .named name

/-- A dotted name is taken to be defined elsewhere. -/
def nameFindings (subject name : Text) : List Finding :=
  if r.known.contains name || name.contains '.' then []
  else [r.unrecognized subject ("unrecognized type `" ++ name ++ "`") name]

/-- The completion that a fragment stands for, if the table lets it stand for one. -/
def completion? : List Text → Option Text
  | [full] => if r.config.table.completeFragments then some full else none
  | _ => none

def phraseType (phrase : Text) : LuaType :=
  match r.config.table.classify phrase with
  | .primitive spelling => .primitive spelling
  | .fragment completions =>
    match r.completion? completions with
    | some full => .primitive ((r.config.table.spelling? full).getD full)
    | none => .named phrase
  | .unknown => r.nameType phrase

def backquoted (t : Text) : Text := "`" ++ t ++ "`"

def phraseFindings (subject phrase : Text) : List Finding :=
  match r.config.table.classify phrase with
  | .primitive _ => []
  | .fragment completions =>
    match r.completion? completions with
    | some full => [{
        severity := .warning
        kind := .completedFragment
        subject := subject
        message := "incomplete type `" ++ phrase ++ "` completed to `" ++ full ++ "`"
        text := phrase }]
    | none =>
      [r.unrecognized subject ("`" ++ phrase ++ "` is an incomplete fragment of " ++
        Text.join ", " (completions.map backquoted)) phrase]
  | .unknown => r.nameFindings subject phrase

mutual
def treeType : Phrase.Tree → LuaType
  | .phrase text => r.phraseType text
  | .union alts => .unionOf (treeTypes alts)
  | .table fields isOpen => .table (fieldTypes fields) isOpen

def treeTypes : List Phrase.Tree → List LuaType
  | [] => []
  | alt :: rest => treeType alt :: treeTypes rest

def fieldTypes : List (Text × Phrase.Tree) → List (Text × LuaType)
  | [] => []
  | field :: rest => fieldType field :: fieldTypes rest

def fieldType : Text × Phrase.Tree → Text × LuaType
  | (name, tree) => (name, treeType tree)
end

mutual
/-- Findings from left to right; the subject grows by the name of each table field entered. -/
def treeFindings (subject : Text) : Phrase.Tree → List Finding
  | .phrase text => r.phraseFindings subject text
  | .union alts => treesFindings subject alts
  | .table fields _ => fieldsFindings subject fields

def treesFindings (subject : Text) : List Phrase.Tree → List Finding
  | [] => []
  | alt :: rest => treeFindings subject alt ++ treesFindings subject rest

def fieldsFindings (subject : Text) : List (Text × Phrase.Tree) → List Finding
  | [] => []
  | field :: rest => fieldFindings subject field ++ fieldsFindings subject rest

def fieldFindings (subject : Text) : Text × Phrase.Tree → List Finding
  | (name, tree) => treeFindings (subject ++ "." ++ name) tree
end

/-- A whole name of several words, else the tree of the text, else `other`. -/
def typeOr (other : Phrase.Error → LuaType) (raw : Text) : LuaType :=
  match r.config.table.spelling? (Text.collapse raw) with
  | some spelling => .primitive spelling
  | none =>
    match Phrase.parse raw with
    | .ok tree => r.treeType tree
    | .error e => other e

def findingsOr (other : Phrase.Error → List Finding) (subject raw : Text) : List Finding :=
  match r.config.table.spelling? (Text.collapse raw) with
  | some _ => []
  | none =>
    match Phrase.parse raw with
    | .ok tree => r.treeFindings subject tree
    | .error e => other e

/-- A text with one alternative: outside the grammar it is kept as it is written. -/
def aloneType (raw : Text) : LuaType := r.typeOr (fun _ => .named (Text.collapse raw)) raw

def aloneFindings (subject raw : Text) : List Finding :=
  r.findingsOr (fun e => [r.unrecognized subject ("cannot parse type: " ++ e.message)
    (Text.collapse raw)]) subject raw

/-- The type of a written type. Outside the grammar its alternatives are resolved one by one; none
of them has alternatives of its own. -/
def type (raw : Text) : LuaType :=
  r.typeOr (fun _ =>
    match Phrase.alternatives raw with
    | first :: second :: rest => .unionOf ((first :: second :: rest).map r.aloneType)
    | _ => .named (Text.collapse raw)) raw

def findings (subject raw : Text) : List Finding :=
  r.findingsOr (fun e =>
    match Phrase.alternatives raw with
    | first :: second :: rest =>
      (first :: second :: rest).flatMap (r.aloneFindings subject)
    | _ => [r.unrecognized subject ("cannot parse type: " ++ e.message) (Text.collapse raw)])
    subject raw

end Resolver
end LuaStubs
