import LuaStubs.Json.Tree

/-! JSON values without places, and how a reader of a tree fails. -/
namespace LuaStubs.Json

inductive Value where
  | null
  | bool (b : Bool)
  | number (n : Number)
  | string (t : Text)
  | array (items : List Value)
  /-- Keys are different and stand in the order of their first occurrence. -/
  | object (members : List (Text × Value))
  deriving Inhabited, Repr

/-- A repeated key keeps its place and takes the new value. -/
def putMember (members : List (Text × α)) (key : Text) (value : α) : List (Text × α) :=
  match members with
  | [] => [(key, value)]
  | (k, v) :: rest => if k = key then (k, value) :: rest else (k, v) :: putMember rest key value

inductive Found where
  | null
  | bool (b : Bool)
  | number (n : Number)
  | string (t : Text)
  | sequence
  | map
  deriving DecidableEq, Repr

def Found.message : Found → Text
  | .null => "null"
  | .bool b => "boolean `" ++ (if b then "true" else "false") ++ "`"
  | .number (.float bits) => "floating point `" ++ renderFloat bits ++ "`"
  | .number n => "integer `" ++ n.render ++ "`"
  | .string t => "string " ++ shown t
  | .sequence => "sequence"
  | .map => "map"

inductive Mismatch where
  | invalidType (found : Found) (expected : Text)
  | invalidLength (length : Nat) (expected : Text)
  | missingField (name : Text)
  | duplicateField (name : Text)
  | unknownField (name : Text) (known : List Text)
  | noVariant (title : Text)
  deriving DecidableEq, Repr

def Mismatch.message : Mismatch → Text
  | .invalidType found expected => "invalid type: " ++ found.message ++ ", expected " ++ expected
  | .invalidLength length expected =>
    "invalid length " ++ Text.ofNat length ++ ", expected " ++ expected
  | .missingField name => "missing field `" ++ name ++ "`"
  | .duplicateField name => "duplicate field `" ++ name ++ "`"
  | .unknownField name known => "unknown field `" ++ name ++ "`, expected one of " ++
      Text.join ", " (known.map fun k => "`" ++ k ++ "`")
  | .noVariant title => "data did not match any variant of untagged enum " ++ title

inductive Segment where
  | index (i : Nat)
  | key (k : Text)
  /-- The key was still being read. -/
  | unread
  deriving DecidableEq, Repr

/-- Keys are separated by dots, positions stand in brackets, and the root is one dot. -/
def renderPath : List Segment → Text
  | [] => "."
  | first :: rest => part first ++ rest.flatMap fun
      | .index i => part (.index i)
      | segment => "." ++ part segment
where
  part : Segment → Text
    | .index i => "[" ++ Text.ofNat i ++ "]"
    | .key k => k
    | .unread => "?"

inductive Problem where
  | flaw (spot : Spot)
  /-- A place may be missing until an enclosing value supplies it. -/
  | mismatch (m : Mismatch) (offset : Option Nat)
  deriving DecidableEq, Repr

structure Failure where
  path : List Segment
  problem : Problem
  deriving DecidableEq, Repr

namespace Failure

def ofSpot (spot : Spot) : Failure := ⟨[], .flaw spot⟩

def ofKey (spot : Spot) : Failure := ⟨[.unread], .flaw spot⟩

def mismatch (m : Mismatch) (offset : Nat) : Failure := ⟨[], .mismatch m (some offset)⟩

/-- The failure of a part, seen from the whole. A mismatch without a place gets the place where
reading the whole stops. -/
def under (f : Failure) (segment : Segment) (resume : Nat) : Failure where
  path := segment :: f.path
  problem := match f.problem with
    | .mismatch m none => .mismatch m (some resume)
    | problem => problem

end Failure

/-- Containers may be nested this deep, less one. -/
def maxRoom : Nat := 128

/-- The room inside a container opened at byte `start`. -/
def inside (room start : Nat) : Except Failure Nat :=
  if room ≤ 1 then .error (.ofSpot ⟨.tooDeep, start + 1⟩) else .ok (room - 1)

mutual
/-- The value of a tree, or its first flaw. -/
def Tree.value (room : Nat) : Tree → Except Failure Value
  | .null _ => .ok .null
  | .bool b _ => .ok (.bool b)
  | .number (.ok n) _ => .ok (.number n)
  | .number (.error spot) _ => .error (.ofSpot spot)
  | .string (.ok t) _ => .ok (.string t)
  | .string (.error spot) _ => .error (.ofSpot spot)
  | .array start items =>
    match inside room start with
    | .ok room => (items.values room 0).map .array
    | .error f => .error f
  | .object start members =>
    match inside room start with
    | .ok room => (members.values room []).map .object
    | .error f => .error f
  | .broken fault => .error (.ofSpot fault.read)

def Items.values (room index : Nat) : Items → Except Failure (List Value)
  | .close _ => .ok []
  | .item _ value rest =>
    match value.value room with
    | .ok v => (rest.values room (index + 1)).map (v :: ·)
    | .error f => .error (f.under (.index index) rest.resume)
  | .broken fault _ _ => .error (.ofSpot fault.read)

def Members.values (room : Nat) (before : List (Text × Value)) :
    Members → Except Failure (List (Text × Value))
  | .close _ => .ok before
  | .member _ (.ok key) _ value rest =>
    match value.value room with
    | .ok v => rest.values room (putMember before key v)
    | .error f => .error (f.under (.key key) rest.resume)
  | .member _ (.error spot) _ _ _ => .error (.ofKey spot)
  | .keyOnly _ (.ok _) _ spot => .error (.ofSpot spot)
  | .keyOnly _ (.error spot) _ _ => .error (.ofKey spot)
  | .broken _ fault => .error (.ofKey fault.read)
end

mutual
def Value.toTree : Value → Tree
  | .null => .null 0
  | .bool b => .bool b 0
  | .number n => .number (.ok n) 0
  | .string t => .string (.ok t) 0
  | .array items => .array 0 (toItems items)
  | .object members => .object 0 (toMembers members)

def Value.toItems : List Value → Items
  | [] => .close 0
  | v :: rest => .item 0 v.toTree (toItems rest)

def Value.toMembers : List (Text × Value) → Members
  | [] => .close 0
  | m :: rest => toMember m (toMembers rest)

def Value.toMember : Text × Value → Members → Members
  | (key, v), rest => .member 0 (.ok key) 0 v.toTree rest
end

mutual
/-- The shortest text of a value: no white space. -/
def Value.render : Value → Text
  | .null => "null"
  | .bool b => if b then "true" else "false"
  | .number n => n.render
  | .string t => renderString t
  | .array items => "[" ++ Text.join "," (renderItems items) ++ "]"
  | .object members => "\x7b" ++ Text.join "," (renderMembers members) ++ "\x7d"

def Value.renderItems : List Value → List Text
  | [] => []
  | v :: rest => v.render :: renderItems rest

def Value.renderMembers : List (Text × Value) → List Text
  | [] => []
  | m :: rest => renderMember m :: renderMembers rest

def Value.renderMember : Text × Value → Text
  | (key, v) => renderString key ++ ":" ++ v.render
end

end LuaStubs.Json
