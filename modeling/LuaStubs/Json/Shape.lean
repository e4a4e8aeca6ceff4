import LuaStubs.Json.Value

/-! Readers that ask a tree for a given shape. A record may be written as an object or as the array
of its fields. -/
namespace LuaStubs.Json

structure Mode where
  /-- How deep containers may still be nested. -/
  room : Nat
  /-- The tree comes from a value and not from a text. -/
  ofValue : Bool

abbrev Reader (α : Type) := Mode → Tree → Except Failure α

def Tree.unexpected (expected : Text) : Tree → Failure
  | .null stop => .mismatch (.invalidType .null expected) stop
  | .bool b stop => .mismatch (.invalidType (.bool b) expected) stop
  | .number (.ok n) stop => .mismatch (.invalidType (.number n) expected) stop
  | .number (.error spot) _ => .ofSpot spot
  | .string (.ok t) stop => .mismatch (.invalidType (.string t) expected) stop
  | .string (.error spot) _ => .ofSpot spot
  | .array start _ => .mismatch (.invalidType .sequence expected) start
  | .object start _ => .mismatch (.invalidType .map expected) start
  | .broken fault => .ofSpot fault.read

namespace Reader

def text : Reader Text
  | _, .string (.ok t) _ => .ok t
  | _, t => .error (t.unexpected "a string")

def bool : Reader Bool
  | _, .bool b _ => .ok b
  | _, t => .error (t.unexpected "a boolean")

def value : Reader Value := fun mode t => t.value mode.room

def optional (reader : Reader α) : Reader (Option α)
  | _, .null _ => .ok none
  | mode, t => (reader mode t).map some

end Reader

def Mode.inside (mode : Mode) (start : Nat) : Except Failure Mode :=
  (Json.inside mode.room start).map fun room => { mode with room }

def Items.readAll (reader : Tree → Except Failure α) (index : Nat) : Items → Except Failure (List α)
  | .close _ => .ok []
  | .item _ value rest =>
    match reader value with
    | .ok a => (rest.readAll reader (index + 1)).map (a :: ·)
    | .error f => .error (f.under (.index index) rest.resume)
  | .broken fault _ _ => .error (.ofSpot fault.read)

def Members.readAll (reader : Tree → Except Failure α) (before : List (Text × α)) :
    Members → Except Failure (List (Text × α))
  | .close _ => .ok before
  | .member _ (.ok key) _ value rest =>
    match reader value with
    | .ok a => rest.readAll reader (putMember before key a)
    | .error f => .error (f.under (.key key) rest.resume)
  | .member _ (.error spot) _ _ _ => .error (.ofKey spot)
  | .keyOnly _ (.ok _) _ spot => .error (.ofSpot spot)
  | .keyOnly _ (.error spot) _ _ => .error (.ofKey spot)
  | .broken _ fault => .error (.ofKey fault.read)

namespace Reader

def list (reader : Reader α) : Reader (List α)
  | mode, .array start items => do items.readAll (reader (← mode.inside start)) 0
  | _, t => .error (t.unexpected "a sequence")

/-- Keys in the order of their first occurrence, each with its last value. -/
def map (reader : Reader α) : Reader (List (Text × α))
  | mode, .object start members => do members.readAll (reader (← mode.inside start)) []
  | _, t => .error (t.unexpected "a map")

end Reader

/-- A field of a record of type `σ`: reading it says how it changes the record. -/
structure Entry (σ : Type) where
  name : Text
  aliases : List Text := []
  /-- Whether an object has to have the field. -/
  required : Bool := false
  /-- Whether an array has to reach the field. -/
  requiredInArray : Bool := required
  read : Reader (σ → σ)

structure Record (σ : Type) where
  title : Text
  fields : List (Entry σ)
  /-- The record without any field. -/
  blank : σ
  /-- Whether members that are no field are refused. -/
  closed : Bool := false

namespace Record

variable {σ : Type} (record : Record σ)

def field? (key : Text) : Option (Entry σ) :=
  record.fields.find? fun f => f.name = key || f.aliases.contains key

/-- Why a key cannot come after the fields `seen`. -/
def refuse? (seen : List Text) (key : Text) : Option Failure :=
  match record.field? key with
  | none =>
    if record.closed then
      some ⟨[.unread], .mismatch (.unknownField key (record.fields.map Entry.name)) none⟩
    else none
  | some f =>
    if seen.contains f.name then some ⟨[], .mismatch (.duplicateField f.name) none⟩ else none

def settle (f : Failure) (offset : Nat) : Failure :=
  match f.problem with
  | .mismatch m none => ⟨f.path, .mismatch m (some offset)⟩
  | _ => f

def readMembers (mode : Mode) : (seen : List Text) → σ → Members → Except Failure σ
  | seen, s, .close stop =>
    match record.fields.find? fun f => f.required && !seen.contains f.name with
    | some f => .error (.mismatch (.missingField f.name) stop)
    | none => .ok s
  | seen, s, .member _ (.ok key) colon value rest =>
    match record.refuse? seen key with
    | some f => .error (settle f colon)
    | none =>
      match record.field? key with
      | none =>
        match value.skip with
        | .ok _ => readMembers mode seen s rest
        | .error spot => .error ((Failure.ofSpot spot).under (.key key) rest.resume)
      | some f =>
        match f.read mode value with
        | .ok update => readMembers mode (f.name :: seen) (update s) rest
        | .error failure => .error (failure.under (.key key) rest.resume)
  | seen, _, .keyOnly _ (.ok key) resume spot =>
    match record.refuse? seen key with
    | some f => .error (settle f resume)
    | none => .error (.ofSpot spot)
  | _, _, .member _ (.error spot) _ _ _ => .error (.ofKey spot)
  | _, _, .keyOnly _ (.error spot) _ _ => .error (.ofKey spot)
  | _, _, .broken _ fault => .error (.ofKey fault.read)

/-- Fields from the items of an array, in order, and the items left over. -/
def readItems (mode : Mode) : List (Entry σ) → (index : Nat) → σ → Items → Except Failure (σ × Items)
  | [], _, s, items => .ok (s, items)
  | f :: fields, index, s, .close stop =>
    if f.requiredInArray then
      .error (.mismatch (.invalidLength index ("struct " ++ record.title ++ " with " ++
        Text.ofNat record.fields.length ++ " elements")) stop)
    else readItems mode fields (index + 1) s (.close stop)
  | f :: fields, index, s, .item _ value rest =>
    match f.read mode value with
    | .ok update => readItems mode fields (index + 1) (update s) rest
    | .error failure => .error (failure.under (.index index) rest.resume)
  | _ :: _, _, _, .broken fault _ _ => .error (.ofSpot fault.read)

def itemCount : Items → Nat
  | .item _ _ rest => itemCount rest + 1
  | _ => 0

def endItems (mode : Mode) (all : Items) : Items → Except Failure Unit
  | .close _ => .ok ()
  | .item start _ _ =>
    if mode.ofValue then
      .error (.mismatch (.invalidLength (itemCount all) "fewer elements in array") start)
    else .error (.ofSpot ⟨.trailingCharacters, start + 1⟩)
  | .broken _ surplus _ => .error (.ofSpot surplus)

def reader : Reader σ
  | mode, .object start members => do
    record.readMembers (← mode.inside start) [] record.blank members
  | mode, .array start items => do
    let (s, left) ← record.readItems (← mode.inside start) record.fields 0 record.blank items
    endItems mode items left
    return s
  | _, t => .error (t.unexpected ("struct " ++ record.title))

end Record
end LuaStubs.Json
