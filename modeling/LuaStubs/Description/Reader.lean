import LuaStubs.Description
import LuaStubs.Json.Shape

/-! The shapes of a description in JSON. -/
namespace LuaStubs.Description

open Json (Reader Entry Record Tree Items Members putMember)

mutual
def shape? : Tree → Option TypeShape
  | .string (.ok t) _ => some (.token t)
  | .array _ items => (itemShapes? items).map .alternatives
  | .object _ members => (memberShapes? [] members).map .table
  | _ => none

def itemShapes? : Items → Option (List TypeShape)
  | .close _ => some []
  | .item _ value rest =>
    match shape? value, itemShapes? rest with
    | some shape, some shapes => some (shape :: shapes)
    | _, _ => none
  | .broken _ _ _ => none

def memberShapes? (before : List (Text × TypeShape)) : Members → Option (List (Text × TypeShape))
  | .close _ => some before
  | .member _ (.ok key) _ value rest =>
    match shape? value with
    | some shape => memberShapes? (putMember before key shape) rest
    | none => none
  | _ => none
end

/-- The whole value is read before its structure is looked at, so a flaw in it comes first. -/
def typeReader : Reader TypeShape := fun mode t =>
  match t.value mode.room with
  | .error f => .error f
  | .ok _ =>
    match shape? t with
    | some shape => .ok shape
    | none => .error ⟨[], .mismatch (.noVariant "RawType") none⟩

def needed (name : Text) (reader : Reader α) (set : α → σ → σ) : Entry σ where
  name := name
  required := true
  read mode t := (reader mode t).map set

def maybe (name : Text) (reader : Reader α) (set : α → σ → σ) : Entry σ where
  name := name
  read mode t := (reader mode t).map set

def argumentRecord : Record Argument where
  title := "RawArgument"
  blank := {}
  fields := [
    needed "name" .text fun v s => { s with name := v },
    needed "type" typeReader fun v s => { s with type := v },
    maybe "description" .text fun v s => { s with description := v },
    maybe "default" (.optional .value) fun v s => { s with default := v },
    maybe "optional" (.optional .bool) fun v s => { s with optional := v }]

def returnRecord : Record Return where
  title := "RawReturn"
  blank := {}
  fields := [
    maybe "name" (.optional .text) fun v s => { s with name := v },
    needed "type" typeReader fun v s => { s with type := v },
    maybe "description" .text fun v s => { s with description := v },
    maybe "optional" .bool fun v s => { s with optional := v }]

def variantRecord : Record Variant where
  title := "RawVariant"
  blank := {}
  fields := [
    maybe "description" .text fun v s => { s with description := v },
    maybe "arguments" (.list argumentRecord.reader) fun v s => { s with arguments := v },
    maybe "returns" (.list returnRecord.reader) fun v s => { s with returns := v }]

def functionRecord : Record Function where
  title := "RawFunction"
  blank := {}
  fields := [
    needed "name" .text fun v s => { s with name := v },
    maybe "description" .text fun v s => { s with description := v },
    needed "variants" (.list variantRecord.reader) fun v s => { s with variants := v }]

def classRecord : Record Class where
  title := "RawClass"
  blank := {}
  fields := [
    needed "name" .text fun v s => { s with name := v },
    maybe "description" .text fun v s => { s with description := v },
    maybe "supertypes" (.list .text) fun v s => { s with supertypes := v },
    { maybe "functions" (.list functionRecord.reader) fun v s => { s with functions := v } with
      aliases := ["methods"] }]

def constantRecord : Record Constant where
  title := "RawConstant"
  blank := {}
  fields := [
    { needed "name" .text fun v s => { s with name := v } with aliases := ["value"] },
    maybe "description" .text fun v s => { s with description := v }]

def enumRecord : Record Enum where
  title := "RawEnum"
  blank := {}
  fields := [
    needed "name" .text fun v s => { s with name := v },
    maybe "description" .text fun v s => { s with description := v },
    needed "constants" (.list constantRecord.reader) fun v s => { s with constants := v }]

def moduleRecord : Record Module where
  title := "RawModule"
  blank := {}
  fields := [
    maybe "description" .text fun v s => { s with description := v },
    maybe "types" (.list classRecord.reader) fun v s => { s with types := v },
    maybe "functions" (.list functionRecord.reader) fun v s => { s with functions := v },
    maybe "enums" (.list enumRecord.reader) fun v s => { s with enums := v }]

def reader : Reader Description := .map moduleRecord.reader

end LuaStubs.Description
