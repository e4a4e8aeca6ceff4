import LuaStubs.Json.Number
import LuaStubs.Json.Quoted

/-! A JSON text as far as it can be read. The tree ends in a fault where the text does, so that a
reader of the tree meets what the text holds in the order of the text. Values out of range and
strings with lone surrogates are kept: they are flaws only for who asks for the value. -/
namespace LuaStubs.Json

mutual
inductive Tree where
  | null (stop : Nat)
  | bool (value : Bool) (stop : Nat)
  | number (value : Except Spot Number) (stop : Nat)
  | string (value : Except Spot Text) (stop : Nat)
  /-- Opened at byte `start`. -/
  | array (start : Nat) (items : Items)
  | object (start : Nat) (members : Members)
  | broken (fault : Fault)

/-- What follows the opening of an array or an item of it. -/
inductive Items where
  | close (stop : Nat)
  /-- The item starts at byte `start`. -/
  | item (start : Nat) (value : Tree) (rest : Items)
  /-- Neither. `surplus` is the flaw for who expects the end; `resume` is where reading stops. -/
  | broken (fault : Fault) (surplus : Spot) (resume : Nat)

/-- What follows the opening of an object or a member of it. `comma` is the byte after the member
before. -/
inductive Members where
  | close (stop : Nat)
  | member (comma : Nat) (key : Except Spot Text) (colon : Nat) (value : Tree) (rest : Members)
  /-- A key without its colon. -/
  | keyOnly (comma : Nat) (key : Except Spot Text) (resume : Nat) (spot : Spot)
  | broken (comma : Nat) (fault : Fault)
end

/-- Where reading stops after an item that is the last one wanted. -/
def Items.resume : Items → Nat
  | .close stop => stop
  | .item start _ _ => start
  | .broken _ _ resume => resume

def Members.resume : Members → Nat
  | .close stop => stop
  | .member comma _ _ _ _ => comma
  | .keyOnly comma _ _ _ => comma
  | .broken comma _ => comma

def stringAt (c : Cursor) : Except Fault (Except Spot Text × Cursor) :=
  match skipString c.offset c.rest, readString c.offset [] c.rest with
  | .ok stop, read => .ok (read.map Prod.fst, stop)
  | .error skipped, .error read => .error ⟨read, skipped⟩
  | .error skipped, .ok _ => .error (.both skipped)

def literalAt (letters : Text) (c : Cursor) (leaf : Nat → Tree) : Tree × Cursor :=
  match Cursor.literal letters c with
  | .ok stop => (leaf stop.offset, stop)
  | .error spot => (.broken (.both spot), c)

def numberAt (c : Cursor) (isNegative : Bool) : Tree × Cursor :=
  match c.number isNegative with
  | .ok (value, stop) => (.number value stop.offset, stop)
  | .error fault => (.broken fault, c)

mutual
/-- The value at a place, and the place after it. Every step down and every item takes one of
`steps`, and at least one byte. -/
def treeAt : (steps : Nat) → Cursor → Tree × Cursor
  | 0, c => (.broken (.both (c.spot .tooDeep)), c)
  | steps + 1, c =>
    let c := c.skipSpace
    match c.rest with
    | [] => (.broken (.both (c.spot .eofInValue)), c)
    | first :: _ =>
      let after := c.skip first.utf8Size
      if first = 'n' then literalAt "ull" after .null
      else if first = 't' then literalAt "rue" after (.bool true)
      else if first = 'f' then literalAt "alse" after (.bool false)
      else if first = '-' then numberAt after true
      else if first.isDigit then numberAt c false
      else if first = '"' then
        match stringAt after with
        | .ok (value, stop) => (.string value stop.offset, stop)
        | .error fault => (.broken fault, c)
      else if first = '[' then
        let (items, stop) := itemsAt steps true after
        (.array c.offset items, stop)
      else if first = '\x7b' then
        let (members, stop) := membersAt steps true after
        (.object c.offset members, stop)
      else (.broken (.both (c.spotNext .expectedValue)), c)

def itemsAt : (steps : Nat) → (isFirst : Bool) → Cursor → Items × Cursor
  | 0, _, c => (.broken (.both (c.spot .tooDeep)) (c.spot .tooDeep) c.offset, c)
  | steps + 1, isFirst, c =>
    let c := c.skipSpace
    let next (c : Cursor) : Items × Cursor :=
      let (value, stop) := treeAt steps c
      let (rest, stop) := itemsAt steps false stop
      (.item c.offset value rest, stop)
    match c.rest with
    | [] => (.broken (.both (c.spot .eofInList)) (c.spot .eofInList) c.offset, c)
    | ']' :: _ => (.close (c.offset + 1), c.skip 1)
    | first :: _ =>
      if isFirst then next c
      else if first = ',' then
        let c := (c.skip 1).skipSpace
        match c.rest with
        | [] => (.broken (.both (c.spot .eofInValue)) (c.spot .trailingCharacters) c.offset, c)
        | ']' :: _ => (.broken ⟨c.spotNext .trailingComma, c.spotNext .expectedValue⟩
            (c.spotNext .trailingComma) c.offset, c)
        | _ => next c
      else (.broken (.both (c.spotNext .expectedListEnd)) (c.spotNext .trailingCharacters)
        c.offset, c)

def membersAt : (steps : Nat) → (isFirst : Bool) → Cursor → Members × Cursor
  | 0, _, c => (.broken c.offset (.both (c.spot .tooDeep)), c)
  | steps + 1, isFirst, c =>
    let c := c.skipSpace
    let comma := c.offset
    let next (c : Cursor) : Members × Cursor :=
      match stringAt (c.skip 1) with
      | .error fault => (.broken comma fault, c)
      | .ok (key, stop) =>
        let stop := stop.skipSpace
        match stop.rest with
        | ':' :: _ =>
          let (value, after) := treeAt steps (stop.skip 1)
          let (rest, after) := membersAt steps false after
          (.member comma key stop.offset value rest, after)
        | '\x7d' :: _ => (.keyOnly comma key (stop.offset + 1) (stop.spotNext .expectedColon), c)
        | [] => (.keyOnly comma key stop.offset (stop.spot .eofInObject), c)
        | _ => (.keyOnly comma key stop.offset (stop.spotNext .expectedColon), c)
    match c.rest with
    | [] => (.broken comma (.both (c.spot .eofInObject)), c)
    | '\x7d' :: _ => (.close (c.offset + 1), c.skip 1)
    | first :: _ =>
      if isFirst then
        if first = '"' then next c else (.broken comma (.both (c.spotNext .keyNotString)), c)
      else if first = ',' then
        let c := (c.skip 1).skipSpace
        match c.rest with
        | [] => (.broken comma ⟨c.spot .eofInValue, c.spot .eofInObject⟩, c)
        | '"' :: _ => next c
        | '\x7d' :: _ =>
          (.broken comma ⟨c.spotNext .trailingComma, c.spotNext .keyNotString⟩, c)
        | _ => (.broken comma (.both (c.spotNext .keyNotString)), c)
      else (.broken comma (.both (c.spotNext .expectedObjectEnd)), c)
end

def document (t : Text) : Tree × Cursor := treeAt (2 * t.length + 2) (.ofText t)

mutual
/-- Pass over a value that nobody asks for. -/
def Tree.skip : Tree → Except Spot Unit
  | .array _ items => items.skip
  | .object _ members => members.skip
  | .broken fault => .error fault.skipped
  | _ => .ok ()

def Items.skip : Items → Except Spot Unit
  | .close _ => .ok ()
  | .item _ value rest => do value.skip; rest.skip
  | .broken fault _ _ => .error fault.skipped

def Members.skip : Members → Except Spot Unit
  | .close _ => .ok ()
  | .member _ _ _ value rest => do value.skip; rest.skip
  | .keyOnly _ _ _ spot => .error spot
  | .broken _ fault => .error fault.skipped
end

end LuaStubs.Json
