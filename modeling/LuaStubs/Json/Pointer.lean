import LuaStubs.Json.Value

/-! JSON pointers: steps to a part of a value, each behind a slash, with `~1` for a slash and `~0`
for a tilde inside a step. -/
namespace LuaStubs.Json

/-- Replace the two characters `~` and `mark` by `c`. -/
def unescapeMark (mark c : Char) : Text → Text
  | [] => []
  | '~' :: d :: rest =>
    if d = mark then c :: unescapeMark mark c rest else '~' :: unescapeMark mark c (d :: rest)
  | d :: rest => d :: unescapeMark mark c rest

def unescapeStep (step : Text) : Text := unescapeMark '0' '~' (unescapeMark '1' '/' step)

/-- A position in an array: digits without a needless zero in front, below the 64-bit limit. -/
def arrayIndex? (step : Text) : Option Nat :=
  if step.isEmpty || !step.all Char.isDigit || (step.head? = some '0' && step.length ≠ 1) then none
  else
    let n := step.foldl (fun n d => n * 10 + (d.toNat - '0'.toNat)) 0
    if n < 0x10000000000000000 then some n else none

def Value.step? (v : Value) (step : Text) : Option Value :=
  match v with
  | .object members => members.lookup step
  | .array items => (arrayIndex? step).bind (items[·]?)
  | _ => none

/-- The empty pointer selects the whole value. -/
def Value.select? (v : Value) (pointer : Text) : Option Value :=
  match pointer with
  | [] => some v
  | '/' :: steps =>
    ((Text.splitAt (· == '/') steps).map unescapeStep).foldl (fun v step => v.bind (·.step? step))
      (some v)
  | _ => none

end LuaStubs.Json
