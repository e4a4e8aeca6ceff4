/-! Sets of code points written as increasing bounds: the first number opens a range, the second
closes it, and so on. -/
namespace LuaStubs.Text

/-- Ranges are half open, so `[a, b, c, d]` holds the numbers of `[a, b)` and of `[c, d)`. -/
def inRanges : List Nat → Nat → Bool
  | low :: high :: rest, n => if n < low then false else n < high || inRanges rest n
  | _, _ => false

end LuaStubs.Text
