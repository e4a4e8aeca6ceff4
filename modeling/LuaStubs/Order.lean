/-! Sorting that keeps the order of equal elements. -/
namespace LuaStubs

/-- Put `x` before the first element that it may precede. -/
def insertBy (le : α → α → Bool) (x : α) : List α → List α
  | [] => [x]
  | y :: rest => if le x y then x :: y :: rest else y :: insertBy le x rest

/-- Elements in the order `le`; of two equal ones the earlier stays first. -/
def sortBy (le : α → α → Bool) : List α → List α
  | [] => []
  | x :: rest => insertBy le x (sortBy le rest)

end LuaStubs
