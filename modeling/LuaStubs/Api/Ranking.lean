import LuaStubs.Api
import LuaStubs.Order

/-! Which variant of a function gives its signature and in which order the others follow: more
parameters first, of equally many the one that takes further arguments, then the order of the
description. -/
namespace LuaStubs.Api

/-- The number of a variant in its function, counted from 0, and the variant. -/
abbrev Numbered := Nat × Variant

def Variant.ranksBefore (a b : Variant) : Bool :=
  b.arity < a.arity || (a.arity = b.arity && (a.isVariadic || !b.isVariadic))

def ranked (variants : List Variant) : List Numbered :=
  sortBy (fun a b => a.2.ranksBefore b.2) (variants.mapIdx Prod.mk)

end LuaStubs.Api
