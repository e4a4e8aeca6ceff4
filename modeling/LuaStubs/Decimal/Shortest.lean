import LuaStubs.Text.Basic

/-! Binary64 numbers in decimal: the fewest digits that read back as the same number, and of those
the nearest to it. Everything is computed on `m · 2 ^ q` with natural numbers. -/
namespace LuaStubs.Decimal

/-- A positive number `mantissa · 2 ^ exponent`. `coarse` tells that the number below it is only
half as far away as the one above it. -/
structure Binary where
  mantissa : Nat
  exponent : Int
  coarse : Bool
  deriving DecidableEq, Repr

/-- The magnitude of a finite binary64 number, from its bits. -/
def Binary.ofBits (bits : UInt64) : Binary :=
  let fraction := bits.toNat % 0x10000000000000
  let biased : Nat := bits.toNat / 0x10000000000000 % 0x800
  if biased = 0 then ⟨fraction, -1074, false⟩
  else ⟨0x10000000000000 + fraction, (biased : Int) - 1075, fraction = 0 && biased != 1⟩

structure Scientific where
  digits : Nat
  exponent : Int
  deriving DecidableEq, Repr

/-- The power of ten at or below the number. -/
def Binary.magnitude (b : Binary) : Int :=
  let scaled := if b.exponent < 0 then b.mantissa * Nat.pow 10 350 / Nat.pow 2 (-b.exponent).toNat
    else b.mantissa * Nat.pow 2 b.exponent.toNat * Nat.pow 10 350
  ((Nat.toDigits 10 scaled).length : Int) - 351

/-- The number and the decimal grid of step `10 ^ power` brought to whole numbers: quarters of the
binary step on one side, steps of the grid on the other. -/
structure Grid where
  quarter : Nat
  step : Nat

def Binary.grid (b : Binary) (power : Int) : Grid where
  quarter := Nat.pow 2 (b.exponent - 2).toNat * Nat.pow 10 (-power).toNat
  step := Nat.pow 10 power.toNat * Nat.pow 2 (2 - b.exponent).toNat

/-- Whether `d` steps of the grid are read back as the number: they lie at most half a binary step
away, and exactly half a step only where the mantissa is even. -/
def Binary.reads (b : Binary) (g : Grid) (d : Nat) : Bool :=
  let low := (4 * b.mantissa - if b.coarse then 1 else 2) * g.quarter
  let high := (4 * b.mantissa + 2) * g.quarter
  if b.mantissa % 2 = 0 then low ≤ d * g.step && d * g.step ≤ high
  else low < d * g.step && d * g.step < high

/-- The better of the two neighbours on the grid, if any of them is read back; the even one where
both are equally near. -/
def Binary.onGrid? (b : Binary) (power : Int) : Option Scientific :=
  let g := b.grid power
  let value := 4 * b.mantissa * g.quarter
  let below := value / g.step
  let gapBelow := value - below * g.step
  let gapAbove := (below + 1) * g.step - value
  match b.reads g below, b.reads g (below + 1) with
  | true, true =>
    if gapBelow < gapAbove || (gapBelow = gapAbove && below % 2 = 0) then some ⟨below, power⟩
    else some ⟨below + 1, power⟩
  | true, false => some ⟨below, power⟩
  | false, true => some ⟨below + 1, power⟩
  | false, false => none

/-- The first of the grids of `count`, `count + 1`, … digits with a hit; 17 digits always do. -/
def Binary.shortestFrom (b : Binary) : (tries count : Nat) → Scientific
  | 0, _ => ⟨b.mantissa, b.exponent⟩
  | tries + 1, count =>
    match b.onGrid? (b.magnitude - count + 1) with
    | some s => s
    | none => b.shortestFrom tries (count + 1)

def Binary.shortest (b : Binary) : Scientific := b.shortestFrom 17 1

/-- Digits without zeros at the end, and the exponent of the first of them. -/
def Scientific.normal (s : Scientific) : Text × Int :=
  let all := Nat.toDigits 10 s.digits
  ((all.reverse.dropWhile (· == '0')).reverse, s.exponent + all.length - 1)

end LuaStubs.Decimal
