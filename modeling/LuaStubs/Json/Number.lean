import LuaStubs.Decimal.Shortest
import LuaStubs.Json.Cursor

/-! Numbers of a JSON text. Whole numbers are exact while they fit 64 bits. All others become
binary64 by one multiplication or division of a 64-bit significand with a power of ten. -/
namespace LuaStubs.Json

inductive Number where
  | natural (n : Nat)
  /-- A negative whole number, by its magnitude. -/
  | negative (magnitude : Nat)
  /-- A binary64 number, by its bits. -/
  | float (bits : UInt64)
  deriving DecidableEq, Repr

/-- Add digits to a significand as long as it fits 64 bits; the other digits are returned. -/
def accumulate : Nat → List Nat → Nat × List Nat
  | n, [] => (n, [])
  | n, d :: digits =>
    if n * 10 + d < 0x10000000000000000 then accumulate (n * 10 + d) digits else (n, d :: digits)

def tenTo (k : Nat) : Float := Float.ofScientific 1 false k

/-- Divide by ten to the given power, in steps where that power itself has no binary64. -/
def divideByTenTo : (steps : Nat) → Float → (power : Nat) → Float
  | 0, f, _ => f
  | steps + 1, f, power =>
    if power ≤ 308 then f / tenTo power
    else if f == 0 then f
    else divideByTenTo steps (f / tenTo 308) (power - 308)

/-- The binary64 of `significand · 10 ^ exponent`, if it is finite. -/
def scale (significand : Nat) (exponent : Int) : Option Float :=
  let f := significand.toUInt64.toFloat
  if exponent < 0 then some (divideByTenTo 4 f (-exponent).toNat)
  else if exponent ≤ 308 then
    let scaled := f * tenTo exponent.toNat
    if scaled.isInf then none else some scaled
  else if significand = 0 then some f else none

def signed (negative : Bool) (f : Float) : Number := .float (if negative then -f else f).toBits

/-- A whole number without point and exponent. Zero with a sign is a binary64, and so is what lies
below the 64-bit range. -/
def wholeNumber (isNegative : Bool) (n : Nat) : Number :=
  if !isNegative then .natural n
  else if n = 0 || 0x8000000000000000 < n then signed true n.toUInt64.toFloat
  else .negative n

/-- An exponent above 31 bits, given by how many of its digits were read to see that. -/
def exponentDigits : (n read : Nat) → List Nat → Except Nat Nat
  | n, _, [] => .ok n
  | n, read, d :: digits =>
    if n * 10 + d < 0x80000000 then exponentDigits (n * 10 + d) (read + 1) digits
    else .error (read + 1)

def clamp (n : Int) : Int := max (-2147483648) (min n 2147483647)

def Cursor.exponent (c : Cursor) (isNegative : Bool) (significand : Nat) (before : Int) :
    Except Fault (Except Spot Number × Cursor) :=
  let (down, c) := match c.rest with
    | '+' :: _ => (false, c.skip 1)
    | '-' :: _ => (true, c.skip 1)
    | _ => (false, c)
  match c.digits with
  | ([], _) =>
    .error (if c.rest.isEmpty then ⟨c.spot .eofInValue, c.spot .badNumber⟩
      else .both (c.spotNext .badNumber))
  | (digits, stop) =>
    match exponentDigits 0 0 digits with
    | .error read =>
      if significand != 0 && !down then
        .ok (.error ⟨.numberOutOfRange, c.offset + read⟩, stop)
      else .ok (.ok (signed isNegative 0), stop)
    | .ok n =>
      match scale significand (clamp (if down then before - n else before + n)) with
      | some f => .ok (.ok (signed isNegative f), stop)
      | none => .ok (.error (stop.spot .numberOutOfRange), stop)

/-- What follows the integer digits: a fraction, an exponent, both or nothing. `before` is the
power of ten of the significand's last digit. -/
def Cursor.afterInteger (c : Cursor) (isNegative : Bool) (significand : Nat) (before : Int)
    (exact : Bool) : Except Fault (Except Spot Number × Cursor) :=
  let float (significand : Nat) (power : Int) (stop : Cursor) :=
    match scale significand power with
    | some f => .ok (.ok (signed isNegative f), stop)
    | none => .ok (.error (stop.spot .numberOutOfRange), stop)
  match c.rest with
  | '.' :: _ =>
    let c := c.skip 1
    match c.digits with
    | ([], _) =>
      .error ⟨if c.rest.isEmpty then c.spot .eofInValue else c.spotNext .badNumber,
        c.spotNext .badNumber⟩
    | (digits, stop) =>
      let (significand, dropped) := accumulate significand digits
      let power := before - (digits.length - dropped.length : Nat)
      match stop.rest with
      | 'e' :: _ | 'E' :: _ => (stop.skip 1).exponent isNegative significand power
      | _ => float significand power stop
  | 'e' :: _ | 'E' :: _ => (c.skip 1).exponent isNegative significand before
  | _ =>
    if exact then .ok (.ok (wholeNumber isNegative significand), c) else float significand before c

/-- A number after its sign. The value is apart from the extent: a number out of range still ends
where its digits end. -/
def Cursor.number (c : Cursor) (isNegative : Bool) :
    Except Fault (Except Spot Number × Cursor) :=
  match c.digits with
  | ([], _) =>
    .error (if c.rest.isEmpty then ⟨c.spot .eofInValue, c.spot .badNumber⟩
      else .both (c.spotNext .badNumber))
  | (0 :: _ :: _, _) => .error (.both ⟨.badNumber, c.offset + 2⟩)
  | (digits, stop) =>
    let (significand, dropped) := accumulate 0 digits
    stop.afterInteger isNegative significand dropped.length dropped.isEmpty

/-- Positional for the exponents from -5 to 15, with `.0` on a whole number; else one digit before
the point and a signed exponent. -/
def renderFloat (bits : UInt64) : Text :=
  let b := Decimal.Binary.ofBits bits
  let sign : Text := if bits.toNat < 0x8000000000000000 then [] else ['-']
  if b.mantissa = 0 then sign ++ "0.0"
  else
    let (digits, exponent) := b.shortest.normal
    if exponent < -5 || 16 ≤ exponent then
      let fraction : Text := if digits.length = 1 then [] else '.' :: digits.drop 1
      let mark : Text := if exponent < 0 then "e-" else "e+"
      sign ++ digits.take 1 ++ fraction ++ mark ++ Text.ofNat exponent.natAbs
    else if exponent < 0 then
      sign ++ "0." ++ List.replicate (exponent.natAbs - 1) '0' ++ digits
    else
      let whole := exponent.toNat + 1
      let padded := digits ++ List.replicate (whole - digits.length) '0'
      let fraction : Text := if digits.length ≤ whole then ['0'] else digits.drop whole
      sign ++ padded.take whole ++ "." ++ fraction

def Number.render : Number → Text
  | .natural n => Text.ofNat n
  | .negative n => '-' :: Text.ofNat n
  | .float bits => renderFloat bits

end LuaStubs.Json
