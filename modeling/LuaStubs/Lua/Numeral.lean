import LuaStubs.Text.Basic

/-! Numerals of Lua: where one ends in a text, and which are well formed. -/
namespace LuaStubs.Lua

def isHexDigit (c : Char) : Bool :=
  c.isDigit || ('a' ≤ c && c ≤ 'f') || ('A' ≤ c && c ≤ 'F')

/-- How many of the first characters belong to a number: all that look like a part of one, with a
sign after an exponent mark. -/
def numeralLength (isHex : Bool) (afterMark : Bool) : Text → Nat
  | [] => 0
  | c :: rest =>
    if afterMark && (c == '+' || c == '-') then numeralLength isHex false rest + 1
    else if (if isHex then c == 'p' || c == 'P' else c == 'e' || c == 'E') then
      numeralLength isHex true rest + 1
    else if isHexDigit c || c == '.' then numeralLength isHex false rest + 1
    else 0

/-- The length of a numeral that starts with a digit, or with a point before one. A letter right
after it is taken in, which makes it malformed. -/
def numeralSize (t : Text) : Nat :=
  let size := match t with
    | '.' :: rest => afterPoint rest + 1
    | t => afterPoint t
  match t.drop size with
  | c :: _ => if c.isAlpha || c == '_' then size + 1 else size
  | [] => size
where
  afterPoint : Text → Nat
    | '0' :: 'x' :: rest => numeralLength true false rest + 2
    | '0' :: 'X' :: rest => numeralLength true false rest + 2
    | t => numeralLength false false t

def takeNumeral (t : Text) : Text × Text := (t.take (numeralSize t), t.drop (numeralSize t))

/-- Nothing, or an exponent with at least one digit. -/
def isExponent (isMark : Char → Bool) : Text → Bool
  | [] => true
  | c :: rest =>
    isMark c && match rest with
      | '+' :: digits => !digits.isEmpty && digits.all Char.isDigit
      | '-' :: digits => !digits.isEmpty && digits.all Char.isDigit
      | digits => !digits.isEmpty && digits.all Char.isDigit

/-- Digits with at most one point among them, at least one digit, and an exponent. -/
def isMantissa (isDigit isMark : Char → Bool) (t : Text) : Bool :=
  let whole := t.takeWhile isDigit
  match t.dropWhile isDigit with
  | '.' :: rest =>
    let fraction := rest.takeWhile isDigit
    !(whole.isEmpty && fraction.isEmpty) && isExponent isMark (rest.dropWhile isDigit)
  | rest => !whole.isEmpty && isExponent isMark rest

def isNumeral : Text → Bool
  | '0' :: 'x' :: rest => isMantissa isHexDigit (fun c => c == 'p' || c == 'P') rest
  | '0' :: 'X' :: rest => isMantissa isHexDigit (fun c => c == 'p' || c == 'P') rest
  | t => isMantissa Char.isDigit (fun c => c == 'e' || c == 'E') t

end LuaStubs.Lua
