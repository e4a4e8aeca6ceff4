import LuaStubs.Text.Basic

/-! Text as bytes in UTF-8 and back. Bytes that are no UTF-8 are cut into the longest pieces that
begin a character, and single bytes where there is none. -/
namespace LuaStubs.Text

abbrev Bytes := List UInt8

def utf8 (t : Text) : Bytes := t.flatMap String.utf8EncodeChar

namespace Utf8

def isTail (b : UInt8) : Bool := 0x80 ≤ b && b ≤ 0xBF

/-- Whether `b` may be the second byte of a character that starts with `a`. -/
def mayFollow (a b : UInt8) : Bool :=
  if a = 0xE0 then 0xA0 ≤ b && b ≤ 0xBF
  else if a = 0xED then 0x80 ≤ b && b ≤ 0x9F
  else if a = 0xF0 then 0x90 ≤ b && b ≤ 0xBF
  else if a = 0xF4 then 0x80 ≤ b && b ≤ 0x8F
  else isTail b

def two (a b : UInt8) : Char := Char.ofNat (a.toNat % 0x20 * 0x40 + b.toNat % 0x40)

def three (a b c : UInt8) : Char :=
  Char.ofNat ((a.toNat % 0x10 * 0x40 + b.toNat % 0x40) * 0x40 + c.toNat % 0x40)

def four (a b c d : UInt8) : Char :=
  Char.ofNat (((a.toNat % 0x08 * 0x40 + b.toNat % 0x40) * 0x40 + c.toNat % 0x40) * 0x40 +
    d.toNat % 0x40)

/-- The characters of a byte sequence, with `none` for every piece that is none. -/
def pieces : Bytes → List (Option Char)
  | [] => []
  | a :: rest =>
    if a < 0x80 then some (Char.ofNat a.toNat) :: pieces rest
    else if 0xC2 ≤ a && a ≤ 0xDF then
      match rest with
      | [] => [none]
      | b :: rest' => if isTail b then some (two a b) :: pieces rest' else none :: pieces (b :: rest')
    else if 0xE0 ≤ a && a ≤ 0xEF then
      match rest with
      | [] => [none]
      | b :: rest' =>
        if mayFollow a b then
          match rest' with
          | [] => [none]
          | c :: rest'' =>
            if isTail c then some (three a b c) :: pieces rest'' else none :: pieces (c :: rest'')
        else none :: pieces (b :: rest')
    else if 0xF0 ≤ a && a ≤ 0xF4 then
      match rest with
      | [] => [none]
      | b :: rest' =>
        if mayFollow a b then
          match rest' with
          | [] => [none]
          | c :: rest'' =>
            if isTail c then
              match rest'' with
              | [] => [none]
              | d :: rest''' =>
                if isTail d then some (four a b c d) :: pieces rest'''
                else none :: pieces (d :: rest''')
            else none :: pieces (c :: rest'')
        else none :: pieces (b :: rest')
    else none :: pieces rest

end Utf8

def ofUtf8? (bytes : Bytes) : Option Text := (Utf8.pieces bytes).mapM id

/-- The text of any bytes: a replacement character stands for every piece that is none. -/
def ofUtf8Lossy (bytes : Bytes) : Text := (Utf8.pieces bytes).map (·.getD '�')

end LuaStubs.Text
