import LuaStubs.Json.Cursor
import LuaStubs.Text.Shown

/-! Strings of a JSON text: read with their escapes, skipped without a look at surrogates, and
written. -/
namespace LuaStubs.Json

def hexDigit? (c : Char) : Option Nat :=
  if c.isDigit then some (c.toNat - '0'.toNat)
  else if 'a' ≤ c && c ≤ 'f' then some (c.toNat - 'a'.toNat + 10)
  else if 'A' ≤ c && c ≤ 'F' then some (c.toNat - 'A'.toNat + 10)
  else none

def hexValue? (a b c d : Char) : Option Nat := do
  return (((← hexDigit? a) * 16 + (← hexDigit? b)) * 16 + (← hexDigit? c)) * 16 + (← hexDigit? d)

/-- Four bytes that are no four digits: they are read, or the text ends before. -/
def badHex (c : Cursor) : Spot :=
  let left := Text.byteSize (c.rest.take 4)
  if left < 4 then ⟨.eofInString, c.offset + left⟩ else ⟨.badEscape, c.offset + 4⟩

def simpleEscape? : Char → Option Char
  | '"' => some '"'
  | '\\' => some '\\'
  | '/' => some '/'
  | 'b' => some '\x08'
  | 'f' => some '\x0c'
  | 'n' => some '\n'
  | 'r' => some '\r'
  | 't' => some '\t'
  | _ => none

def isLeading (n : Nat) : Bool := 0xD800 ≤ n && n ≤ 0xDBFF
def isTrailing (n : Nat) : Bool := 0xDC00 ≤ n && n ≤ 0xDFFF

def pairChar (leading trailing : Nat) : Char :=
  Char.ofNat ((leading - 0xD800) * 0x400 + (trailing - 0xDC00) + 0x10000)

/-- The string from byte `start` on, after its opening quote; `read` holds its characters so far,
last first. -/
def readString : (start : Nat) → (read : Text) → Text → Except Spot (Text × Cursor)
  | start, _, [] => .error ⟨.eofInString, start⟩
  | start, read, '"' :: rest => .ok (read.reverse, ⟨rest, start + 1⟩)
  | start, _, ['\\'] => .error ⟨.eofInString, start + 1⟩
  | start, read, '\\' :: 'u' :: rest =>
    match rest with
    | a :: b :: c :: d :: rest' =>
      match hexValue? a b c d with
      | none => .error (badHex ⟨rest, start + 2⟩)
      | some n =>
        if isTrailing n then .error ⟨.loneSurrogate, start + 6⟩
        else if isLeading n then
          match rest' with
          | [] => .error ⟨.eofInString, start + 6⟩
          | ['\\'] => .error ⟨.eofInString, start + 7⟩
          | '\\' :: 'u' :: rest'' =>
            match rest'' with
            | a' :: b' :: c' :: d' :: rest''' =>
              match hexValue? a' b' c' d' with
              | none => .error (badHex ⟨rest'', start + 8⟩)
              | some n' =>
                if isTrailing n' then readString (start + 12) (pairChar n n' :: read) rest'''
                else .error ⟨.loneSurrogate, start + 12⟩
            | _ => .error (badHex ⟨rest'', start + 8⟩)
          | '\\' :: _ => .error ⟨.shortEscape, start + 8⟩
          | _ => .error ⟨.shortEscape, start + 7⟩
        else readString (start + 6) (Char.ofNat n :: read) rest'
    | _ => .error (badHex ⟨rest, start + 2⟩)
  | start, read, '\\' :: e :: rest =>
    match simpleEscape? e with
    | some c => readString (start + 2) (c :: read) rest
    | none => .error ⟨.badEscape, start + 2⟩
  | start, read, c :: rest =>
    if c.toNat < 0x20 then .error ⟨.controlCharacter, start + 1⟩
    else readString (start + c.utf8Size) (c :: read) rest

/-- The end of a string, whose escapes are only checked for their form. -/
def skipString : (start : Nat) → Text → Except Spot Cursor
  | start, [] => .error ⟨.eofInString, start⟩
  | start, '"' :: rest => .ok ⟨rest, start + 1⟩
  | start, ['\\'] => .error ⟨.eofInString, start + 1⟩
  | start, '\\' :: 'u' :: rest =>
    match rest with
    | a :: b :: c :: d :: rest' =>
      match hexValue? a b c d with
      | none => .error (badHex ⟨rest, start + 2⟩)
      | some _ => skipString (start + 6) rest'
    | _ => .error (badHex ⟨rest, start + 2⟩)
  | start, '\\' :: e :: rest =>
    match simpleEscape? e with
    | some _ => skipString (start + 2) rest
    | none => .error ⟨.badEscape, start + 2⟩
  | start, c :: rest =>
    if c.toNat < 0x20 then .error ⟨.controlCharacter, start⟩
    else skipString (start + c.utf8Size) rest

def hexDigitChar (n : Nat) : Char := (Nat.digitChar n)

def escaped : Char → Text
  | '"' => "\\\""
  | '\\' => "\\\\"
  | '\x08' => "\\b"
  | '\x0c' => "\\f"
  | '\n' => "\\n"
  | '\r' => "\\r"
  | '\t' => "\\t"
  | c => if c.toNat < 0x20 then
      "\\u00" ++ [hexDigitChar (c.toNat / 16), hexDigitChar (c.toNat % 16)] else [c]

def renderString (t : Text) : Text := "\"" ++ t.flatMap escaped ++ "\""

/-- A character inside quotes of a message: what has no glyph is given by its number. -/
def shownChar : Char → Text
  | '"' => "\\\""
  | '\\' => "\\\\"
  | '\x00' => "\\0"
  | '\n' => "\\n"
  | '\r' => "\\r"
  | '\t' => "\\t"
  | c => if Text.isShown c then [c]
    else "\\u\x7b" ++ Nat.toDigits 16 c.toNat ++ "\x7d"

def shown (t : Text) : Text := "\"" ++ t.flatMap shownChar ++ "\""

end LuaStubs.Json
