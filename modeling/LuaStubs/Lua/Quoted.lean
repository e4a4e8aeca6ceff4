import LuaStubs.Lua.Token
import LuaStubs.Lua.Numeral

/-! Strings of Lua: between quotes with escapes, and between long brackets without. -/
namespace LuaStubs.Lua

def isNewline (c : Char) : Bool := c == '\n' || c == '\r'

def isSpace (c : Char) : Bool :=
  c == ' ' || c == '\t' || c == '\n' || c == '\x0b' || c == '\x0c' || c == '\r'

/-- A line feed and a carriage return, in either order, are one line end. -/
def afterNewline (c : Char) : Text → Text
  | d :: rest => if isNewline d && d != c then rest else d :: rest
  | [] => []

/-- What is read of a token, what is left, and the line reached. -/
structure Reading where
  bytes : Text.Bytes
  rest : Text
  line : Nat
  deriving Repr

namespace Long

/-- The level and the body of what opens with a long bracket. -/
def opening? : Text → Option (Nat × Text)
  | '[' :: rest =>
    let level := (rest.takeWhile (· == '=')).length
    match rest.drop level with
    | '[' :: body => some (level, body)
    | _ => none
  | _ => none

/-- The text up to a closing bracket, every line end as a line feed; without one, the line where
the text ends. -/
def body (close : Text) (line : Nat) : Text → Except Nat Reading
  | [] => .error line
  | c :: rest =>
    if c == ']' && Text.startsWith rest close then .ok ⟨[], rest.drop close.length, line⟩
    else if isNewline c then
      match rest with
      | [] => .error (line + 1)
      | d :: rest' =>
        if isNewline d && d != c then push [10] (body close (line + 1) rest')
        else push [10] (body close (line + 1) (d :: rest'))
    else push (String.utf8EncodeChar c) (body close line rest)
where
  push (bytes : Text.Bytes) (read : Except Nat Reading) : Except Nat Reading :=
    read.map fun read => { read with bytes := bytes ++ read.bytes }

/-- A long string with its brackets. A line end right after the opening one is dropped. -/
def read (line level : Nat) (t : Text) : Except Nat Reading :=
  let signs := List.replicate level '='
  let start := match t with
    | c :: rest => if isNewline c then (line + 1, afterNewline c rest) else (line, t)
    | [] => (line, t)
  (body (signs ++ [']']) start.1 start.2).map fun read =>
    { read with bytes := Text.utf8 ('[' :: signs ++ ['[']) ++ read.bytes ++
        Text.utf8 (']' :: signs ++ [']']) }

end Long

namespace Short

def hexValue (c : Char) : Nat :=
  if c.isDigit then c.toNat - '0'.toNat
  else if 'a' ≤ c then c.toNat - 'a'.toNat + 10
  else c.toNat - 'A'.toNat + 10

def plain? : Char → Option UInt8
  | 'a' => some 7
  | 'b' => some 8
  | 'f' => some 12
  | 'n' => some 10
  | 'r' => some 13
  | 't' => some 9
  | 'v' => some 11
  | '\\' => some 92
  | '"' => some 34
  | '\'' => some 39
  | _ => none

/-- The continuation bytes of a code, `n` of them. -/
def tails : Nat → Nat → Text.Bytes
  | 0, _ => []
  | n + 1, code => tails n (code / 0x40) ++ [UInt8.ofNat (0x80 + code % 0x40)]

/-- UTF-8 stretched to codes of 31 bits. -/
def encode (code : Nat) : Text.Bytes :=
  if code < 0x80 then [UInt8.ofNat code]
  else if code < 0x800 then UInt8.ofNat (0xC0 + code / 0x40) :: tails 1 code
  else if code < 0x10000 then UInt8.ofNat (0xE0 + code / 0x1000) :: tails 2 code
  else if code < 0x200000 then UInt8.ofNat (0xF0 + code / 0x40000) :: tails 3 code
  else if code < 0x4000000 then UInt8.ofNat (0xF8 + code / 0x1000000) :: tails 4 code
  else UInt8.ofNat (0xFC + code / 0x40000000) :: tails 5 code

/-- A faulty escape: the message shows the string up to the byte that is at fault. -/
def fault (line : Nat) (before : Text.Bytes) (read rest : Text) (message : Text) : LexFault :=
  let bad := match rest with
    | c :: _ => (String.utf8EncodeChar c).take 1
    | [] => []
  ⟨message, quoteBytes (before ++ Text.utf8 ('\\' :: read) ++ bad), line⟩

/-- The digits of a code between braces, added to `value`. -/
def codeDigits (line : Nat) (before : Text.Bytes) (read : Text) (value : Nat) :
    Text → Except LexFault (Nat × Text)
  | [] => .error (fault line before read [] "missing '\x7d'")
  | c :: rest =>
    if isHexDigit c then
      if value ≤ 0x7FFFFFF then
        codeDigits line before (read ++ [c]) (value * 16 + hexValue c) rest
      else .error (fault line before read (c :: rest) "UTF-8 value too large")
    else if c == '\x7d' then .ok (value, rest)
    else .error (fault line before read (c :: rest) "missing '\x7d'")

def code (line : Nat) (before : Text.Bytes) : Text → Except LexFault (Nat × Text)
  | '\x7b' :: rest =>
    match rest with
    | c :: rest' =>
      if isHexDigit c then codeDigits line before ['u', '\x7b', c] (hexValue c) rest'
      else .error (fault line before ['u', '\x7b'] rest "hexadecimal digit expected")
    | [] => .error (fault line before ['u', '\x7b'] [] "hexadecimal digit expected")
  | rest => .error (fault line before ['u'] rest "missing '\x7b'")

def hexByte (line : Nat) (before : Text.Bytes) : Text → Except LexFault (Nat × Text)
  | c :: d :: rest =>
    if isHexDigit c then
      if isHexDigit d then .ok (hexValue c * 16 + hexValue d, rest)
      else .error (fault line before ['x', c] (d :: rest) "hexadecimal digit expected")
    else .error (fault line before ['x'] (c :: d :: rest) "hexadecimal digit expected")
  | [c] =>
    if isHexDigit c then .error (fault line before ['x', c] [] "hexadecimal digit expected")
    else .error (fault line before ['x'] [c] "hexadecimal digit expected")
  | [] => .error (fault line before ['x'] [] "hexadecimal digit expected")

def decimalByte (line : Nat) (before : Text.Bytes) (t : Text) : Except LexFault (Nat × Text) :=
  let digits := (t.take 3).takeWhile Char.isDigit
  let rest := t.drop digits.length
  let value := digits.foldl (fun n c => n * 10 + hexValue c) 0
  if digits.isEmpty then .error (fault line before [] t "invalid escape sequence")
  else if value ≤ 255 then .ok (value, rest)
  else .error (fault line before digits rest "decimal escape too large")

/-- White space after an escape that skips it. -/
def skipSpace (line : Nat) : Text → Nat × Text
  | [] => (line, [])
  | c :: rest =>
    if isNewline c then
      match rest with
      | [] => (line + 1, [])
      | d :: rest' =>
        if isNewline d && d != c then skipSpace (line + 1) rest'
        else skipSpace (line + 1) (d :: rest')
    else if isSpace c then skipSpace line rest
    else (line, c :: rest)

/-- The bytes of an escape after its backslash; `before` is the string up to there. -/
def escape (line : Nat) (before : Text.Bytes) (t : Text) : Except LexFault Reading :=
  match t with
  | [] => .ok ⟨[], [], line⟩
  | c :: rest =>
    match plain? c with
    | some byte => .ok ⟨[byte], rest, line⟩
    | none =>
      if c == 'x' then
        (hexByte line before rest).map fun (value, rest) => ⟨[UInt8.ofNat value], rest, line⟩
      else if c == 'u' then
        (code line before rest).map fun (value, rest) => ⟨encode value, rest, line⟩
      else if c == 'z' then
        let (line, rest) := skipSpace line rest
        .ok ⟨[], rest, line⟩
      else if isNewline c then .ok ⟨[10], afterNewline c rest, line + 1⟩
      else (decimalByte line before t).map fun (value, rest) => ⟨[UInt8.ofNat value], rest, line⟩

/-- The string after its opening quote, which `before` starts with. Every step takes a character, so
`fuel` need not exceed the length of the text. -/
def body (quote : Char) : (fuel : Nat) → (line : Nat) → (before : Text.Bytes) → Text →
    Except LexFault Reading
  | 0, line, _, _ => .error ⟨"unfinished string", "<eof>", line⟩
  | _ + 1, line, _, [] => .error ⟨"unfinished string", "<eof>", line⟩
  | fuel + 1, line, before, c :: rest =>
    if c == quote then .ok ⟨before ++ String.utf8EncodeChar c, rest, line⟩
    else if isNewline c then .error ⟨"unfinished string", quoteBytes before, line⟩
    else if c == '\\' then do
      let read ← escape line before rest
      body quote fuel read.line (before ++ read.bytes) read.rest
    else body quote fuel line (before ++ String.utf8EncodeChar c) rest

def read (quote : Char) (line : Nat) (t : Text) : Except LexFault Reading :=
  body quote (t.length + 1) line (String.utf8EncodeChar quote) t

end Short

end LuaStubs.Lua
