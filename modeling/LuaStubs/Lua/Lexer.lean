import LuaStubs.Lua.Quoted

/-! A Lua chunk as a list of tokens, each with the line where it ends. -/
namespace LuaStubs.Lua

/-- What stands at the start of a text: something to skip, a token, or a fault. -/
inductive Scan where
  | skip (line : Nat) (rest : Text)
  | token (token : Token) (line : Nat) (rest : Text)
  | broken (fault : LexFault)

namespace Scan

def quoted (quote : Char) (line : Nat) (t : Text) : Scan :=
  match Short.read quote line t with
  | .ok read => .token (.string read.bytes) read.line read.rest
  | .error fault => .broken fault

def unfinished (what : Text) (start line : Nat) : Scan :=
  .broken ⟨"unfinished long " ++ what ++ " (starting at line " ++ Text.ofNat start ++ ")",
    "<eof>", line⟩

/-- A comment after its two dashes: a long bracket, or the rest of the line. -/
def comment (line : Nat) (t : Text) : Scan :=
  match Long.opening? t with
  | some (level, body) =>
    match Long.read line level body with
    | .ok read => .skip read.line read.rest
    | .error last => unfinished "comment" line last
  | none => .skip line (t.dropWhile fun c => !isNewline c)

/-- A bracket: a long string, or an index. -/
def bracket (line : Nat) (rest : Text) : Scan :=
  match Long.opening? ('[' :: rest) with
  | some (level, body) =>
    match Long.read line level body with
    | .ok read => .token (.string read.bytes) read.line read.rest
    | .error last => unfinished "string" line last
  | none =>
    match rest.takeWhile (· == '=') with
    | [] => .token (.key "[") line rest
    | signs => .broken ⟨"invalid long string delimiter", quote ('[' :: signs), line⟩

def numeral (line : Nat) (t : Text) : Scan :=
  let (read, rest) := takeNumeral t
  if isNumeral read then .token (.number read) line rest
  else .broken ⟨"malformed number", quote read, line⟩

def name (line : Nat) (t : Text) : Scan :=
  let word := t.takeWhile isNameTail
  let token := if keywords.contains word then .key (String.ofList word) else .name word
  .token token line (t.dropWhile isNameTail)

def operators : List String :=
  ["...", "==", "~=", "<=", ">=", "<<", ">>", "//", "::", "..", "+", "-", "*", "/", "%", "^", "#",
    "&", "~", "|", "<", ">", "=", "(", ")", "\x7b", "\x7d", "]", ";", ":", ",", "."]

def operator? (t : Text) : List String → Option (String × Text)
  | [] => none
  | op :: more =>
    match Text.after op t with
    | some rest => some (op, rest)
    | none => operator? t more

def operator (line : Nat) (c : Char) (rest : Text) : Scan :=
  match operator? (c :: rest) operators with
  | some (op, rest) => .token (.key op) line rest
  | none => .token (.stray (((String.utf8EncodeChar c).map UInt8.toNat).headD 0)) line rest

def isPointed : Text → Bool
  | '.' :: d :: _ => d.isDigit
  | _ => false

def next (line : Nat) (c : Char) (rest : Text) : Scan :=
  if isNewline c then .skip (line + 1) (afterNewline c rest)
  else if isSpace c then .skip line rest
  else if Text.startsWith (c :: rest) "--" then comment line (rest.drop 1)
  else if c == '[' then bracket line rest
  else if c == '"' || c == '\'' then quoted c line rest
  else if c.isDigit || isPointed (c :: rest) then numeral line (c :: rest)
  else if isNameHead c then name line (c :: rest)
  else operator line c rest

end Scan

/-- Every scan takes a character, so `fuel` need not exceed the length of the text. -/
def scan : (fuel : Nat) → (line : Nat) → Text → List Lexeme
  | 0, line, _ => [⟨.eof, line⟩]
  | _ + 1, line, [] => [⟨.eof, line⟩]
  | fuel + 1, line, c :: rest =>
    match Scan.next line c rest with
    | .skip line rest => scan fuel line rest
    | .token token line rest => ⟨token, line⟩ :: scan fuel line rest
    | .broken fault => [⟨.broken fault, fault.line⟩]

/-- The tokens of a chunk. The last one is its end, or the fault that stops reading. -/
def lexemes (t : Text) : List Lexeme := scan (t.length + 1) 1 t

end LuaStubs.Lua
