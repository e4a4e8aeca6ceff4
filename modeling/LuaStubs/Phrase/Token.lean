import LuaStubs.Text.Alphanumeric
import LuaStubs.Text.Basic

/-! Tokens of a written type. White space only separates; `or` and `|` are one token; a word is a
run of letters, numbers, underscores and dots. -/
namespace LuaStubs.Phrase

inductive Token where
  | word (text : Text)
  | or
  | openBrace
  | closeBrace
  | openParen
  | closeParen
  | comma
  | colon
  | ellipsis
  deriving DecidableEq, Repr

structure Placed where
  token : Token
  offset : Nat
  deriving DecidableEq, Repr

inductive Trouble where
  | unexpectedCharacter (c : Char)
  | expectedType
  | expectedCloseParen
  | expectedColon
  | lateEllipsis
  | expectedField
  | expectedFieldEnd
  | trailingInput
  deriving DecidableEq, Repr

def Trouble.message : Trouble → Text
  | .unexpectedCharacter c => "unexpected character `" ++ [c] ++ "`"
  | .expectedType => "expected a type"
  | .expectedCloseParen => "expected `)`"
  | .expectedColon => "expected `:` after field name"
  | .lateEllipsis => "`...` must be the first table entry"
  | .expectedField => "expected a table field"
  | .expectedFieldEnd => "expected `,` or `\x7d`"
  | .trailingInput => "unexpected trailing input"

/-- A refusal and the byte it points at: a token's start, or the end of the text. -/
structure Error where
  trouble : Trouble
  offset : Nat
  deriving DecidableEq, Repr

def Error.message (e : Error) : Text :=
  e.trouble.message ++ " at offset " ++ Text.ofNat e.offset

def isWordPart (c : Char) : Bool := Text.isNameChar c || c == '.'

def Token.ofChar : Char → Option Token
  | '\x7b' => some .openBrace
  | '\x7d' => some .closeBrace
  | '(' => some .openParen
  | ')' => some .closeParen
  | ',' => some .comma
  | ':' => some .colon
  | '|' => some .or
  | _ => none

def Token.ofWord (text : Text) : Token := if text = ("or" : Text) then .or else .word text

/-- The word whose characters were read, last first, up to byte `stop`. -/
def endWord (stop : Nat) (read : Text) : List Placed :=
  if read.isEmpty then []
  else [⟨.ofWord read.reverse, stop - Text.byteSize read⟩]

/-- Tokens from byte `start` on, where `read` holds the characters of a word that is still open, last
first. Dots inside a word belong to it; only between tokens do three of them make an ellipsis. -/
def tokensFrom : (start : Nat) → (read : Text) → Text → Except Error (List Placed)
  | start, read, [] => .ok (endWord start read)
  | start, read, '.' :: '.' :: '.' :: rest =>
    if read.isEmpty then (⟨.ellipsis, start⟩ :: ·) <$> tokensFrom (start + 3) [] rest
    else tokensFrom (start + 3) ('.' :: '.' :: '.' :: read) rest
  | start, read, c :: rest =>
    if isWordPart c then tokensFrom (start + c.utf8Size) (c :: read) rest
    else match Token.ofChar c with
      | some token =>
        (endWord start read ++ ⟨token, start⟩ :: ·) <$> tokensFrom (start + c.utf8Size) [] rest
      | none =>
        if Text.isBlank c then
          (endWord start read ++ ·) <$> tokensFrom (start + c.utf8Size) [] rest
        else .error ⟨.unexpectedCharacter c, start⟩

def tokens (t : Text) : Except Error (List Placed) := tokensFrom 0 [] t

end LuaStubs.Phrase
