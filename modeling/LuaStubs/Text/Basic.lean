import LuaStubs.Text.Blank

/-! Text as the list of its characters, with the cuts that the library makes in it: at a class of
characters, into words, into lines, at the ends. -/
namespace LuaStubs

/-- A list, so that every definition over text recurses on it and every law is an induction. -/
abbrev Text := List Char

instance : Coe String Text := ⟨String.toList⟩

namespace Text

/-- Cut at every character of a class. The pieces hold no such character, and there is one piece
more than there are cuts. -/
def splitAt (cut : Char → Bool) : Text → List Text
  | [] => [[]]
  | c :: t =>
    if cut c then [] :: splitAt cut t
    else match splitAt cut t with
      | [] => [[c]]
      | piece :: rest => (c :: piece) :: rest

/-- The maximal runs without white space. -/
def words (t : Text) : List Text := (splitAt isBlank t).filter (!·.isEmpty)

def join (sep : Text) (pieces : List Text) : Text := sep.intercalate pieces

/-- White space collapsed: words with one space between them. -/
def collapse (t : Text) : Text := join " " (words t)

def trimStart (t : Text) : Text := t.dropWhile isBlank
def trimEnd (t : Text) : Text := (t.reverse.dropWhile isBlank).reverse
def trim (t : Text) : Text := trimEnd (trimStart t)

/-- One carriage return at the end belongs to the line end after it. -/
def dropReturn (line : Text) : Text :=
  match line.reverse with
  | '\r' :: kept => kept.reverse
  | _ => line

/-- Pieces between line feeds made into lines: a last piece without text is no line, and without a
line feed after it a carriage return stays. -/
def closeLines : List Text → List Text
  | [] => []
  | [last] => if last.isEmpty then [] else [last]
  | piece :: rest => dropReturn piece :: closeLines rest

def lines (t : Text) : List Text := closeLines (splitAt (· == '\n') t)

/-- What follows `start`, where `t` begins with it. -/
def after : (start t : Text) → Option Text
  | [], t => some t
  | _ :: _, [] => none
  | s :: start, c :: t => if s == c then after start t else none

def startsWith (t start : Text) : Bool := (after start t).isSome

def endsWith (t ending : Text) : Bool := startsWith t.reverse ending.reverse

def byteSize : Text → Nat
  | [] => 0
  | c :: t => c.utf8Size + byteSize t

def ofNat (n : Nat) : Text := Nat.toDigits 10 n

/-- Order by code point, which is also the order of the bytes in UTF-8. -/
def le : Text → Text → Bool
  | [], _ => true
  | _ :: _, [] => false
  | a :: s, b :: t => if a = b then le s t else a.toNat < b.toNat

end Text
end LuaStubs
