import LuaStubs.Text.Basic

/-! Alternatives of a written type that is outside the grammar: its text is cut at `|` and at ` or `
wherever no bracket is open. -/
namespace LuaStubs.Phrase

/-- How a character changes the number of open brackets. -/
def nesting : Char → Int
  | '\x7b' | '(' | '[' | '<' => 1
  | '\x7d' | ')' | ']' | '>' => -1
  | _ => 0

def consFirst (c : Char) : List Text → List Text
  | [] => [[c]]
  | piece :: rest => (c :: piece) :: rest

/-- The pieces between separators at depth 0, where `depth` brackets are open at the start. -/
def cut : (depth : Int) → Text → List Text
  | _, [] => [[]]
  | depth, ' ' :: 'o' :: 'r' :: ' ' :: rest =>
    if depth = 0 then [] :: cut depth rest
    else consFirst ' ' (consFirst 'o' (consFirst 'r' (consFirst ' ' (cut depth rest))))
  | depth, c :: rest =>
    let depth' := depth + nesting c
    if c = '|' && depth' = 0 then [] :: cut depth' rest
    else consFirst c (cut depth' rest)

/-- The alternatives, trimmed, without empty ones. -/
def alternatives (t : Text) : List Text := ((cut 0 t).map Text.trim).filter (!·.isEmpty)

end LuaStubs.Phrase
