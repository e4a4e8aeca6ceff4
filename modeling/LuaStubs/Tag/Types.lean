import LuaStubs.Tag.Portion
import LuaStubs.Remark

/-! What the type of a tag may not hold: a fragment of a name of several words, and a union
in words. -/
namespace LuaStubs.Tag

def isPathChar (c : Char) : Bool := Text.isNameChar c || c == '.'

/-- Whether some occurrence of `word` has a property of the character before it and of the text from
it on. Occurrences do not overlap: after one, its length is skipped. -/
def anyOccurrence (word : Text) (holds : Option Char → Text → Bool) :
    (skip : Nat) → (before : Option Char) → Text → Bool
  | 0, before, [] => word.isEmpty && holds before []
  | _ + 1, _, [] => false
  | 0, before, c :: rest =>
    if Text.startsWith (c :: rest) word then
      holds before (c :: rest) || anyOccurrence word holds (word.length - 1) (some c) rest
    else anyOccurrence word holds 0 (some c) rest
  | skip + 1, _, c :: rest => anyOccurrence word holds skip (some c) rest

/-- A fragment that stands alone: no part of a longer name, no field name, and not completed. -/
def isBare (fragment : Text) (completions : List Text) (before : Option Char) (t : Text) : Bool :=
  let behind := t.drop fragment.length
  !before.any isPathChar && !behind.head?.any isPathChar &&
    !Text.startsWith (Text.trimStart behind) ":" && !completions.any (Text.startsWith t)

def hasBareFragment (portion fragment : Text) (completions : List Text) : Bool :=
  anyOccurrence fragment (isBare fragment completions) 0 none portion

def fragmentMessage (fragment : Text) (completions : List Text) : Text :=
  "`" ++ fragment ++ "` is an incomplete type name (expected " ++ Text.join " / " completions ++ ")"

/-- The remarks on one line, in the order of the fragments. -/
def fragmentRemarksOn (fragments : List (Text × List Text)) (t : TypedLine) : List Remark :=
  fragments.filterMap fun (fragment, completions) =>
    if hasBareFragment t.portion fragment completions then
      some ⟨t.line, .fragment, fragmentMessage fragment completions, t.text⟩
    else none

def fragmentRemarks (fragments : List (Text × List Text)) (typed : List TypedLine) : List Remark :=
  typed.flatMap (fragmentRemarksOn fragments)

def braceNesting : Char → Int
  | '\x7b' => 1
  | '\x7d' => -1
  | _ => 0

/-- Whether ` or ` stands outside braces, of which `depth` are open. -/
def hasOrAt : (depth : Int) → Text → Bool
  | _, [] => false
  | depth, c :: rest =>
    (c == ' ' && depth == 0 && Text.startsWith rest "or ") || hasOrAt (depth + braceNesting c) rest

def hasTopLevelOr (portion : Text) : Bool := hasOrAt 0 portion

def unionRemarks (typed : List TypedLine) : List Remark :=
  (typed.filter fun t => hasTopLevelOr t.portion).map fun t =>
    ⟨t.line, .union, "un-normalized union in `" ++ t.portion ++ "`", t.text⟩

end LuaStubs.Tag
