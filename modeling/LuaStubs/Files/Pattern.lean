import LuaStubs.Text.Basic

/-! Patterns of file names: `?` is any character, `*` any characters, `[ab-d]` one of a set, `[!ab]` one
outside a set, and `**` alone between slashes any directories. -/
namespace LuaStubs.Files

inductive CharSet where
  | one (c : Char)
  | range (first last : Char)
  deriving DecidableEq, Repr

def CharSet.contains (c : Char) : CharSet → Bool
  | .one d => c == d
  | .range first last => first ≤ c && c ≤ last

inductive Piece where
  | char (c : Char)
  | anyChar
  | anyText
  | anyDirectories
  | within (sets : List CharSet)
  | outside (sets : List CharSet)
  deriving DecidableEq, Repr

abbrev Pattern := List Piece

inductive PatternTrouble where
  | range
  | stars
  | directories
  deriving DecidableEq, Repr

structure PatternError where
  position : Nat
  trouble : PatternTrouble
  deriving DecidableEq, Repr

def PatternTrouble.message : PatternTrouble → Text
  | .range => "invalid range pattern"
  | .stars => "wildcards are either regular `*` or recursive `**`"
  | .directories => "recursive wildcards must form a single path component"

def PatternError.message (e : PatternError) : Text :=
  "Pattern syntax error near position " ++ Text.ofNat e.position ++ ": " ++ e.trouble.message

namespace Pattern

def charSets : Text → List CharSet
  | first :: '-' :: last :: rest => .range first last :: charSets rest
  | c :: rest => .one c :: charSets rest
  | [] => []

/-- A set after its opening bracket, and what follows it. The first character never closes it. -/
def set? : Text → Option (Piece × Text)
  | '!' :: first :: rest =>
    match rest.dropWhile (· != ']') with
    | _ :: behind => some (.outside (charSets (first :: rest.takeWhile (· != ']'))), behind)
    | [] => none
  | first :: rest =>
    if first == '!' then none
    else match rest.dropWhile (· != ']') with
      | _ :: behind => some (.within (charSets (first :: rest.takeWhile (· != ']'))), behind)
      | [] => none
  | [] => none

/-- Stars at a position, with the character before them and the text behind them. -/
def stars (position count : Nat) (before : Option Char) (rest : Text) :
    Except PatternError (Piece × Text) :=
  if 2 < count then .error ⟨position + 2, .stars⟩
  else if count = 2 then
    if before.all (· == '/') then
      match rest with
      | [] => .ok (.anyDirectories, [])
      | '/' :: rest => .ok (.anyDirectories, rest)
      | _ => .error ⟨position + 2, .directories⟩
    else .error ⟨position - 1, .directories⟩
  else .ok (.anyText, rest)

/-- Read a pattern from a position on. Every step takes a character, so `fuel` need not exceed the
length of the text. -/
def parseFrom (whole : Nat) : (fuel : Nat) → (before : Option Char) → Text →
    Except PatternError Pattern
  | 0, _, _ => .ok []
  | _ + 1, _, [] => .ok []
  | fuel + 1, before, c :: rest =>
    let position := whole - (rest.length + 1)
    if c == '?' then do
      return .anyChar :: (← parseFrom whole fuel (some c) rest)
    else if c == '*' then do
      let count := (rest.takeWhile (· == '*')).length + 1
      let (piece, behind) ← stars position count before (rest.drop (count - 1))
      let last := if behind.length < (rest.drop (count - 1)).length then '/' else '*'
      return piece :: (← parseFrom whole fuel (some last) behind)
    else if c == '[' then
      match set? rest with
      | some (piece, behind) => do return piece :: (← parseFrom whole fuel (some ']') behind)
      | none => .error ⟨position, .range⟩
    else do
      return .char c :: (← parseFrom whole fuel (some c) rest)

def parse (t : Text) : Except PatternError Pattern := parseFrom t.length (t.length + 1) none t

def isRecursive (p : Pattern) : Bool := p.contains .anyDirectories

def literal? (p : Pattern) : Option Text := p.mapM fun
  | .char c => some c
  | _ => none

def Piece.allows (c : Char) : Piece → Bool
  | .char d => c == d
  | .anyChar => true
  | .within sets => sets.any (CharSet.contains c)
  | .outside sets => !sets.any (CharSet.contains c)
  | .anyText | .anyDirectories => false

def anySuffix (holds : Text → Bool) : Text → Bool
  | [] => holds []
  | c :: rest => holds (c :: rest) || anySuffix holds rest

/-- Whether a pattern is a name, from its first to its last character. -/
def isMatch : Pattern → Text → Bool
  | [], t => t.isEmpty
  | .anyText :: p, t => anySuffix (isMatch p) t
  | .anyDirectories :: p, t => anySuffix (isMatch p) t
  | piece :: p, c :: t => Piece.allows c piece && isMatch p t
  | _ :: _, [] => false

/-- The pattern of exactly one text. -/
def escape (t : Text) : Text :=
  t.flatMap fun c => if c == '?' || c == '*' || c == '[' || c == ']' then ['[', c, ']'] else [c]

end Pattern

end LuaStubs.Files
