import LuaStubs.Json.Shape
import LuaStubs.TypeTable

/-! A type table from a JSON text. What the text leaves out is taken from the built-in table. -/
namespace LuaStubs.TypeTable

open Json (Reader Entry Record putMember)

structure Changes where
  primitives : Option (List Text) := none
  aliases : Option (List (Text × Text)) := none
  multiWord : Option (List (Text × Text)) := none
  completeFragments : Option Bool := none
  deriving DecidableEq, Repr

def changeField (name : Text) (reader : Reader α) (set : Option α → Changes → Changes) :
    Entry Changes where
  name := name
  requiredInArray := true
  read mode t := (Reader.optional reader mode t).map set

def changesRecord : Record Changes where
  title := "TypeTableFile"
  closed := true
  blank := {}
  fields := [
    changeField "primitives" (.list .text) fun v c => { c with primitives := v },
    changeField "aliases" (.map .text) fun v c => { c with aliases := v },
    changeField "multi_word" (.map .text) fun v c => { c with multiWord := v },
    changeField "complete_fragments" .bool fun v c => { c with completeFragments := v }]

/-- White space in names is collapsed; names that become equal keep the first place and the last
spelling. -/
def collapseNames (names : List (Text × Text)) : List (Text × Text) :=
  names.foldl (fun kept (name, spelling) => putMember kept (Text.collapse name) spelling) []

def Changes.apply (c : Changes) (table : TypeTable) : TypeTable where
  primitives := c.primitives.getD table.primitives
  aliases := c.aliases.getD table.aliases
  multiWord := (c.multiWord.map collapseNames).getD table.multiWord
  completeFragments := c.completeFragments.getD table.completeFragments

/-- The text must hold one value and nothing after it. -/
def ofJson (t : Text) : Except Text TypeTable :=
  let (tree, stop) := Json.document t
  let stop := stop.skipSpace
  match changesRecord.reader ⟨Json.maxRoom, false⟩ tree with
  | .error f => .error <| match f.problem with
    | .flaw spot => spot.flaw.message ++ Json.atPosition t spot.offset
    | .mismatch m offset => m.message ++ Json.atPosition t (offset.getD 0)
  | .ok changes =>
    if stop.rest.isEmpty then .ok (changes.apply builtin)
    else
      let spot := stop.spotNext .trailingCharacters
      .error (spot.flaw.message ++ Json.atPosition t spot.offset)

end LuaStubs.TypeTable
