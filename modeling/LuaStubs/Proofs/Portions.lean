import LuaStubs.Proofs.Brackets
import LuaStubs.Proofs.Occurrences
import LuaStubs.Proofs.Tags

/-! What is read as the type of a tag, where the type that was written has white space in brackets
only. -/
namespace LuaStubs.Tag

open Phrase (Enclosed BlanksInside)

theorem cutBlank_append {before : Int} {t : Text} (inside : BlanksInside before t) (rest : Text) :
    cutBlank before (t ++ rest) =
      t.foldr Phrase.consFirst (cutBlank (before + Phrase.depth t) rest) := by
  induction t generalizing before with
  | nil => simp
  | cons c t ih =>
    have kept : (Text.isBlank c && decide (before + Phrase.nesting c = 0)) = false := by
      refine Bool.eq_false_iff.mpr fun cuts => ?_
      simp only [Bool.and_eq_true,decide_eq_true_eq] at cuts
      have := inside.1 cuts.1
      rw [Phrase.nesting_of_blank cuts.1] at cuts
      omega
    rw [List.cons_append,cutBlank]
    simp only [kept,ih inside.2,List.foldr_cons,Phrase.depth_cons,Int.add_assoc]
    rfl

theorem cutBlank_enclosed {t : Text} (enclosed : Enclosed 0 t) : cutBlank 0 t = [t] := by
  have whole := cutBlank_append enclosed.blanks []
  rwa [List.append_nil,enclosed.closed,cutBlank,Phrase.foldr_consFirst,List.append_nil] at whole

theorem cutBlank_enclosed_space {t : Text} (enclosed : Enclosed 0 t) (rest : Text) :
    cutBlank 0 (t ++ ' ' :: rest) = t :: cutBlank 0 rest := by
  have step : cutBlank 0 (' ' :: rest) = [] :: cutBlank 0 rest := rfl
  rw [cutBlank_append enclosed.blanks,enclosed.closed,Int.add_zero,step,Phrase.foldr_consFirst,
    List.append_nil]

/-- The text of a type with white space in brackets only, so that it is read as one word. -/
structure Compact (t : Text) : Prop where
  enclosed : Enclosed 0 t
  nonempty : t ≠ []
  unmarked : '#' ∉ t

theorem Compact.trimmed {t : Text} (compact : Compact t) : Text.Trimmed t := compact.enclosed.trimmed

theorem compact_name {name : Text} (valid : Lua.isName name = true) : Compact name := by
  have parts := Phrase.wordParts_of_name valid
  refine ⟨.of_wordParts parts,?_,?_⟩
  · rintro rfl
    simp [Lua.isName] at valid
  · intro mark
    exact absurd (parts '#' mark) (by decide)

theorem Compact.outerWords {t : Text} (compact : Compact t) : outerWords t = [t] := by
  simp [Tag.outerWords,cutBlank_enclosed compact.enclosed,compact.nonempty]

theorem Compact.outerWords_space {t name : Text} (compact : Compact t) (named : Compact name) :
    Tag.outerWords (t ++ ' ' :: name) = [t, name] := by
  simp [Tag.outerWords,cutBlank_enclosed_space compact.enclosed,cutBlank_enclosed named.enclosed,
    compact.nonempty,named.nonempty]

/-- A type alone is all type. -/
theorem Compact.unnamed {names : List Text} {t : Text} (compact : Compact t) :
    unnamed names t = t := by
  simp [Tag.unnamed,compact.outerWords]

/-- A name behind a type is no part of it, unless both together end in a name of several words. -/
theorem Compact.unnamed_name (names : List Text) {t name : Text} (compact : Compact t)
    (notOr : t ≠ ("or" : Text)) (valid : Lua.isName name = true) :
    Tag.unnamed names (t ++ ' ' :: name) =
      if names.any (Text.endsWith (t ++ ' ' :: name)) then t ++ ' ' :: name else t := by
  have chars : name.all Text.isNameChar = true := List.all_eq_true.mpr fun c member =>
    Phrase.nameChar_of_nameTail (Phrase.nameTails_of_name valid c member)
  have other : name ≠ ("or" : Text) := by rintro rfl; revert valid; decide
  have before : (t ++ ' ' :: name).take ((t ++ ' ' :: name).length - name.length) = t ++ [' '] := by
    rw [List.append_cons,List.length_append,Nat.add_sub_cancel,List.take_left]
  unfold Tag.unnamed
  rw [compact.outerWords_space (compact_name valid)]
  simp only [List.reverse_cons,List.reverse_nil,List.nil_append,List.cons_append,chars,notOr,other,
    before,Text.trimEnd_append_blank (show Text.isBlank ' ' = true by decide),compact.trimmed.trimEnd]
  simp

theorem Compact.unnamed_space (names : List Text) {t name : Text} (compact : Compact t)
    (notOr : t ≠ ("or" : Text)) (valid : Lua.isName name = true) :
    Tag.unnamed names (t ++ ' ' :: name) = t ∨
      Tag.unnamed names (t ++ ' ' :: name) = t ++ ' ' :: name ∧
        ∃ known ∈ names, Text.endsWith (t ++ ' ' :: name) known = true := by
  rw [compact.unnamed_name names notOr valid]
  split
  · rename_i ends
    exact Or.inr ⟨rfl,List.any_eq_true.mp ends⟩
  · exact Or.inl rfl

/-- What is read of a line before the mark of its description. -/
theorem trim_undescribed {body more : Text} (unmarked : '#' ∉ body)
    (described : more = [] ∨ ∃ rest, more = ' ' :: '#' :: rest) :
    Text.trim (undescribed (' ' :: (body ++ more))) = Text.trim body := by
  have plain : ∀ c ∈ body, (c != '#') = true := by
    intro c member
    have other : c ≠ '#' := fun same => unmarked (same ▸ member)
    simpa using other
  rw [undescribed,List.takeWhile_cons_of_pos (by decide),List.takeWhile_append_of_pos plain,
    Text.trim_cons_blank (by decide)]
  rcases described with rfl | ⟨rest,rfl⟩
  · simp
  · exact Text.trim_append_blank (by decide) body

/-- The type of a parameter is what stands behind its name. -/
theorem type_param_around {names : List Text} {name u type v more : Text}
    (valid : Stub.IsParamName name) (trimmed : Text.Trimmed type) (nonempty : type ≠ [])
    (unmarked : '#' ∉ u ++ type ++ v) (described : more = [] ∨ ∃ rest, more = ' ' :: '#' :: rest) :
    type? names ("---@param " ++ name ++ " " ++ (u ++ type ++ v) ++ more) =
      some (Text.trimStart u ++ type ++ Text.trimEnd v) := by
  have line : ("---@param " : Text) ++ name ++ " " ++ (u ++ type ++ v) ++ more =
      ("---@param" : Text) ++ ' ' :: (name ++ ' ' :: (u ++ type ++ v) ++ more) := by
    simp
  have read : read? (("---@param" : Text) ++ ' ' :: (name ++ ' ' :: (u ++ type ++ v) ++ more)) =
    some (.param, ' ' :: (name ++ ' ' :: (u ++ type ++ v) ++ more)) := rfl
  have unblank := unblank_of_paramName valid
  have spaced : '#' ∉ name ++ ' ' :: (u ++ type ++ v) := by
    refine List.not_mem_append (not_mem_paramName valid (by decide)) ?_
    exact List.not_mem_cons_of_ne_of_not_mem (by decide) unmarked
  have body : Text.trim (name ++ ' ' :: (u ++ type ++ v)) =
      name ++ (' ' :: u ++ type ++ Text.trimEnd v) := by
    have ends := trimmed.trimEnd_around nonempty (name ++ ' ' :: u) v
    have starts := (Text.trimmed_of_unblank unblank).trimStart_around (paramName_ne_nil valid) []
      (' ' :: (u ++ type ++ v))
    simp only [Text.trim,List.nil_append,Text.trimStart,List.dropWhile_nil] at starts ends ⊢
    rw [starts]
    simpa using ends
  have behind : (name ++ (' ' :: u ++ type ++ Text.trimEnd v)).dropWhile (!Text.isBlank ·) =
      ' ' :: (u ++ type ++ Text.trimEnd v) := by
    rw [List.dropWhile_append_of_pos (by simpa using unblank),List.cons_append,List.cons_append,
      List.dropWhile_cons_of_neg (by decide)]
  rw [line,type?,read]
  simp only [portion?,trim_undescribed spaced described,body,behind]
  rw [Text.trim_cons_blank (by decide),trimmed.trim_around nonempty,Text.trimEnd_trimEnd]
  simp [nonempty]

theorem type_param_trimmed {names : List Text} {name type more : Text} (valid : Stub.IsParamName name)
    (trimmed : Text.Trimmed type) (nonempty : type ≠ []) (unmarked : '#' ∉ type)
    (described : more = [] ∨ ∃ rest, more = ' ' :: '#' :: rest) :
    type? names ("---@param " ++ name ++ " " ++ type ++ more) = some type := by
  have read : type? names _ = _ := type_param_around (u := []) (v := []) valid trimmed nonempty
    (by simpa using unmarked) described
  simpa [Text.trimStart,Text.trimEnd] using read

theorem type_param {names : List Text} {name type more : Text} (valid : Stub.IsParamName name)
    (compact : Compact type) (described : more = [] ∨ ∃ rest, more = ' ' :: '#' :: rest) :
    type? names ("---@param " ++ name ++ " " ++ type ++ more) = some type :=
  type_param_trimmed valid compact.trimmed compact.nonempty compact.unmarked described

theorem type_returned {names : List Text} {body more : Text} (unmarked : '#' ∉ body)
    (described : more = [] ∨ ∃ rest, more = ' ' :: '#' :: rest) :
    type? names ("---@return " ++ body ++ more) =
      (some (unnamed names (Text.trim body))).filter (!·.isEmpty) := by
  have line : ("---@return " : Text) ++ body ++ more =
      ("---@return" : Text) ++ ' ' :: (body ++ more) := by
    simp
  have read : read? (("---@return" : Text) ++ ' ' :: (body ++ more)) =
    some (.returned, ' ' :: (body ++ more)) := rfl
  rw [line,type?,read]
  simp only [portion?,trim_undescribed unmarked described]

theorem Compact.type_alone {names : List Text} {t more : Text} (compact : Compact t)
    (described : more = [] ∨ ∃ rest, more = ' ' :: '#' :: rest) :
    type? names ("---@return " ++ t ++ more) = some t := by
  rw [type_returned compact.unmarked described,compact.trimmed.trim,compact.unnamed]
  simp [compact.nonempty]

theorem Compact.type_named {names : List Text} {t name more : Text} (compact : Compact t)
    (notOr : t ≠ ("or" : Text)) (valid : Lua.isName name = true)
    (described : more = [] ∨ ∃ rest, more = ' ' :: '#' :: rest) :
    type? names ("---@return " ++ (t ++ ' ' :: name) ++ more) =
      some (Tag.unnamed names (t ++ ' ' :: name)) := by
  have body := compact_name valid
  have trimmed := compact.trimmed.append_cons ' ' compact.nonempty body.trimmed body.nonempty
  have unmarked : '#' ∉ t ++ ' ' :: name := List.not_mem_append compact.unmarked
    (List.not_mem_cons_of_ne_of_not_mem (by decide) body.unmarked)
  have some : Tag.unnamed names (t ++ ' ' :: name) ≠ [] := by
    rw [compact.unnamed_name names notOr valid]
    split
    · simp
    · exact compact.nonempty
  rw [type_returned unmarked described,trimmed.trim]
  simp [some]

end LuaStubs.Tag
