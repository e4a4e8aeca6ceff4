import LuaStubs.Proofs.Brackets
import LuaStubs.Proofs.Occurrences

/-! The text of a type as a whole: where words and brackets stand in it. -/
namespace LuaStubs

open Phrase (Enclosed IsWord)
open Tag (FieldOnly IsRun)

namespace LuaType

variable {type : LuaType}

theorem Over.fieldOnly {word : Text} (made : type.Over (FieldOnly word)) (run : IsRun word)
    (notTable : ("table" : Text) ≠ word) (notAny : ("any" : Text) ≠ word) :
    FieldOnly word type.render := by
  have table : FieldOnly word "table" := .of_run ⟨by decide,by decide⟩ notTable
  have any : FieldOnly word "any" := .of_run ⟨by decide,by decide⟩ notAny
  have none : FieldOnly word [] := .of_marks run (by simp)
  have between {a marks b : Text} (first : FieldOnly word a) (some : marks ≠ [])
      (each : ∀ c ∈ marks, Tag.isPathChar c = false) (second : FieldOnly word b) :
      FieldOnly word (a ++ marks ++ b) := first.append_marks run some each second
  have entries : FieldOnly word ("table" ++ "<" ++ "any" ++ ", " ++ "any" ++ ">" ++ "") :=
    between (between (between table (by decide) (by decide) any) (by decide) (by decide) any)
      (by decide) (by decide) none
  have entry : FieldOnly word ("" ++ "[" ++ "any" ++ "]: " ++ "any") :=
    between (between none (by decide) (by decide) any) (by decide) (by decide) any
  have kept : Kept (FieldOnly word) (FieldOnly word) (FieldOnly word) := {
    leaves := fun _ fields => fields
    union := fun _ _ all => .join run (by decide) (by decide) all
    bare := table
    entries := entries
    field := fun _ _ isWord typed => .field run isWord.parts typed
    entry := entry
    braced := fun fields all => by
      have inside := FieldOnly.join run (by decide) (by decide : ∀ c ∈ (", " : Text), _) all
      simpa using between (between none (by decide) (by decide : ∀ c ∈ ("\x7b" : Text), _) inside)
        (by decide) (by decide : ∀ c ∈ ("\x7d" : Text), _) none }
  exact made.render kept

theorem Over.enclosed {around : Int} (nonneg : 0 ≤ around) (made : type.Over (Enclosed around)) :
    Enclosed around type.render := by
  have literal {t : Text} (enclosed : Enclosed 0 t) : Enclosed around t := enclosed.mono nonneg
  have inner {t : Text} (enclosed : Enclosed 1 t) : Enclosed (around + 1) t :=
    enclosed.mono (by omega)
  have kept : Kept (Enclosed around) (Enclosed around) (Enclosed (around + 1)) := {
    leaves := fun _ enclosed => enclosed
    union := fun _ _ all => .join (literal ⟨by decide,by decide⟩) all
    bare := literal ⟨by decide,by decide⟩
    entries := literal ⟨by decide,by decide⟩
    field := fun name _ isWord typed =>
      have named : Enclosed (around + 1) name := .of_wordParts isWord.parts
      (named.append (inner ⟨by decide,by decide⟩)).append (typed.mono (by omega))
    entry := inner ⟨by decide,by decide⟩
    braced := fun _ all => .bracketed rfl rfl (.join (inner ⟨by decide,by decide⟩) all) }
  exact made.render kept

theorem Over.unmarked (made : type.Over IsWord) : '#' ∉ type.render := by
  have name {w : Text} (isWord : IsWord w) : '#' ∉ w := fun mark =>
    absurd (isWord.parts '#' mark) (by decide)
  have join {sep : Text} {parts : List Text} (between : '#' ∉ sep) (each : ∀ part ∈ parts, '#' ∉ part) :
      '#' ∉ Text.join sep parts := by
    intro mark
    rcases Text.mem_join mark with separator | ⟨part,among,inside⟩
    · exact between separator
    · exact each part among inside
  have kept : Kept IsWord ('#' ∉ ·) ('#' ∉ ·) := {
    leaves := fun _ isWord => name isWord
    union := fun _ _ all => join (by decide) all
    bare := by decide
    entries := by decide
    field := fun _ _ isWord typed =>
      List.not_mem_append (List.not_mem_append (name isWord) (by decide)) typed
    entry := by decide
    braced := fun _ all =>
      List.not_mem_append (List.not_mem_append (by decide) (join (by decide) all)) (by decide) }
  exact made.render kept

end LuaType

theorem Phrase.IsWord.isRun {w : Text} (word : IsWord w) : IsRun w := ⟨word.nonempty,word.parts⟩

end LuaStubs
