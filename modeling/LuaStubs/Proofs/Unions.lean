import LuaStubs.Proofs.Alternatives
import LuaStubs.Proofs.Annotations
import LuaStubs.Proofs.TypeText

/-! Unions in words that are left in types outside the grammar: each stands in brackets, and the check
of unions sees it where these are no braces. -/
namespace LuaStubs

open Phrase (Enclosed OrsInside Phrasal Separable depth)

namespace LuaType

theorem render_unionOf (types : List LuaType) : (unionOf types).render =
    Text.join "|" ((firstOfEach [] (types.flatMap arms)).map render) := by
  unfold unionOf
  split
  · rename_i arm alone
    simp [alone]
  · rw [render,renderArms_eq]

end LuaType

/-- Texts of alternatives, of which all but the last close their brackets. -/
theorem Phrase.orsInside_join {texts : List Text} (each : ∀ t ∈ texts, OrsInside 0 t)
    (closed : texts.Pairwise fun t _ => depth t = 0) : OrsInside 0 (Text.join "|" texts) := by
  induction texts with
  | nil => simp [OrsInside]
  | cons first rest ih =>
    cases rest with
    | nil => simpa using each first
    | cons second rest =>
      obtain ⟨level,closed⟩ := List.pairwise_cons.mp closed
      have later := ih (fun t member => each t (by simp [member])) closed
      have start : depth first = 0 := level second (by simp)
      rw [Text.join_cons_cons]
      intro u v same
      have cut : first ++ '|' :: Text.join "|" (second :: rest) = u ++ " or " ++ v := by
        simpa using same
      rcases Text.append_cons_occurrence (by decide) cut with ⟨more,here⟩ | ⟨m,rfl,behind⟩
      · exact each first (by simp) u more here
      · have inside := later m v behind
        simpa [start,show nesting '|' = 0 from rfl] using inside

/-- A text without the word `or` between marks. -/
theorem Tag.FieldOnly.orsInside {t : Text} (fields : Tag.FieldOnly "or" t) (before : Int) :
    OrsInside before t := by
  intro u v same
  have colon := fields (u ++ " ") (" " ++ v) (by simp [same]) (by simp; decide) (by simp; decide)
  simp at colon

theorem Phrase.Phrasal.enclosed {t : Text} (phrasal : Phrasal t) : Enclosed 1 t := by
  refine .of_level (fun c member => ?_) (by decide)
  rcases phrasal.chars c member with rfl | part
  · rfl
  · exact Phrase.nesting_of_wordPart part

theorem isRun_or : Tag.IsRun "or" := ⟨by decide,by decide⟩

theorem Phrase.Phrasal.fieldOnly {t : Text} (phrasal : Phrasal t) : Tag.FieldOnly "or" t := by
  obtain ⟨read,_,words,rfl⟩ := phrasal
  refine .join isRun_or (by decide) (by decide) fun w member => ?_
  exact .of_run (words w member).isRun (words w member).notOr

theorem LuaType.Over.arms_closed {type : LuaType} (made : type.Over Phrasal) :
    ∀ arm ∈ type.arms, depth arm.render = 0 ∧ OrsInside 0 arm.render := by
  intro arm member
  have phrases := made.arms.2 arm member
  have enclosed := (phrases.mono fun _ => Phrasal.enclosed).enclosed (by decide)
  have fields := (phrases.mono fun _ => Phrasal.fieldOnly).fieldOnly isRun_or (by decide) (by decide)
  exact ⟨enclosed.closed,fields.orsInside 0⟩

namespace Resolver

variable {r : Resolver}

def armTexts (r : Resolver) (segment : Text) : List Text :=
  (r.aloneType segment).arms.map LuaType.render

theorem armTexts_cases (builtin : r.config.table = .builtin)
    (space : Lua.isName r.config.space = true) (segment : Text) :
    (∀ t ∈ r.armTexts segment, depth t = 0 ∧ OrsInside 0 t) ∨
      r.armTexts segment = [Text.collapse segment] := by
  unfold armTexts aloneType
  rcases typeOr_cases (spells_phrasal builtin) (phraseType_phrasal builtin space) with
    made | ⟨e,_,same⟩
  · left
    intro t member
    obtain ⟨arm,among,rfl⟩ := List.mem_map.mp member
    exact made.arms_closed arm among
  · right
    rw [same]
    rfl

theorem union_orsInside (builtin : r.config.table = .builtin)
    (space : Lua.isName r.config.space = true) {raw : Text} (separable : Separable raw) :
    OrsInside 0 (LuaType.unionOf ((Phrase.alternatives raw).map r.aloneType)).render := by
  have texts : ((((Phrase.alternatives raw).map r.aloneType).flatMap LuaType.arms).map
      LuaType.render) = (Phrase.alternatives raw).flatMap r.armTexts := by
    rw [List.flatMap_map,List.map_flatMap]
    rfl
  have part := (LuaType.firstOfEach_sublist []
    (((Phrase.alternatives raw).map r.aloneType).flatMap LuaType.arms)).map LuaType.render
  rw [texts] at part
  have each : ∀ t ∈ (Phrase.alternatives raw).flatMap r.armTexts, OrsInside 0 t := by
    intro t member
    obtain ⟨segment,among,inside⟩ := List.mem_flatMap.mp member
    rcases armTexts_cases builtin space segment with all | alone
    · exact (all t inside).2
    · rw [alone] at inside
      exact List.mem_singleton.mp inside ▸ separable.alternative among
  have closed : ((Phrase.alternatives raw).flatMap r.armTexts).Pairwise fun t _ => depth t = 0 := by
    refine List.pairwise_flatMap.mpr ⟨fun segment _ => ?_,?_⟩
    · rcases armTexts_cases builtin space segment with all | alone
      · exact List.pairwise_of_forall_mem_list fun t inside _ _ => (all t inside).1
      · simp [alone]
    · refine (Phrase.alternatives_closed raw).imp fun {segment _} level t inside _ _ => ?_
      rcases armTexts_cases builtin space segment with all | alone
      · exact (all t inside).1
      · rw [alone] at inside
        rw [List.mem_singleton.mp inside,Phrase.depth_collapse,level]
  rw [LuaType.render_unionOf]
  exact Phrase.orsInside_join (fun t member => each t (part.subset member)) (closed.sublist part)

/-- In the type of a text outside the grammar every ` or ` stands in brackets. -/
theorem type_orsInside (builtin : r.config.table = .builtin)
    (space : Lua.isName r.config.space = true) {raw : Text} (separable : Separable raw) :
    OrsInside 0 (r.type raw).render := by
  unfold Resolver.type
  rcases typeOr_cases (spells_phrasal builtin) (phraseType_phrasal builtin space) with
    made | ⟨e,_,same⟩
  · have fields := (made.mono fun _ => Phrasal.fieldOnly).fieldOnly isRun_or (by decide) (by decide)
    exact fields.orsInside 0
  · rw [same]
    split
    · rename_i first second rest several
      rw [← several]
      exact union_orsInside builtin space separable
    · rename_i few
      apply separable.alone
      match found : Phrase.alternatives raw with
      | [] => simp
      | [_] => simp
      | first :: second :: rest => exact absurd found (few first second rest)

end Resolver

theorem Phrase.nesting_eq (c : Char) : nesting c =
    if (Stub.closing? c).isSome then 1 else if Stub.isClosing c then -1 else 0 := by
  unfold nesting
  split
  iterate 8 rfl
  rename_i brace paren square angle closeBrace closeParen closeSquare closeAngle
  have opens : Stub.closing? c = none := by
    unfold Stub.closing?
    split <;> first | rfl | contradiction
  have closes : Stub.isClosing c = false := by
    simp [Stub.isClosing,show c ≠ '\x7d' from closeBrace,show c ≠ ')' from closeParen,
      show c ≠ ']' from closeSquare,show c ≠ '>' from closeAngle]
  simp [opens,closes]

/-- In a text with matching brackets none is closed that is not open. -/
theorem Stub.depth_of_balanced {due : List Char} {u v : Text}
    (balanced : balancedFrom due (u ++ v) = true) : 0 ≤ due.length + depth u := by
  induction u generalizing due with
  | nil => simp
  | cons c u ih =>
    rw [List.cons_append] at balanced
    rw [Phrase.depth_cons,Phrase.nesting_eq]
    unfold balancedFrom at balanced
    split at balanced
    · rename_i close opens
      have inside := ih balanced
      simp only [opens,Option.isSome_some,List.length_cons,↓reduceIte] at inside ⊢
      omega
    · rename_i other
      split at balanced
      · rename_i closes
        split at balanced
        · rename_i close due
          have inside := ih (Bool.and_eq_true _ _ ▸ balanced).2
          simp only [other,closes,Option.isSome_none,List.length_cons,Bool.false_eq_true,↓reduceIte]
            at inside ⊢
          omega
        · contradiction
      · rename_i level
        have inside := ih balanced
        simpa [other,level] using inside

theorem Tag.hasTopLevelOr_append {t marks : Text} (none : ' ' ∉ marks) :
    hasTopLevelOr (t ++ marks) = hasTopLevelOr t := by
  rw [Bool.eq_iff_iff,hasTopLevelOr_iff,hasTopLevelOr_iff]
  constructor
  · rintro ⟨u,v,same,level⟩
    rcases List.append_eq_append_iff.mp same with ⟨m,before,rfl⟩ | ⟨m,rfl,_⟩
    · rcases List.eq_nil_or_concat m with rfl | ⟨start,c,rfl⟩
      · exact ⟨u,[],by simpa using before.symm,level⟩
      · have last := congrArg List.getLast? before
        simp only [List.getLast?_append] at last
        obtain rfl : ' ' = c := by simpa using last
        simp at none
    · exact ⟨u,m,rfl,level⟩
  · rintro ⟨u,v,rfl,level⟩
    exact ⟨u,v ++ marks,by simp,level⟩

theorem Resolver.hasTopLevelOr_rendered (r : Resolver) (raw : Text) (optional : Bool) :
    Tag.hasTopLevelOr (r.normalize raw optional).rendered = Tag.hasTopLevelOr (r.type raw).render := by
  have opened (t : Text) : Tag.hasTopLevelOr ('(' :: t) = Tag.hasTopLevelOr t := by
    simp [Tag.hasTopLevelOr,Tag.hasOrAt,Tag.braceNesting]
  refine normalize_rendered (fun t => Tag.hasTopLevelOr t = Tag.hasTopLevelOr (r.type raw).render) rfl
    (Tag.hasTopLevelOr_append (by decide)) ?_ optional
  rw [List.append_assoc]
  exact (opened _).trans (Tag.hasTopLevelOr_append (show ' ' ∉ (")?" : Text) by decide))

/-- A union in words that is kept in angle brackets is seen. -/
theorem angled_union_seen :
    (Phrase.parse "table<string, a or b>").isOk = false ∧
      Stub.isBalanced ((Resolver.mk .default []).normalize "table<string, a or b>" false).rendered = true ∧
      Tag.hasTopLevelOr ((Resolver.mk .default []).normalize "table<string, a or b>" false).rendered =
        true := by
  decide +kernel

/-- The cuts between alternatives leave no union in words outside brackets, so what the check of unions
sees in the type of a text stands in brackets other than braces. -/
theorem union_seen_iff {r : Resolver} {raw : Text} (builtin : r.config.table = .builtin)
    (space : r.config.space = ("love" : Text)) (separable : Separable raw) (optional : Bool)
    (balanced : Stub.isBalanced (r.normalize raw optional).base = true) :
    (∀ u v, (r.normalize raw optional).base = u ++ " or " ++ v → 0 < depth u) ∧
    (Tag.hasTopLevelOr (r.normalize raw optional).rendered = true ↔
      ∃ u v, (r.normalize raw optional).base = u ++ " or " ++ v ∧ Tag.braceDepth u = 0 ∧
        0 < depth u) := by
  have spaceName : Lua.isName r.config.space = true := by
    rw [space]
    decide
  have inside : ∀ u v, (r.normalize raw optional).base = u ++ " or " ++ v → 0 < depth u := by
    intro u v same
    have opened := Resolver.type_orsInside builtin spaceName separable u v same
    rw [same,List.append_assoc] at balanced
    have nonneg := Stub.depth_of_balanced balanced
    simp only [List.length_nil] at nonneg
    omega
  refine ⟨inside,?_⟩
  rw [Resolver.hasTopLevelOr_rendered,Tag.hasTopLevelOr_iff]
  constructor
  · rintro ⟨u,v,same,level⟩
    exact ⟨u,v,same,level,inside u v same⟩
  · rintro ⟨u,v,same,level,_⟩
    exact ⟨u,v,same,level⟩

def bracketed : Text := "table<string, a or b> or \x7bx: c- or d\x7d"

theorem bracketed_union_seen :
    (Phrase.parse bracketed).isOk = false ∧ Separable bracketed ∧
      Stub.isBalanced ((Resolver.mk .default []).normalize bracketed true).rendered = true ∧
      (∀ u v, ((Resolver.mk .default []).normalize bracketed true).base = u ++ " or " ++ v → 0 < depth u) ∧
      ∃ u v, ((Resolver.mk .default []).normalize bracketed true).base = u ++ " or " ++ v ∧
        Tag.braceDepth u = 0 ∧ 0 < depth u := by
  have separable : Separable bracketed := by decide +kernel
  have balanced : Stub.isBalanced ((Resolver.mk .default []).normalize bracketed true).base = true := by
    decide +kernel
  have seen : Tag.hasTopLevelOr ((Resolver.mk .default []).normalize bracketed true).rendered = true := by
    decide +kernel
  obtain ⟨inside,seenIff⟩ := union_seen_iff (r := .mk .default []) rfl rfl separable true balanced
  exact ⟨by decide +kernel,separable,by decide +kernel,inside,seenIff.mp seen⟩

-- Other white space beside the word, an alternative without text, and a bracket that only the group of
-- an optional union opens: each leaves a union outside brackets.
example : Tag.hasTopLevelOr ((Resolver.mk .default []).normalize "a-\tor\tb" false).rendered = true ∧
    ¬Separable "a-\tor\tb" := by
  decide +kernel

example : Tag.hasTopLevelOr ((Resolver.mk .default []).normalize "a or |" false).rendered = true ∧
    ¬Separable "a or |" := by
  decide +kernel

example : Stub.isBalanced ((Resolver.mk .default []).normalize "a|) or (" true).rendered = true ∧
    Tag.hasTopLevelOr ((Resolver.mk .default []).normalize "a|) or (" true).rendered = true ∧
    Stub.isBalanced ((Resolver.mk .default []).normalize "a|) or (" true).base = false := by
  decide +kernel

end LuaStubs
