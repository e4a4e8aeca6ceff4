import LuaStubs.Proofs.Stubs
import LuaStubs.Proofs.Tags

/-! The tags of a stub file that is written are complete: every parameter of a function is annotated
above its declaration, in order. -/
namespace LuaStubs.Stub

open Tag (Quiet Passes Settled)

def Headed (t : Text) : Prop := ∃ c rest, t = c :: rest ∧ Text.isBlank c = false ∧ c ≠ '#'

structure Param.Clean (p : Param) : Prop where
  rendered : Headed p.rendered
  remark : Unmarked p.remark

structure Return.Clean (r : Return) : Prop where
  rendered : Headed r.rendered
  description : Unmarked r.description

structure Function.Clean (f : Function) : Prop where
  description : Untagged f.description
  signature : Untagged f.primary.description
  params : ∀ p ∈ f.primary.params, p.Clean
  returns : ∀ r ∈ f.primary.returns, r.Clean
  alternates : ∀ s ∈ f.alternates, Untagged s.description

structure Class.Clean (c : Class) : Prop where
  description : Untagged c.description
  methods : ∀ f ∈ c.methods, f.Clean

structure Enum.Clean (e : Enum) : Prop where
  description : Untagged e.description
  constants : ∀ constant ∈ e.constants, Unmarked constant.2

structure Module.Clean (m : Module) : Prop where
  description : Untagged m.description
  classes : ∀ c ∈ m.classes, c.Clean
  enums : ∀ e ∈ m.enums, e.Clean
  functions : ∀ f ∈ m.functions, f.Clean

/-- A comment line that gives no remark, and the names it annotates. -/
structure Annotates (line : Text) (names : List Text) : Prop where
  comment : Tag.isComment line = true
  quiet : Quiet line
  names : Tag.paramNames [line] = names

theorem annotates_doc {t : Text} (untagged : t.head? ≠ some '@') :
    Annotates (("---" : Text) ++ t) [] := by
  refine ⟨rfl,Tag.quiet_comment untagged,?_⟩
  rw [Tag.paramNames,List.filterMap_cons,Tag.after_comment untagged]
  rfl

def titled (head mark t : Text) : Text :=
  if t = [] then head else head ++ mark ++ " " ++ (textLines t).headD []

theorem describedLines_titled (head mark t : Text) : describedLines head mark t =
    titled head mark t :: (textLines t).tail.map (("---" : Text) ++ ·) := by
  by_cases empty : t = []
  · subst empty
    rfl
  · obtain ⟨first,rest,lines,broken⟩ := textLines_first empty
    have shown : (!first.isEmpty || t.contains '\n' || t.contains '\r') = true := by
      cases first with
      | nil => simpa using broken rfl
      | cons c first => rfl
    simp only [describedLines,titled,lines,shown,empty,↓reduceIte,List.headD_cons,List.tail_cons]

theorem describedLines_eq (head mark t : Text) : ∃ more,
    describedLines head mark t = (head ++ more) :: (textLines t).tail.map (("---" : Text) ++ ·) ∧
      (more = [] ∨ ∃ rest, more = mark ++ rest) := by
  rw [describedLines_titled,titled]
  split
  · exact ⟨[],by simp,Or.inl rfl⟩
  · exact ⟨mark ++ " " ++ (textLines t).headD [],by simp,
      Or.inr ⟨" " ++ (textLines t).headD [],by simp⟩⟩

theorem annotates_param {name rendered more : Text} (valid : IsParamName name)
    (headed : Headed rendered) :
    Annotates ("---@param " ++ name ++ " " ++ rendered ++ more) [name] := by
  obtain ⟨c,rest,rfl,unblank,_⟩ := headed
  have line : ("---@param " : Text) ++ name ++ " " ++ c :: rest ++ more =
      ("---@param" : Text) ++ ' ' :: (name ++ ' ' :: (c :: rest ++ more)) := by
    simp
  have words : Text.words (' ' :: (name ++ ' ' :: (c :: rest ++ more))) =
      name :: Text.words (c :: rest ++ more) := by
    rw [Text.words_cons_blank (by decide),Text.words_append_blank (by decide),
      Text.words_of_unblank (Tag.paramName_ne_nil valid) (Tag.unblank_of_paramName valid)]
    rfl
  have enough : ¬(Text.words (' ' :: (name ++ ' ' :: (c :: rest ++ more)))).length < 2 := by
    have typed : Text.words (c :: rest ++ more) ≠ [] := Text.words_ne_nil (by simp) unblank
    have some := List.length_pos_iff.mpr typed
    rw [words,List.length_cons]
    omega
  have after : Tag.param.after? (("---@param" : Text) ++ ' ' :: (name ++ ' ' :: (c :: rest ++ more))) =
    some (' ' :: (name ++ ' ' :: (c :: rest ++ more))) := rfl
  rw [line]
  refine ⟨rfl,fun block => ?_,?_⟩
  · change Tag.incomplete? .param _ = none
    exact if_neg enough
  · rw [Tag.paramNames,List.filterMap_cons,after,Option.bind_some,words]
    rfl

theorem annotates_return {rendered named more : Text} (headed : Headed rendered) :
    Annotates ("---@return " ++ rendered ++ named ++ more) [] := by
  obtain ⟨c,rest,rfl,unblank,unmarked⟩ := headed
  have line : ("---@return " : Text) ++ c :: rest ++ named ++ more =
      ("---@return" : Text) ++ ' ' :: c :: (rest ++ named ++ more) := by
    simp
  have typed : Tag.undescribed (' ' :: c :: (rest ++ named ++ more)) =
      ' ' :: c :: Tag.undescribed (rest ++ named ++ more) := by
    simp [Tag.undescribed,unmarked]
  rw [line]
  refine ⟨rfl,fun block => ?_,rfl⟩
  change Tag.incomplete? .returned _ = none
  apply if_neg
  rw [typed,Text.trim_cons_blank (by decide),Text.trim,Text.trimStart_cons unblank]
  simpa using Text.trimEnd_cons_ne_nil unblank _

/-- All that is read of an overload stands before its first parameter. -/
theorem annotates_overload (s : Signature) (self : Option Text) :
    Annotates (s.overloadLine self) [] :=
  ⟨rfl,fun _ => rfl,rfl⟩

structure AnnotatesAll (lines names : List Text) : Prop where
  comments : ∀ line ∈ lines, Tag.isComment line = true ∧ Quiet line
  names : Tag.paramNames lines = names

namespace AnnotatesAll

theorem nil : AnnotatesAll [] [] := ⟨by simp,rfl⟩

theorem append {a b first second : List Text} (before : AnnotatesAll a first)
    (after : AnnotatesAll b second) : AnnotatesAll (a ++ b) (first ++ second) := by
  refine ⟨fun line member => ?_,?_⟩
  · rcases List.mem_append.mp member with inside | inside
    · exact before.comments line inside
    · exact after.comments line inside
  · rw [← before.names,← after.names,Tag.paramNames,List.filterMap_append]
    rfl

theorem cons {line : Text} {lines first names : List Text} (here : Annotates line first)
    (rest : AnnotatesAll lines names) : AnnotatesAll (line :: lines) (first ++ names) := by
  have single : AnnotatesAll [line] first :=
    ⟨by simpa using ⟨here.comment,here.quiet⟩,here.names⟩
  exact single.append rest

theorem flatMap {parts : List α} {lines names : α → List Text}
    (each : ∀ part ∈ parts, AnnotatesAll (lines part) (names part)) :
    AnnotatesAll (parts.flatMap lines) (parts.flatMap names) := by
  induction parts with
  | nil => exact nil
  | cons part parts ih =>
    exact (each part (by simp)).append (ih fun other member => each other (by simp [member]))

theorem silent {parts : List α} {lines : α → List Text}
    (each : ∀ part ∈ parts, AnnotatesAll (lines part) []) : AnnotatesAll (parts.flatMap lines) [] := by
  have none : parts.flatMap (fun _ => ([] : List Text)) = [] := by
    simp [List.flatMap_eq_nil_iff]
  exact none ▸ flatMap each

theorem docs {texts : List Text} (untagged : ∀ t ∈ texts, t.head? ≠ some '@') :
    AnnotatesAll (texts.map (("---" : Text) ++ ·)) [] := by
  induction texts with
  | nil => exact nil
  | cons t texts ih =>
    exact cons (annotates_doc (untagged t (by simp)))
      (ih fun other member => untagged other (by simp [member]))

end AnnotatesAll

theorem annotatesAll_described {head mark t : Text} {names : List Text}
    (first : ∀ more, Annotates (head ++ more) names) (unmarked : Unmarked t) :
    AnnotatesAll (describedLines head mark t) names := by
  obtain ⟨more,lines,_⟩ := describedLines_eq head mark t
  rw [lines]
  simpa using AnnotatesAll.cons (first more) (.docs (untagged_tail_iff.mpr unmarked))

theorem annotatesAll_param {p : Param} (valid : IsParamName p.name) (clean : p.Clean) :
    AnnotatesAll p.lines [p.name] :=
  annotatesAll_described (fun _ => annotates_param valid clean.rendered) clean.remark

theorem annotatesAll_return {r : Return} (clean : r.Clean) : AnnotatesAll r.lines [] :=
  annotatesAll_described (fun _ => annotates_return clean.rendered) clean.description

theorem annotatesAll_overload {s : Signature} (self : Option Text) (untagged : Untagged s.description) :
    AnnotatesAll (s.overloadLines self) [] :=
  (AnnotatesAll.docs untagged).append (.cons (annotates_overload s self) .nil)

/-- The comments of a function annotate its parameters. -/
theorem annotatesAll_comments {f : Function} (self : Option Text) (named : f.Named)
    (clean : f.Clean) : AnnotatesAll (f.comments self) f.paramNames := by
  have gap : AnnotatesAll (if !f.primary.description.isEmpty && !f.description.isEmpty then [emptyDoc]
      else []) [] := by
    split
    · exact .cons (annotates_doc (t := []) (by simp)) .nil
    · exact .nil
  have docs : AnnotatesAll f.docLines [] :=
    ((AnnotatesAll.docs clean.description).append gap).append (.docs clean.signature)
  have params : AnnotatesAll (f.primary.params.flatMap Param.lines) f.paramNames := by
    rw [Function.paramNames,List.map_eq_flatMap]
    exact .flatMap fun p member => annotatesAll_param (named.params p member) (clean.params p member)
  have returns : AnnotatesAll (f.primary.returns.flatMap Return.lines) [] :=
    .silent fun r member => annotatesAll_return (clean.returns r member)
  have overloads : AnnotatesAll (f.alternates.flatMap (Signature.overloadLines self)) [] :=
    .silent fun s member => annotatesAll_overload self (clean.alternates s member)
  simpa [Function.comments] using ((docs.append params).append returns).append overloads

/-- The declaration comes right behind the comments that annotate its parameters. -/
theorem passes_function {f : Function} {owner : Text} {self : Option Text} (named : f.Named)
    (clean : f.Clean) (head : ∃ c rest, owner = c :: rest ∧ Lua.isNameHead c = true)
    (parts : ∀ c ∈ owner, Tag.Declaration.isNamePart c = true) :
    Passes [] (f.lines owner self) [] := by
  let mark : Text := if self.isSome then ":" else "."
  have line : f.declaration owner self = declarationLine owner mark f.name f.paramNames := by
    cases self <;> rfl
  have path : ∀ c ∈ owner ++ mark ++ f.name, Tag.Declaration.isNamePart c = true := by
    intro c member
    simp only [List.mem_append] at member
    rcases member with (inside | between) | inside
    · exact parts c inside
    · have : c = ':' ∨ c = '.' := by
        cases self with
        | none => exact Or.inr (by simpa [mark] using between)
        | some _ => exact Or.inl (by simpa [mark] using between)
      rcases this with rfl | rfl <;> decide
    · exact Tag.namePart_of_name named.name c inside
  have params : ∀ p ∈ f.paramNames, IsParamName p := by
    simpa [Function.paramNames] using named.params
  have read := Tag.Declaration.read_declarationLine head path params
  have annotated := annotatesAll_comments self named clean
  have agrees : Tag.wrong? (f.comments self) (declarationLine owner mark f.name f.paramNames) =
      none := by
    rw [Tag.wrong?,show Tag.read? _ = none from rfl,read]
    exact if_pos annotated.names.symm
  change Passes [] (f.comments self ++ [f.declaration owner self]) []
  refine (Passes.comments annotated.comments).append (.code ?_ ?_ .done)
  · rw [line]
    rfl
  · simpa [line] using agrees

theorem settled_docs {t : Text} (untagged : Untagged t) : Settled (docLines t) :=
  .all fun line member => ((AnnotatesAll.docs untagged).comments line member).2

theorem quiet_classLine (name : Text) (supertypes : List Text) : Quiet (classLine name supertypes) := by
  cases supertypes with
  | nil => exact fun _ => rfl
  | cons first rest => exact fun _ => rfl

theorem settled_class {c : Class} (named : c.Named) (clean : c.Clean) : Settled c.lines := by
  have start : Settled [[], regionStart c.name, []] :=
    .cons (fun _ => rfl) (.cons (fun _ => rfl) (.cons (fun _ => rfl) .nil))
  have table : Settled [classLine c.qualified c.supertypes, localLine c.name] :=
    .cons (quiet_classLine _ _) (.cons (fun _ => rfl) .nil)
  have methods : Settled (c.methods.flatMap fun f => [] :: f.lines c.name (some c.qualified)) :=
    .flatMap fun f member => .afterBlank (passes_function (named.methods f member)
      (clean.methods f member) (name_head named.name) (Tag.namePart_of_name named.name))
  have stop : Settled [[], regionEnd c.name] := .cons (fun _ => rfl) (.cons (fun _ => rfl) .nil)
  exact (((start.append (settled_docs clean.description)).append table).append methods).append stop

theorem settled_enum {e : Enum} (clean : e.Clean) : Settled e.lines := by
  have title : Settled [[], aliasLine e.qualified] :=
    .cons (fun _ => rfl) (.cons (fun _ => rfl) .nil)
  refine (title.append (settled_docs clean.description)).append (.flatMap ?_)
  rintro ⟨value,description⟩ member
  have entry : AnnotatesAll (constantLines value description) [] :=
    annotatesAll_described (fun _ => ⟨rfl,fun _ => rfl,rfl⟩) (clean.constants _ member)
  exact .all fun line inside => (entry.comments line inside).2

theorem settled_module {m : Module} (named : m.Named) (clean : m.Clean) :
    Settled (m.lines "love") := by
  have header : Settled [metaLine, classLine ("love" ++ "." ++ m.name) []] :=
    .cons (fun _ => rfl) (.cons (quiet_classLine _ _) .nil)
  have table : Settled [tableLine ("love" ++ "." ++ m.name)] := .cons (fun _ => rfl) .nil
  have classes : Settled (m.classes.flatMap Class.lines) :=
    .flatMap fun c member => settled_class (named.classes c member) (clean.classes c member)
  have enums : Settled (m.enums.flatMap Enum.lines) :=
    .flatMap fun e member => settled_enum (clean.enums e member)
  have path : ∀ c ∈ ("love" ++ "." ++ m.name : Text), Tag.Declaration.isNamePart c = true := by
    intro c member
    rcases List.mem_append.mp member with inside | inside
    · exact (by decide : ∀ c ∈ (("love" : Text) ++ "."), Tag.Declaration.isNamePart c = true) c inside
    · exact Tag.namePart_of_name named.name c inside
  have functions : Settled (m.functions.flatMap fun f =>
      [] :: f.lines ("love" ++ "." ++ m.name) none) :=
    .flatMap fun f member => .afterBlank (passes_function (named.functions f member)
      (clean.functions f member) ⟨'l',_,rfl,by decide⟩ path)
  exact ((((header.append (settled_docs clean.description)).append table).append classes).append
    enums).append functions

/-- The lines of a module give no remark on their tags. -/
theorem Module.remarks_nil {m : Module} (named : m.Named) (clean : m.Clean) :
    Tag.remarks (m.lines "love") = [] := by
  obtain ⟨left,passes⟩ := settled_module named clean []
  have header : Tag.headerRemarks (m.lines "love") = [] := if_pos rfl
  rw [Tag.remarks,header,passes.remarks_nil]
  rfl

end LuaStubs.Stub

namespace LuaStubs

open Phrase (Phrasal)
open Stub (Headed Untagged)

theorem Phrase.parse_of_isOk {raw : Text} (accepted : (parse raw).isOk = true) :
    ∃ tree, parse raw = .ok tree := by
  cases parsed : parse raw with
  | error e => simp [parsed,Except.isOk,Except.toBool] at accepted
  | ok tree => exact ⟨tree,rfl⟩

theorem Phrase.error_of_not_isOk {raw : Text} (rejected : (parse raw).isOk = false) :
    ∃ e, parse raw = .error e := by
  cases parsed : parse raw with
  | error e => exact ⟨e,rfl⟩
  | ok tree => simp [parsed,Except.isOk,Except.toBool] at rejected

theorem Phrase.Phrasal.headed {t : Text} (phrasal : Phrasal t) : Headed t := by
  obtain ⟨c,rest,rfl,part⟩ := phrasal.head
  refine ⟨c,rest,rfl,Phrase.unblank_of_wordPart part,?_⟩
  rintro rfl
  simp [show Phrase.isWordPart '#' = false by decide] at part

theorem Stub.Headed.append {a : Text} (headed : Headed a) (b : Text) : Headed (a ++ b) := by
  obtain ⟨c,rest,rfl,visible⟩ := headed
  exact ⟨c,rest ++ b,rfl,visible⟩

theorem LuaType.Over.headed {type : LuaType} (made : type.Over Phrasal) : Headed type.render := by
  have union {arms : List Text} (nonempty : arms ≠ []) (all : ∀ arm ∈ arms, Headed arm) :
      Headed (Text.join "|" arms) := by
    obtain ⟨first,rest,rfl⟩ := List.exists_cons_of_ne_nil nonempty
    have here := all first (by simp)
    cases rest with
    | nil => simpa using here
    | cons second rest =>
      rw [Text.join_cons_cons,List.append_assoc]
      exact here.append _
  have kept : LuaType.Kept Phrasal Headed fun _ => True := {
    leaves := fun _ phrasal => phrasal.headed
    union := fun _ nonempty all => union nonempty all
    bare := ⟨'t',_,rfl,by decide,by decide⟩
    entries := ⟨'t',_,rfl,by decide,by decide⟩
    field := fun _ _ _ _ => trivial
    entry := trivial
    braced := fun _ _ => ⟨'\x7b',_,rfl,by decide,by decide⟩ }
  exact made.render kept

namespace Resolver

variable {r : Resolver}

theorem spells_phrasal (builtin : r.config.table = .builtin) : r.config.table.Spells Phrasal := by
  rw [builtin]
  exact Phrase.builtin_spells.mono fun _ => Phrase.IsWord.phrasal

theorem phraseType_phrasal (builtin : r.config.table = .builtin)
    (space : Lua.isName r.config.space = true) {raw : Text} (tree : Phrase.Tree)
    (parsed : Phrase.parse raw = .ok tree) : ∀ p ∈ tree.phrases, (r.phraseType p).Over Phrasal := by
  intro p member
  have phrasal : Phrasal p := (Phrase.parse_worded parsed).phrase_words member
  exact phraseType_over (spells_phrasal builtin) phrasal (phrasal.qualified space)

/-- A type that was read is written in the words of phrases. -/
theorem type_phrasal (builtin : r.config.table = .builtin) (space : Lua.isName r.config.space = true)
    {raw : Text} (accepted : (Phrase.parse raw).isOk = true) : (r.type raw).Over Phrasal := by
  obtain ⟨tree,parsed⟩ := Phrase.parse_of_isOk accepted
  exact type_over_of_parse parsed (spells_phrasal builtin) (phraseType_phrasal builtin space tree parsed)

theorem normalize_headed (builtin : r.config.table = .builtin)
    (space : Lua.isName r.config.space = true) {raw : Text}
    (accepted : (Phrase.parse raw).isOk = true) (optional : Bool) :
    Headed (r.normalize raw optional).rendered := by
  have base := (type_phrasal builtin space accepted).headed
  exact normalize_rendered Headed base (base.append _) ⟨'(',_,rfl,by decide,by decide⟩ optional

theorem stubParam_unmarked {v : Api.Variant} (texts : ∀ t ∈ v.texts, Untagged t) {p : Api.Param}
    (among : p ∈ v.params) : Stub.Unmarked (r.stubParam p).remark := by
  have written : ∀ t ∈ p.description :: p.default.toList, Untagged t := by
    intro t inside
    refine texts t (List.mem_cons_of_mem _ (List.mem_append_left _ ?_))
    exact List.mem_flatMap.mpr ⟨p,among,inside⟩
  refine Stub.Param.remark_unmarked (written _ (by simp [stubParam])) fun d given => written d ?_
  have given : p.default = some d := given
  simp [given]

theorem return_unmarked {v : Api.Variant} (texts : ∀ t ∈ v.texts, Untagged t) {s : Api.Return}
    (among : s ∈ v.returns) : Stub.Unmarked s.description := by
  have written : Untagged s.description :=
    texts _ (List.mem_cons_of_mem _ (List.mem_append_right _ (List.mem_map_of_mem among)))
  exact written.unmarked

/-- Where the types of a variant are read and its texts start no tags, neither do its comments. -/
theorem stubSignature_clean (builtin : r.config.table = .builtin)
    (space : Lua.isName r.config.space = true) {v : Api.Variant}
    (types : ∀ raw ∈ v.types, (Phrase.parse raw).isOk = true)
    (texts : ∀ t ∈ v.texts, Untagged t) :
    Untagged (r.stubSignature v).description ∧ (∀ p ∈ (r.stubSignature v).params, p.Clean) ∧
      ∀ s ∈ (r.stubSignature v).returns, s.Clean := by
  refine ⟨texts _ (by simp [Api.Variant.texts,stubSignature]),?_,?_⟩
  · intro p member
    obtain ⟨origin,among,rfl⟩ := List.mem_map.mp member
    have parsed := types origin.type (List.mem_append_left _ (List.mem_map_of_mem among))
    exact ⟨normalize_headed builtin space parsed origin.optional,stubParam_unmarked texts among⟩
  · intro s member
    obtain ⟨origin,among,rfl⟩ := List.mem_map.mp member
    have parsed := types origin.type (List.mem_append_right _ (List.mem_map_of_mem among))
    exact ⟨normalize_headed builtin space parsed origin.optional,return_unmarked texts among⟩

theorem stubFunction_clean (builtin : r.config.table = .builtin)
    (space : Lua.isName r.config.space = true) {f : Api.Function}
    (types : ∀ v ∈ f.variants, ∀ raw ∈ v.types, (Phrase.parse raw).isOk = true)
    (texts : ∀ t ∈ f.texts, Untagged t) : (r.stubFunction f).Clean := by
  have written : ∀ v ∈ f.variants, ∀ t ∈ v.texts, Untagged t := by
    intro v member t inside
    exact texts t (List.mem_cons_of_mem _ (List.mem_flatMap.mpr ⟨v,member,inside⟩))
  obtain ⟨⟨signature,params,returns⟩,alternates⟩ := stubFunction_signatures (r := r) (f := f)
    (fun s => Untagged s.description ∧ (∀ p ∈ s.params, p.Clean) ∧ ∀ r ∈ s.returns, r.Clean)
    ⟨by decide,by simp,by simp⟩
    (fun v member => stubSignature_clean builtin space (types v member) (written v member))
  exact ⟨texts _ (by simp [Api.Function.texts,stubFunction]),signature,params,returns,
    fun s member => (alternates s member).1⟩

theorem stubModule_clean (builtin : r.config.table = .builtin)
    (space : Lua.isName r.config.space = true) {m : Api.Module}
    (types : ∀ raw ∈ m.types, (Phrase.parse raw).isOk = true)
    (texts : ∀ t ∈ m.texts, Untagged t) : (r.stubModule m).Clean := by
  have functions : ∀ f ∈ m.allFunctions, (r.stubFunction f).Clean := by
    intro f member
    refine stubFunction_clean builtin space (fun v variant raw inside => types raw ?_) fun t inside =>
      texts t ?_
    · exact List.mem_flatMap.mpr ⟨v,List.mem_flatMap.mpr ⟨f,member,variant⟩,inside⟩
    · refine List.mem_append_left _ (List.mem_append_right _ ?_)
      exact List.mem_flatMap.mpr ⟨f,member,inside⟩
  have enums : ∀ e ∈ m.enums, ∀ t ∈ e.texts, Untagged t := by
    intro e member t inside
    exact texts t (List.mem_append_right _ (List.mem_flatMap.mpr ⟨e,member,inside⟩))
  refine ⟨texts _ (by simp [Api.Module.texts,stubModule]),?_,?_,?_⟩
  · intro c member
    obtain ⟨origin,among,rfl⟩ := List.mem_map.mp member
    have described : origin.description ∈ m.texts := List.mem_append_left _
      (List.mem_append_left _ (List.mem_cons_of_mem _ (List.mem_map_of_mem among)))
    refine ⟨texts _ described,?_⟩
    intro f listed
    obtain ⟨method,inside,rfl⟩ := List.mem_map.mp listed
    exact functions method (List.mem_append_left _ (List.mem_flatMap.mpr ⟨origin,among,inside⟩))
  · intro e member
    obtain ⟨origin,among,rfl⟩ := List.mem_map.mp member
    refine ⟨enums origin among _ (by simp [Api.Enum.texts,stubEnum]),?_⟩
    intro constant listed
    obtain ⟨c,inside,rfl⟩ := List.mem_map.mp listed
    have written := enums origin among c.description
      (List.mem_cons_of_mem _ (List.mem_map_of_mem inside))
    exact written.unmarked
  · intro f member
    obtain ⟨origin,among,rfl⟩ := List.mem_map.mp member
    exact functions origin (List.mem_append_right _ among)

end Resolver

/-- The check of tags has nothing to remark on a module that is written, where its types are read and
no line of its texts starts a tag. -/
theorem emitted_tags_complete {api : Api} (config : Config) {m : Api.Module} {text : Text}
    (builtin : config.table = .builtin) (space : config.space = ("love" : Text))
    (types : ∀ raw ∈ m.types, (Phrase.parse raw).isOk = true)
    (supertypes : ∀ c ∈ m.classes, ∀ s ∈ c.supertypes, Stub.Unbroken s)
    (enums : ∀ e ∈ m.enums, Stub.Unbroken e.name) (texts : ∀ t ∈ m.texts, Untagged t)
    (emitted : ((api.resolver config).stubModule m).emit config.space = .ok text) :
    Tag.remarks (Text.lines text) = [] := by
  have spaceName : Lua.isName config.space = true := by
    rw [space]
    decide
  obtain ⟨faultless,rfl⟩ := Stub.Module.emit_eq_ok emitted
  have named := Stub.Module.named_of_faults faultless
  have unbroken := Resolver.stubModule_unbroken (r := api.resolver config) builtin spaceName named
    supertypes enums
  have lines := (Stub.lays_module spaceName named unbroken).unbroken
    (Stub.Module.statements_named spaceName named)
  have clean := Resolver.stubModule_clean (r := api.resolver config) builtin spaceName types texts
  rw [Stub.lines_unlines lines,space]
  exact Stub.Module.remarks_nil named clean

def annotated : Description :=
  [("m", {
    description := "one\r\n two\r"
    types := [{
      name := "C"
      description := "\n---"
      supertypes := ["Object"]
      functions := [{
        name := "get"
        variants := [{
          arguments := [
            { name := "x", type := .token "\x7ba: light\x7d or\nnil", description := "\n \n @ x",
              default := some (.string "x\n #") },
            { name := "...", type := .token "C" }]
          returns := [{ name := some "r", type := .token "\x7b...\x7d", description := "\n\rmore" }] }] }] }]
    functions := [{
      name := "f"
      description := "f"
      variants := [{ description := "none" }, { arguments := [{ name := "y", type := .token "(a | b)" }] }] }]
    enums := [{ name := "E", constants := [{ name := "@", description := "\n1" }] }] })]

theorem annotated_complete : annotated.load = .ok annotated.toApi ∧
    ∃ m ∈ annotated.toApi.modules, ∃ text,
      ((annotated.toApi.resolver .default).stubModule m).emit "love" = .ok text ∧
        Tag.remarks (Text.lines text) = [] := by
  let m : Api.Module := annotated.toApi.modules.headD ⟨[], [], [], [], []⟩
  have faultless : ((annotated.toApi.resolver .default).stubModule m).faults = [] := by
    decide +kernel
  have emitted := Stub.Module.emit_of_faults "love" faultless
  refine ⟨rfl,m,List.mem_singleton.mpr rfl,_,emitted,?_⟩
  refine emitted_tags_complete .default rfl rfl ?_ ?_ ?_ ?_ emitted
  · decide +kernel
  · decide +kernel
  · decide +kernel
  · decide +kernel

end LuaStubs
