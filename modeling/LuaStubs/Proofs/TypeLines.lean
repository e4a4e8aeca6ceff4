import LuaStubs.Proofs.Annotations
import LuaStubs.Proofs.Portions
import LuaStubs.Proofs.TypeText
import LuaStubs.Validator

/-! The types that are written for parameters and return values. Read back from their lines they hold
no fragment of a name and no union in words. -/
namespace LuaStubs

open Phrase (Enclosed IsWord)
open Tag (Compact FieldOnly IsRun compact_name)

def flagged : List Text := "or" :: TypeTable.builtin.fragments.map Prod.fst

theorem isRun_of_flagged : ∀ word ∈ flagged, IsRun word := by
  have each : ∀ word ∈ flagged, word ≠ [] ∧ ∀ c ∈ word, Tag.isPathChar c = true := by
    decide
  exact fun word member => ⟨(each word member).1,(each word member).2⟩

structure IsWhole (w : Text) : Prop where
  word : IsWord w
  unflagged : w ∉ flagged

instance (w : Text) : Decidable (IsWhole w) :=
  decidable_of_iff (IsWord w ∧ w ∉ flagged)
    ⟨fun ⟨word,unflagged⟩ => ⟨word,unflagged⟩,fun whole => ⟨whole.word,whole.unflagged⟩⟩

theorem IsWhole.qualified {space w : Text} (name : Lua.isName space = true) (word : IsWord w) :
    IsWhole (space ++ "." ++ w) := by
  refine ⟨Phrase.isWord_qualified name word,fun member => ?_⟩
  have undotted : ∀ word ∈ flagged, '.' ∉ word := by decide
  exact undotted _ member (by simp)

theorem Phrase.Phrasal.isWord {t : Text} (phrasal : Phrase.Phrasal t) (single : ' ' ∉ t) :
    IsWord t := by
  obtain ⟨read,nonempty,words,rfl⟩ := phrasal
  match read with
  | [] => simp at nonempty
  | [w] => simpa using words
  | first :: second :: rest => simp at single

/-- A written type that is read, with phrases that are single words or names of the table. -/
def Phrase.Plain (table : TypeTable) (raw : Text) : Prop :=
  ∃ tree, Phrase.parse raw = .ok tree ∧ ∀ p ∈ tree.phrases, ' ' ∉ p ∨ p ∈ table.names

instance (table : TypeTable) (raw : Text) : Decidable (Phrase.Plain table raw) :=
  match read : Phrase.parse raw with
  | .ok tree => decidable_of_iff (∀ p ∈ tree.phrases, ' ' ∉ p ∨ p ∈ table.names)
      ⟨fun plain => ⟨tree,read,plain⟩,fun ⟨other,parsed,plain⟩ => by
        obtain rfl : tree = other := Except.ok.inj (read.symm.trans parsed)
        exact plain⟩
  | .error e => .isFalse fun ⟨tree,parsed,_⟩ => by simp [read] at parsed

namespace Resolver

variable {r : Resolver}

theorem phraseType_whole (builtin : r.config.table = .builtin)
    (space : Lua.isName r.config.space = true) {p : Text} (phrasal : Phrase.Phrasal p)
    (plain : ' ' ∉ p ∨ p ∈ TypeTable.builtin.names) : (r.phraseType p).Over IsWhole := by
  have spells : TypeTable.builtin.Spells IsWhole := ⟨by decide,by decide⟩
  rcases plain with single | known
  · have word := phrasal.isWord single
    by_cases fragment : p ∈ flagged
    · have each : ∀ p ∈ flagged, p = ("or" : Text) ∨ p = ("full" : Text) ∨ p = ("light" : Text) := by
        decide
      unfold phraseType completion?
      rw [builtin]
      rcases each p fragment with rfl | rfl | rfl
      · exact absurd rfl word.notOr
      · exact .primitive (show IsWhole "userdata" by decide)
      · exact .primitive (show IsWhole "lightuserdata" by decide)
    · rw [← builtin] at spells
      exact phraseType_over spells ⟨word,fragment⟩ (IsWhole.qualified space word)
  · obtain ⟨spelling,found⟩ := TypeTable.exists_lookup known
    unfold phraseType TypeTable.classify TypeTable.spelling?
    rw [builtin,found]
    exact .primitive (spells.multiWord _ (TypeTable.mem_of_lookup found))

theorem type_whole (builtin : r.config.table = .builtin) (space : Lua.isName r.config.space = true)
    {raw : Text} (plain : Phrase.Plain .builtin raw) : (r.type raw).Over IsWhole := by
  obtain ⟨tree,parsed,phrases⟩ := plain
  have spells : r.config.table.Spells IsWhole := by
    rw [builtin]
    exact ⟨by decide,by decide⟩
  refine type_over_of_parse parsed spells fun p member => ?_
  exact phraseType_whole builtin space ((Phrase.parse_worded parsed).phrase_words member)
    (phrases p member)

theorem normalize_compact {raw : Text} (words : (r.type raw).Over IsWord) (optional : Bool) :
    Compact (r.normalize raw optional).rendered := by
  have enclosed := (words.mono fun _ word => Enclosed.of_wordParts word.parts).enclosed (Int.le_refl 0)
  have unmarked := words.unmarked
  have some : (r.type raw).render ≠ [] := by
    obtain ⟨c,rest,text,_⟩ := (words.mono fun _ => IsWord.phrasal).headed
    simp [text]
  refine normalize_rendered Compact ⟨enclosed,some,unmarked⟩ ?_ ?_ optional
  · exact ⟨enclosed.append ⟨by decide,by decide⟩,by simp,List.not_mem_append unmarked (by decide)⟩
  · have group : Enclosed 0 ("(" ++ (r.type raw).render ++ ")" ++ "?") :=
      (Enclosed.bracketed rfl rfl (enclosed.mono (by decide))).append ⟨by decide,by decide⟩
    exact ⟨by simpa using group,by simp,
      List.not_mem_append (List.not_mem_append (by decide) unmarked) (by decide)⟩

theorem normalize_fieldOnly {raw word : Text} (whole : (r.type raw).Over IsWhole)
    (member : word ∈ flagged) (optional : Bool) :
    FieldOnly word (r.normalize raw optional).rendered := by
  have run := isRun_of_flagged word member
  have none : FieldOnly word [] := .of_marks run (by simp)
  have others : ∀ word ∈ flagged, ("table" : Text) ≠ word ∧ ("any" : Text) ≠ word := by decide
  have fields (w : Text) (isWhole : IsWhole w) : FieldOnly word w :=
    .of_run isWhole.word.isRun fun same => isWhole.unflagged (same ▸ member)
  have base : FieldOnly word (r.type raw).render :=
    (whole.mono fields).fieldOnly run (others word member).1 (others word member).2
  have opened := none.append_marks run (by decide) (by decide : ∀ c ∈ ("(" : Text), _) base
  refine normalize_rendered (FieldOnly word) base ?_ ?_ optional
  · simpa using base.append_marks run (by decide) (by decide : ∀ c ∈ ("?" : Text), _) none
  · simpa using opened.append_marks run (by decide) (by decide : ∀ c ∈ (")?" : Text), _) none

end Resolver

theorem Stub.Return.lines_eq (s : Stub.Return) : s.lines = Stub.describedLines
    ("---@return " ++ (s.rendered ++ s.name.elim [] (' ' :: ·))) " #" s.description := by
  cases named : s.name <;> simp [Stub.Return.lines,named]

namespace Tag

/-- A line whose type is read, with every flagged word in it the name of a field. -/
def Unflagged (names : List Text) (line : Text) : Prop :=
  ∃ type, type? names line = some type ∧ ∀ word ∈ flagged, FieldOnly word type

/-- No flagged word ends a name of several words. -/
theorem not_flagged_of_endsWith {t name known : Text}
    (among : known ∈ (Validator.ofTable .builtin).names)
    (ends : Text.endsWith (t ++ ' ' :: name) known = true) : name ∉ flagged := by
  have words : ∀ word ∈ flagged, word = ("or" : Text) ∨ word = ("full" : Text) ∨
    word = ("light" : Text) := by decide
  have last : ∀ known ∈ (Validator.ofTable .builtin).names, known.reverse.head? = some 'a' := by
    decide
  intro member
  obtain ⟨rest,reversed⟩ := List.head?_eq_some_iff.mp (last known among)
  rw [Text.endsWith,reversed,List.reverse_append] at ends
  rcases words name member with rfl | rfl | rfl <;> exact absurd ends Bool.false_ne_true

theorem unnamed_unflagged {t name : Text} (compact : Compact t)
    (fields : ∀ word ∈ flagged, FieldOnly word t) (valid : Lua.isName name = true) :
    let type := unnamed (Validator.ofTable .builtin).names (t ++ ' ' :: name)
    type ≠ [] ∧ ∀ word ∈ flagged, FieldOnly word type := by
  have notOr := (fields "or" (by decide)).ne
  rcases compact.unnamed_space (Validator.ofTable .builtin).names notOr valid with
    same | ⟨same,known,among,ends⟩
  · simpa [same] using ⟨compact.nonempty,fields⟩
  · rw [same]
    refine ⟨by simp,fun word member => ?_⟩
    have run := isRun_of_flagged word member
    have isRun : IsRun name := ⟨(compact_name valid).nonempty,Phrase.wordParts_of_name valid⟩
    have other : name ≠ word := fun same => not_flagged_of_endsWith among ends (same ▸ member)
    simpa using (fields word member).append_marks run (by decide) (by decide : ∀ c ∈ (" " : Text), _)
      (.of_run isRun other)

theorem returned_unflagged {t more : Text} {name : Option Text} (compact : Compact t)
    (fields : ∀ word ∈ flagged, FieldOnly word t) (valid : ∀ text ∈ name, Lua.isName text = true)
    (described : more = [] ∨ ∃ rest, more = ' ' :: '#' :: rest) :
    Unflagged (Validator.ofTable .builtin).names
      ("---@return " ++ (t ++ name.elim [] (' ' :: ·)) ++ more) := by
  cases name with
  | none =>
    rw [Option.elim_none,List.append_nil]
    exact ⟨t,compact.type_alone described,fields⟩
  | some name =>
    have isName := valid name rfl
    have notOr := (fields "or" (by decide)).ne
    rw [Option.elim_some]
    exact ⟨_,compact.type_named notOr isName described,(unnamed_unflagged compact fields isName).2⟩

end Tag

namespace Resolver

variable {r : Resolver}

theorem stubParam_unflagged (builtin : r.config.table = .builtin)
    (space : Lua.isName r.config.space = true) {p : Api.Param} (valid : Stub.IsParamName p.name)
    (plain : Phrase.Plain .builtin p.type) (names : List Text) :
    ∃ line rest, (r.stubParam p).lines = line :: rest ∧ Stub.Unbroken line ∧
      Tag.Unflagged names line := by
  have whole := type_whole builtin space plain
  have compact := normalize_compact (whole.mono fun _ => IsWhole.word) p.optional
  obtain ⟨more,lines,described⟩ := Stub.describedLines_eq
    ("---@param " ++ p.name ++ " " ++ (r.normalize p.type p.optional).rendered) " #"
    (r.stubParam p).remark
  have oneLine := (Config.unbroken_of_builtin builtin space).normalize p.type p.optional
  have remark := Stub.remark_param valid.unbroken oneLine.2 (lines ▸ List.mem_cons_self)
  refine ⟨_,_,lines,remark.unbroken,_,Tag.type_param valid compact ?_,fun word member =>
    normalize_fieldOnly whole member p.optional⟩
  exact described.imp_right fun ⟨rest,text⟩ => ⟨rest,text⟩

theorem stubReturn_lines (s : Api.Return) : (r.stubReturn s).lines = Stub.describedLines
    ("---@return " ++ ((r.normalize s.type s.optional).rendered ++ s.name.elim [] (' ' :: ·))) " #"
    s.description :=
  (r.stubReturn s).lines_eq

theorem stubReturn_unflagged (builtin : r.config.table = .builtin)
    (space : Lua.isName r.config.space = true) {s : Api.Return}
    (valid : ∀ name ∈ s.name, Lua.isName name = true) (plain : Phrase.Plain .builtin s.type) :
    ∃ line rest, (r.stubReturn s).lines = line :: rest ∧ Stub.Unbroken line ∧
      Tag.Unflagged (Validator.ofTable .builtin).names line := by
  have whole := type_whole builtin space plain
  have compact := normalize_compact (whole.mono fun _ => IsWhole.word) s.optional
  have head := r.stubReturn_lines s
  obtain ⟨more,lines,described⟩ := Stub.describedLines_eq ("---@return " ++
    ((r.normalize s.type s.optional).rendered ++ s.name.elim [] (' ' :: ·))) " #" s.description
  have oneLine := (Config.unbroken_of_builtin builtin space).normalize s.type s.optional
  have remark := Stub.remark_return (fun name given => Stub.unbroken_name (valid name given))
    oneLine.2 (head.trans lines ▸ List.mem_cons_self)
  exact ⟨_,_,head.trans lines,remark.unbroken,Tag.returned_unflagged compact
    (fun word member => normalize_fieldOnly whole member s.optional) valid described⟩

end Resolver

namespace Tag

variable {names lines : List Text} {n : Nat}

theorem type_of_mem_typedFrom {t : TypedLine} (member : t ∈ typedFrom names n lines) :
    type? names t.text = some t.portion := by
  induction lines generalizing n with
  | nil => simp [typedFrom] at member
  | cons line rest ih =>
    rcases List.mem_append.mp member with here | later
    · obtain ⟨type,typed,rfl⟩ := Option.map_eq_some_iff.mp (Option.mem_toList.mp here)
      exact typed
    · exact ih later

theorem portion_of_typed {t : TypedLine} {line type : Text} (listed : t ∈ typedLines names lines)
    (same : t.text = line) (typed : type? names line = some type) : t.portion = type := by
  have read := type_of_mem_typedFrom listed
  rw [same,typed] at read
  exact (Option.some.inj read).symm

theorem exists_mem_typedFrom {line type : Text} (member : line ∈ lines)
    (typed : type? names line = some type) : ∃ t ∈ typedFrom names n lines, t.text = line := by
  induction lines generalizing n with
  | nil => simp at member
  | cons first rest ih =>
    rcases List.mem_cons.mp member with rfl | later
    · exact ⟨⟨n, line, type⟩,by simp [typedFrom,typed],rfl⟩
    · obtain ⟨t,inside,same⟩ := ih (n := n + 1) later
      exact ⟨t,List.mem_append_right _ inside,same⟩

end Tag

structure TypePasses (v : Validator) (lines : List Text) (line : Text) : Prop where
  typed : ∃ t ∈ Tag.typedLines v.names lines, t.text = line
  fragments : ∀ t ∈ Tag.typedLines v.names lines, t.text = line →
    Tag.fragmentRemarks v.fragments [t] = []
  unions : ∀ t ∈ Tag.typedLines v.names lines, t.text = line → Tag.unionRemarks [t] = []

theorem Tag.Unflagged.passes {lines : List Text} {line : Text} (member : line ∈ lines)
    (unflagged : Tag.Unflagged (Validator.ofTable .builtin).names line) :
    TypePasses (.ofTable .builtin) lines line := by
  obtain ⟨type,typed,fields⟩ := unflagged
  refine ⟨Tag.exists_mem_typedFrom member typed,?_,?_⟩
  · intro t listed same
    have none : ∀ entry ∈ TypeTable.builtin.fragments,
        Tag.hasBareFragment type entry.1 entry.2 = false := fun entry among =>
      Tag.hasBareFragment_eq_false
        (fields entry.1 (List.mem_cons_of_mem _ (List.mem_map_of_mem among)))
    rw [Tag.fragmentRemarks,List.flatMap_singleton]
    refine List.filterMap_eq_nil_iff.mpr fun entry among => ?_
    rw [Tag.portion_of_typed listed same typed]
    simp [none entry among]
  · intro t listed same
    have none := Tag.hasTopLevelOr_eq_false (fields "or" (by decide))
    simp [Tag.unionRemarks,Tag.portion_of_typed listed same typed,none]

def Stub.Module.allFunctions (m : Stub.Module) : List Stub.Function :=
  m.classes.flatMap Stub.Class.methods ++ m.functions

theorem Stub.Module.Named.function {m : Stub.Module} {f : Stub.Function} (named : m.Named)
    (among : f ∈ m.allFunctions) : f.Named := by
  rcases List.mem_append.mp among with method | free
  · obtain ⟨c,listed,inside⟩ := List.mem_flatMap.mp method
    exact (named.classes c listed).methods f inside
  · exact named.functions f free

theorem Stub.Module.mem_lines {m : Stub.Module} {f : Stub.Function} {line : Text} (space : Text)
    (among : f ∈ m.allFunctions)
    (member : line ∈ f.primary.params.flatMap Param.lines ++ f.primary.returns.flatMap Return.lines) :
    line ∈ m.lines space := by
  have inside (owner : Text) (self : Option Text) : line ∈ [] :: f.lines owner self := by
    simp only [Function.lines,List.mem_cons,List.mem_append]
    rcases List.mem_append.mp member with param | returned
    · exact Or.inr (Or.inl (Or.inl (Or.inl (Or.inr param))))
    · exact Or.inr (Or.inl (Or.inl (Or.inr returned)))
  rcases List.mem_append.mp among with method | free
  · obtain ⟨c,listed,listedIn⟩ := List.mem_flatMap.mp method
    have inClass : line ∈ c.lines := by
      simp only [Class.lines,List.mem_append,List.mem_flatMap]
      exact Or.inl (Or.inr ⟨f,listedIn,inside _ _⟩)
    simp only [Module.lines,List.mem_append,List.mem_flatMap]
    exact Or.inl (Or.inl (Or.inr ⟨c,listed,inClass⟩))
  · simp only [Module.lines,List.mem_append,List.mem_flatMap]
    exact Or.inr ⟨f,free,inside _ _⟩

namespace Resolver

variable {r : Resolver}

theorem mem_stubModule {m : Api.Module} {f : Api.Function} (among : f ∈ m.allFunctions) :
    r.stubFunction f ∈ (r.stubModule m).allFunctions := by
  rcases List.mem_append.mp among with method | free
  · obtain ⟨c,listed,inside⟩ := List.mem_flatMap.mp method
    refine List.mem_append_left _ (List.mem_flatMap.mpr ⟨r.stubClass c,List.mem_map_of_mem listed,?_⟩)
    exact List.mem_map_of_mem inside
  · exact List.mem_append_right _ (List.mem_map_of_mem free)

theorem stubFunction_primary {f : Api.Function} {v : Api.Variant} {number : Nat}
    (first : (Api.ranked f.variants).head? = some (number, v)) :
    (r.stubFunction f).primary = r.stubSignature v := by
  obtain ⟨rest,ranked⟩ := List.head?_eq_some_iff.mp first
  simp [stubFunction,ranked]

end Resolver

/-- In the file of a module that is written, the lines of parameters and return values pass the checks
of types, where the type is read and its phrases are words or names of the table. -/
theorem emitted_types_pass {api : Api} (config : Config) {m : Api.Module} {f : Api.Function}
    {v : Api.Variant} {number : Nat} {text : Text} (builtin : config.table = .builtin)
    (space : config.space = ("love" : Text))
    (emitted : ((api.resolver config).stubModule m).emit config.space = .ok text)
    (among : f ∈ m.allFunctions) (primary : (Api.ranked f.variants).head? = some (number, v)) :
    (∀ p ∈ v.params, Phrase.Plain config.table p.type →
      ∃ line rest, ((api.resolver config).stubParam p).lines = line :: rest ∧
        TypePasses (.ofTable config.table) (Text.lines text) line) ∧
    ∀ s ∈ v.returns, Phrase.Plain config.table s.type →
      ∃ line rest, ((api.resolver config).stubReturn s).lines = line :: rest ∧
        TypePasses (.ofTable config.table) (Text.lines text) line := by
  let r := api.resolver config
  have spaceName : Lua.isName config.space = true := by
    rw [space]
    decide
  obtain ⟨faultless,rfl⟩ := Stub.Module.emit_eq_ok emitted
  have listed := Resolver.mem_stubModule (r := r) among
  have named := (Stub.Module.named_of_faults faultless).function listed
  have signature := Resolver.stubFunction_primary (r := r) primary
  have written {line : Text} (unbroken : Stub.Unbroken line)
      (inside : line ∈ (r.stubSignature v).params.flatMap Stub.Param.lines ++
        (r.stubSignature v).returns.flatMap Stub.Return.lines) :
      line ∈ Text.lines (Stub.unlines ((r.stubModule m).lines config.space)) := by
    rw [← signature] at inside
    exact Stub.mem_lines_unlines (Stub.Module.mem_lines _ listed inside) unbroken
  rw [builtin]
  constructor
  · intro p member plain
    have member := List.mem_map_of_mem (f := r.stubParam) member
    have valid : Stub.IsParamName p.name := named.params (r.stubParam p) (by rwa [signature])
    obtain ⟨line,rest,lines,unbroken,unflagged⟩ := Resolver.stubParam_unflagged (r := r) builtin
      spaceName valid plain (Validator.ofTable .builtin).names
    refine ⟨line,rest,lines,unflagged.passes (written unbroken ?_)⟩
    exact List.mem_append_left _ (List.mem_flatMap.mpr ⟨_,member,by simp [lines]⟩)
  · intro s member plain
    have member := List.mem_map_of_mem (f := r.stubReturn) member
    have valid : ∀ name ∈ s.name, Lua.isName name = true :=
      named.returns (r.stubReturn s) (by rwa [signature])
    obtain ⟨line,rest,lines,unbroken,unflagged⟩ := Resolver.stubReturn_unflagged (r := r) builtin
      spaceName valid plain
    refine ⟨line,rest,lines,unflagged.passes (written unbroken ?_)⟩
    exact List.mem_append_right _ (List.mem_flatMap.mpr ⟨_,member,by simp [lines]⟩)

def fragmentary : Description :=
  [("m", {
    types := [{ name := "Light" }]
    functions := [{
      name := "f"
      variants := [{
        arguments := [
          { name := "x", type := .token "\x7blight: light or \x7b..., full: full userdata\x7d\x7d | (Light or nil)",
            description := "a light or\nfull", optional := some true },
          { name := "...", type := .token "light\tuserdata" }]
        returns := [
          { name := some "userdata", type := .token "xlight" },
          { name := some "full", type := .token "\x7b...\x7d or bool", optional := true }] }] }] })]

theorem fragmentary_passes : fragmentary.load = .ok fragmentary.toApi ∧
    ∃ m ∈ fragmentary.toApi.modules, ∃ f ∈ m.allFunctions, ∃ number v,
      (Api.ranked f.variants).head? = some (number, v) ∧ v.params.length = 2 ∧
        v.returns.length = 2 ∧ ∃ text,
          ((fragmentary.toApi.resolver .default).stubModule m).emit "love" = .ok text ∧
          (∀ p ∈ v.params, ∃ line rest,
            ((fragmentary.toApi.resolver .default).stubParam p).lines = line :: rest ∧
              TypePasses (.ofTable .builtin) (Text.lines text) line) ∧
          ∀ s ∈ v.returns, ∃ line rest,
            ((fragmentary.toApi.resolver .default).stubReturn s).lines = line :: rest ∧
              TypePasses (.ofTable .builtin) (Text.lines text) line := by
  let m : Api.Module := fragmentary.toApi.modules.headD ⟨[], [], [], [], []⟩
  let f : Api.Function := m.allFunctions.headD ⟨[], .ofModule [], [], []⟩
  let v : Api.Variant := f.variants.headD ⟨[], [], []⟩
  have faultless : ((fragmentary.toApi.resolver .default).stubModule m).faults = [] := by
    decide +kernel
  have emitted := Stub.Module.emit_of_faults "love" faultless
  have among : f ∈ m.allFunctions := List.mem_singleton.mpr rfl
  have params : ∀ p ∈ v.params, Phrase.Plain .builtin p.type := by decide +kernel
  have returns : ∀ s ∈ v.returns, Phrase.Plain .builtin s.type := by decide +kernel
  obtain ⟨first,second⟩ := emitted_types_pass .default rfl rfl emitted among
    (show (Api.ranked f.variants).head? = some (0, v) from rfl)
  refine ⟨rfl,m,List.mem_singleton.mpr rfl,f,among,0,v,rfl,rfl,rfl,_,emitted,?_,?_⟩
  · exact fun p member => first p member (params p member)
  · exact fun s member => second s member (returns s member)

end LuaStubs
