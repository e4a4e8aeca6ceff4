import LuaStubs.Proofs.TypePlaces

/-! Fragments that the table does not complete. They are kept in the types of a stub file, and the checks
of the file remark on every line that such a type is written on. Only the name of a return value may
hide one. -/
namespace LuaStubs

open Phrase (Phrasal)
open Tag (StandsFree Stands Flags Swallowed)

namespace LuaType

variable {word : Text}

theorem standsFree_render {type : LuaType}
    (found : ∃ arm ∈ type.arms, StandsFree word arm.render) : StandsFree word type.render := by
  obtain ⟨arm,member,free⟩ := found
  rw [render_eq_join]
  exact free.join (List.mem_map_of_mem member)

theorem standsFree_table {fields : List (Text × LuaType)} {field : Text × LuaType} (isOpen : Bool)
    (member : field ∈ fields) (free : StandsFree word field.2.render) :
    StandsFree word (table fields isOpen).render := by
  obtain ⟨name,type⟩ := field
  have listed : name ++ ": " ++ type.render ∈ fields.map renderField :=
    List.mem_map.mpr ⟨_,member,by rw [renderField]⟩
  have field : Stands word (name ++ ": " ++ type.render) := free.stands.field name
  rw [render,renderFields_eq]
  cases texts : fields.map renderField with
  | nil =>
    rw [texts] at listed
    contradiction
  | cons first rest =>
    rw [texts] at listed
    cases isOpen with
    | false => exact (field.listed listed).braced
    | true => exact (field.listed (List.mem_append_left _ listed)).braced

/-- The texts of the arms are all kept in a union. -/
theorem exists_arm_unionOf {types : List LuaType} {type arm : LuaType}
    (flat : ∀ type ∈ types, type.Flat) (member : type ∈ types) (inside : arm ∈ type.arms) :
    ∃ other ∈ (unionOf types).arms, other.render = arm.render := by
  have text : arm.render ∈ (kept types).map render := by
    rw [kept_render,List.mem_eraseDups,List.mem_flatMap]
    exact ⟨type,member,List.mem_map_of_mem inside⟩
  rw [arms_unionOf (List.ne_nil_of_mem member) flat]
  exact List.mem_map.mp text

end LuaType

namespace Resolver

variable {r : Resolver} {phrase raw : Text}

/-- A written type that is read, with a phrase in it, and that is no name of the table as a whole. -/
structure Carries (r : Resolver) (raw phrase : Text) : Prop where
  other : r.config.table.spelling? (Text.collapse raw) = none
  read : ∃ tree, Phrase.parse raw = .ok tree ∧ phrase ∈ tree.phrases

structure Lone (r : Resolver) (phrase : Text) (full : List Text) : Prop where
  fragment : r.config.table.classify phrase = .fragment full
  uncompleted : r.config.table.completeFragments = false ∨ 1 < full.length

theorem Lone.phraseType {full : List Text} (lone : r.Lone phrase full) :
    r.phraseType phrase = .named phrase := by
  have uncompleted : r.completion? full = none := by
    unfold completion?
    split
    · rcases lone.uncompleted with never | several
      · simp [never]
      · simp at several
    · rfl
  unfold Resolver.phraseType
  rw [lone.fragment]
  simp only [uncompleted]

theorem Lone.begun {full : List Text} (lone : r.Lone phrase full) :
    r.config.table.completions phrase ≠ [] := by
  obtain ⟨_,_,_,found,some⟩ := TypeTable.classify_fragment.mp lone.fragment
  exact found ▸ some

theorem treeType_standsFree {tree : Phrase.Tree} (worded : tree.Worded)
    (named : r.phraseType phrase = .named phrase) (inside : phrase ∈ tree.phrases) :
    ∃ arm ∈ (r.treeType tree).arms, StandsFree phrase arm.render := by
  induction worded with
  | phrase nonempty words =>
    obtain rfl := List.mem_singleton.mp inside
    rw [treeType,named]
    exact ⟨_,List.mem_singleton.mpr rfl,[],[],by simp [LuaType.render],Or.inl Tag.marked_nil,
      Tag.followed_nil,fun _ => Tag.marked_nil⟩
  | @union alts several all ih =>
    obtain ⟨alt,among,within⟩ := Phrase.Tree.mem_phrases_union.mp inside
    obtain ⟨arm,member,free⟩ := ih alt among within
    have flat : ∀ type ∈ alts.map r.treeType, type.Flat := by
      intro type listed
      obtain ⟨alt,among,rfl⟩ := List.mem_map.mp listed
      exact r.treeType_flat (all alt among)
    obtain ⟨other,kept,text⟩ := LuaType.exists_arm_unionOf flat (List.mem_map_of_mem among) member
    rw [treeType,treeTypes_eq]
    exact ⟨other,kept,text ▸ free⟩
  | @table fields isOpen words all ih =>
    obtain ⟨field,among,within⟩ := Phrase.Tree.mem_phrases_table.mp inside
    have free := LuaType.standsFree_render (ih field among within)
    have listed : (field.1,r.treeType field.2) ∈ fields.map fun field => (field.1,r.treeType field.2) :=
      List.mem_map.mpr ⟨field,among,rfl⟩
    rw [treeType,fieldTypes_eq]
    exact ⟨_,List.mem_singleton.mpr rfl,LuaType.standsFree_table isOpen listed free⟩

/-- A fragment that is not completed stands in the type as it is written. -/
theorem Carries.standsFree (carries : r.Carries raw phrase)
    (named : r.phraseType phrase = .named phrase) (optional : Bool) :
    StandsFree phrase (r.normalize raw optional).rendered ∧
      StandsFree phrase (r.normalize raw optional).base := by
  obtain ⟨tree,parsed,inside⟩ := carries.read
  have type : r.type raw = r.treeType tree := by
    unfold Resolver.type typeOr
    rw [carries.other,parsed]
  have free : StandsFree phrase (r.type raw).render := by
    rw [type]
    exact LuaType.standsFree_render (treeType_standsFree (Phrase.parse_worded parsed) named inside)
  refine ⟨normalize_rendered (StandsFree phrase) free ?_ ?_ optional,free⟩
  · exact free.within (a := []) (Or.inl Tag.marked_nil)
      (Tag.followed_cons (by decide) (by decide) []) (by simp)
  · exact free.within (a := "(") (Or.inl (Tag.marked_concat (by decide) []))
      (Tag.followed_cons (by decide) (by decide) _) (by simp)

theorem Carries.phrasal (carries : r.Carries raw phrase) : Phrasal phrase := by
  obtain ⟨tree,parsed,inside⟩ := carries.read
  exact (Phrase.parse_worded parsed).phrase_words inside

end Resolver

namespace Tag

def FlagsLine (table : TypeTable) (line : Text) : Prop :=
  ∃ type, type? (Validator.ofTable table).names line = some type ∧ Flags table type

end Tag

/-- The checks of a file remark on a fragment in a line of it, whatever the file is called. -/
def Remarked (table : TypeTable) (source line : Text) : Prop :=
  ∀ file, ∃ remark ∈ (Validator.ofTable table).remarks file source,
    remark.concern = .fragment ∧ remark.text = line

theorem Tag.FlagsLine.remarked {table : TypeTable} {source line : Text} (flags : FlagsLine table line)
    (member : line ∈ Text.lines source) : Remarked table source line := by
  obtain ⟨type,typed,_,entry,among,bare⟩ := flags
  obtain ⟨i,place⟩ := List.mem_iff_getElem?.mp member
  intro file
  exact ⟨⟨i + 1,.fragment,Tag.fragmentMessage entry.1 entry.2,line⟩,
    (Validator.mem_remarks_on typed).mpr ⟨i,place,entry,among,bare,rfl⟩⟩

namespace Stub

variable {s : Signature} {word : Text}

theorem stands_inOverload {p : Param} (base : Stands word p.base) : Stands word p.inOverload := by
  have marked := base.field (p.name ++ "?")
  unfold Param.inOverload
  split
  · rwa [List.append_assoc p.name] at marked
  · exact base.field p.name

theorem stands_funType_param {p : Param} (self : Option Text) (member : p ∈ s.params)
    (base : Stands word p.base) : Stands word (s.funType self) := by
  have listed := (stands_inOverload base).listed (List.mem_append_right
    (self.toList.map (("self: " : Text) ++ ·)) (List.mem_map_of_mem member))
  unfold Signature.funType
  rw [List.append_assoc (_ ++ _)]
  exact listed.within (Or.inl (Tag.marked_concat (by decide) "fun"))
    (Tag.followed_cons (by decide) (by decide) _)

theorem stands_funType_return {r : Return} (self : Option Text) (member : r ∈ s.returns)
    (rendered : Stands word r.rendered) : Stands word (s.funType self) := by
  have listed := rendered.listed (List.mem_map_of_mem (f := Return.rendered) member)
  unfold Signature.funType
  split
  · rename_i none
    rw [none] at member
    contradiction
  · have behind (params : Text) : Stands word
        ("fun(" ++ params ++ "):" ++ Text.join ", " (s.returns.map Return.rendered)) := by
      have marked := Tag.marked_concat (c := ':') (by decide) ("fun(" ++ params ++ ")")
      rw [List.append_assoc] at marked
      have inside := listed.within (Or.inl marked) Tag.followed_nil
      rwa [List.append_nil] at inside
    exact behind _

end Stub

namespace Resolver

variable {r : Resolver} {phrase : Text} {full : List Text}

theorem stubParam_flags (lone : r.Lone phrase full) {p : Api.Param} (valid : Stub.IsParamName p.name)
    (carries : r.Carries p.type phrase)
    (unbroken : Stub.Unbroken (r.normalize p.type p.optional).rendered)
    (unmarked : '#' ∉ (r.normalize p.type p.optional).rendered) :
    ∃ line rest, (r.stubParam p).lines = line :: rest ∧ Stub.Unbroken line ∧
      Tag.FlagsLine r.config.table line := by
  have phrasal := carries.phrasal
  obtain ⟨more,lines,described⟩ := Stub.describedLines_eq
    ("---@param " ++ p.name ++ " " ++ (r.normalize p.type p.optional).rendered) " #"
    (r.stubParam p).remark
  have remark := Stub.remark_param valid.unbroken unbroken (lines ▸ List.mem_cons_self)
  obtain ⟨⟨u,v,text,left,right,_⟩,_⟩ := carries.standsFree lone.phraseType p.optional
  refine ⟨_,_,lines,remark.unbroken,_,?_,
    Stands.flags ⟨_,_,rfl,left.trimStart,right.trimEnd⟩ phrasal lone.begun⟩
  rw [text] at unmarked ⊢
  refine Tag.type_param_around valid phrasal.trimmed phrasal.nonempty unmarked ?_
  exact described.imp_right fun ⟨rest,same⟩ => ⟨rest,same⟩

theorem stubReturn_flags (lone : r.Lone phrase full) {s : Api.Return}
    (valid : ∀ name ∈ s.name, Lua.isName name = true) (carries : r.Carries s.type phrase)
    (unbroken : Stub.Unbroken (r.normalize s.type s.optional).rendered)
    (unmarked : '#' ∉ (r.normalize s.type s.optional).rendered)
    (apart : ∀ name ∈ s.name,
      ¬ Swallowed r.config.table phrase (r.normalize s.type s.optional).rendered name) :
    ∃ line rest, (r.stubReturn s).lines = line :: rest ∧ Stub.Unbroken line ∧
      Tag.FlagsLine r.config.table line := by
  have phrasal := carries.phrasal
  have head := r.stubReturn_lines s
  obtain ⟨more,lines,described⟩ := Stub.describedLines_eq ("---@return " ++
    ((r.normalize s.type s.optional).rendered ++ s.name.elim [] (' ' :: ·))) " #" s.description
  have remark := Stub.remark_return (fun name given => Stub.unbroken_name (valid name given)) unbroken
    (head.trans lines ▸ List.mem_cons_self)
  obtain ⟨free,_⟩ := carries.standsFree lone.phraseType s.optional
  have flags : Flags r.config.table (Tag.unnamed (Validator.ofTable r.config.table).names
      (Text.trim ((r.normalize s.type s.optional).rendered ++ s.name.elim [] (' ' :: ·)))) := by
    cases named : s.name with
    | none =>
      rw [Option.elim_none,List.append_nil]
      exact (free.trim phrasal).flags_unnamed phrasal lone.begun _ (Text.trimmed_trim _)
    | some name =>
      exact free.flags_named phrasal lone.begun (valid name named) (apart name named)
  have nameless : '#' ∉ (r.normalize s.type s.optional).rendered ++ s.name.elim [] (' ' :: ·) := by
    refine List.not_mem_append unmarked ?_
    cases named : s.name with
    | none => simp
    | some name =>
      exact List.not_mem_cons_of_ne_of_not_mem (by decide) (Tag.compact_name (valid name named)).unmarked
  refine ⟨_,_,head.trans lines,remark.unbroken,_,?_,flags⟩
  rw [Tag.type_returned nameless described]
  simp [flags.1]

theorem overloadLine_flags (lone : r.Lone phrase full) {v : Api.Variant} {raw : Text}
    (self : Option Text) (member : raw ∈ v.types) (carries : r.Carries raw phrase) :
    Tag.FlagsLine r.config.table ((r.stubSignature v).overloadLine self) := by
  have stands : Stands phrase ((r.stubSignature v).funType self) := by
    rcases List.mem_append.mp member with param | returned
    · obtain ⟨p,among,rfl⟩ := List.mem_map.mp param
      have base := (carries.standsFree lone.phraseType p.optional).2
      exact Stub.stands_funType_param self (List.mem_map_of_mem among) base.stands
    · obtain ⟨s,among,rfl⟩ := List.mem_map.mp returned
      have rendered := (carries.standsFree lone.phraseType s.optional).1
      exact Stub.stands_funType_return self (List.mem_map_of_mem among) rendered.stands
  exact ⟨_,Stub.type_overload _ _ _,(stands.trim carries.phrasal).flags carries.phrasal lone.begun⟩

end Resolver

theorem Api.Module.mem_allFunctions {m : Api.Module} {f : Api.Function} {receiver : Option Text}
    (among : (receiver,f) ∈ m.members) : f ∈ m.allFunctions := by
  rcases List.mem_append.mp among with method | free
  · obtain ⟨c,listed,inside⟩ := List.mem_flatMap.mp method
    obtain ⟨f,member,same⟩ := List.mem_map.mp inside
    obtain ⟨_,rfl⟩ := Prod.mk.inj same
    exact List.mem_append_left _ (List.mem_flatMap.mpr ⟨c,listed,member⟩)
  · obtain ⟨f,member,same⟩ := List.mem_map.mp free
    obtain ⟨_,rfl⟩ := Prod.mk.inj same
    exact List.mem_append_right _ member

/-- In the file of a module that is written, every line with a type that carries a fragment which the
table does not complete is remarked on: that of a parameter or a value, and the overload of a variant
with such a type. The name of a value must not be taken for the rest of a longer name, and the type must
be on its line as a whole, before any description. -/
theorem lone_fragments_remarked {api : Api} (config : Config) {m : Api.Module} {text phrase : Text}
    {f : Api.Function} {receiver : Option Text} {full : List Text}
    (lone : (api.resolver config).Lone phrase full)
    (emitted : ((api.resolver config).stubModule m).emit config.space = .ok text)
    (among : (receiver,f) ∈ m.members) :
    let r := api.resolver config
    (∀ number v, (Api.ranked f.variants).head? = some (number,v) →
      (∀ p ∈ v.params, r.Carries p.type phrase →
        let type := (r.normalize p.type p.optional).rendered
        Stub.Unbroken type → '#' ∉ type →
          ∃ line rest, (r.stubParam p).lines = line :: rest ∧ Remarked config.table text line) ∧
      ∀ s ∈ v.returns, r.Carries s.type phrase →
        let type := (r.normalize s.type s.optional).rendered
        Stub.Unbroken type → '#' ∉ type →
          (∀ name ∈ s.name, ¬ Swallowed config.table phrase type name) →
            ∃ line rest, (r.stubReturn s).lines = line :: rest ∧ Remarked config.table text line) ∧
    ∀ number v, (number,v) ∈ (Api.ranked f.variants).tail → ∀ raw ∈ v.types, r.Carries raw phrase →
      let line := (r.stubSignature v).overloadLine (receiver.map r.qualified)
      Stub.Unbroken line → Remarked config.table text line := by
  intro r
  obtain ⟨faultless,rfl⟩ := Stub.Module.emit_eq_ok emitted
  have named := (Stub.Module.named_of_faults faultless).function
    (Resolver.mem_stubModule (r := r) (Api.Module.mem_allFunctions among))
  obtain ⟨owner,inModule⟩ := Resolver.lines_of_member (r := r) config.space among
  have written {line : Text} (unbroken : Stub.Unbroken line)
      (member : line ∈ (r.stubFunction f).lines owner (receiver.map r.qualified)) :
      line ∈ Text.lines (Stub.unlines ((r.stubModule m).lines config.space)) :=
    Stub.mem_lines_unlines (inModule line member) unbroken
  refine ⟨fun number v primary => ?_,?_⟩
  · have signature := Resolver.stubFunction_primary (r := r) primary
    simp only [Stub.Function.lines,signature,List.mem_append,List.mem_flatMap] at written
    constructor
    · intro p member carries type unbroken unmarked
      have listed := List.mem_map_of_mem (f := r.stubParam) member
      have valid : Stub.IsParamName p.name := named.params (r.stubParam p) (by rwa [signature])
      obtain ⟨line,rest,lines,whole,flags⟩ :=
        Resolver.stubParam_flags (r := r) lone valid carries unbroken unmarked
      refine ⟨line,rest,lines,flags.remarked (written whole ?_)⟩
      exact Or.inl (Or.inl (Or.inl (Or.inr ⟨_,listed,by simp [lines]⟩)))
    · intro s member carries type unbroken unmarked apart
      have listed := List.mem_map_of_mem (f := r.stubReturn) member
      have valid : ∀ name ∈ s.name, Lua.isName name = true :=
        named.returns (r.stubReturn s) (by rwa [signature])
      obtain ⟨line,rest,lines,whole,flags⟩ :=
        Resolver.stubReturn_flags (r := r) lone valid carries unbroken unmarked apart
      refine ⟨line,rest,lines,flags.remarked (written whole ?_)⟩
      exact Or.inl (Or.inl (Or.inr ⟨_,listed,by simp [lines]⟩))
  · intro number v alternate raw member carries line unbroken
    have listed := Resolver.stubFunction_alternate (r := r) alternate
    have flags := Resolver.overloadLine_flags lone (receiver.map r.qualified) member carries
    exact flags.remarked (written unbroken (Resolver.overloadLine_mem listed owner _))

def uncompleting : Config where
  space := "love"
  verbose := false
  table := { TypeTable.builtin with
    multiWord := ("raw memory handle", "handle") :: TypeTable.builtin.multiWord
    completeFragments := false }

def halves : Description :=
  [("m", {
    types := [{
      name := "C"
      functions := [{
        name := "f"
        variants := [
          { arguments := [{ name := "light", type := .token "number | raw memory" }] },
          { arguments := [
              { name := "x", type := .token "\x7ba: light\x7d or (nil | full)", optional := some true },
              { name := "y", type := .token "number" }]
            returns := [
              { name := some "userdata", type := .token "light or nil" },
              { name := none, type := .token "raw  memory" }] }] }] }] })]

theorem halves_remarked : halves.load = .ok halves.toApi ∧ ∃ m ∈ halves.toApi.modules, ∃ text : Text,
    ((halves.toApi.resolver uncompleting).stubModule m).emit "love" = .ok text ∧
    Remarked uncompleting.table text "---@param x (\x7ba: light\x7d|nil|full)?" ∧
    Remarked uncompleting.table text "---@return light|nil userdata" ∧
    Remarked uncompleting.table text "---@return raw memory" ∧
    Remarked uncompleting.table text
      "---@overload fun(self: love.C, light: number|raw memory):nil" := by
  let r := halves.toApi.resolver uncompleting
  let m : Api.Module := halves.toApi.modules.headD ⟨[],[],[],[],[]⟩
  let f : Api.Function := m.allFunctions.headD ⟨[],.ofModule [],[],[]⟩
  let primary : Api.Variant := f.variants.tail.headD ⟨[],[],[]⟩
  let alternate : Api.Variant := f.variants.headD ⟨[],[],[]⟩
  let x : Api.Param := primary.params.headD ⟨[],[],false,none,[]⟩
  let named : Api.Return := primary.returns.headD ⟨none,[],false,[]⟩
  let unnamed : Api.Return := primary.returns.tail.headD ⟨none,[],false,[]⟩
  have emitted := Stub.Module.emit_of_faults "love" (show (r.stubModule m).faults = [] by decide +kernel)
  have among : (some ("C" : Text),f) ∈ m.members := List.mem_singleton.mpr rfl
  have first : (Api.ranked f.variants).head? = some (1,primary) := rfl
  have light : r.Lone "light" ["light userdata"] := ⟨by decide +kernel,Or.inl rfl⟩
  have memory : r.Lone "raw memory" ["raw memory handle"] := ⟨by decide +kernel,Or.inl rfl⟩
  obtain ⟨ofPrimary,_⟩ := lone_fragments_remarked uncompleting light emitted among
  obtain ⟨ofPrimaryToo,ofAlternates⟩ := lone_fragments_remarked uncompleting memory emitted among
  refine ⟨rfl,m,List.mem_singleton.mpr rfl,_,emitted,?_,?_,?_,?_⟩
  · have carries : r.Carries x.type "light" := ⟨by decide +kernel,_,rfl,by decide +kernel⟩
    obtain ⟨line,rest,lines,remarked⟩ := (ofPrimary 1 primary first).1 x List.mem_cons_self carries
      (by decide +kernel) (by decide +kernel)
    have text : (r.stubParam x).lines = ["---@param x (\x7ba: light\x7d|nil|full)?".toList] := by
      decide +kernel
    obtain ⟨rfl,_⟩ := List.cons.inj (lines.symm.trans text)
    exact remarked
  · have carries : r.Carries named.type "light" := ⟨by decide +kernel,_,rfl,by decide +kernel⟩
    have apart : ¬ ("light" : Text) <:+ (r.normalize named.type named.optional).rendered := by
      decide +kernel
    obtain ⟨line,rest,lines,remarked⟩ := (ofPrimary 1 primary first).2 named List.mem_cons_self carries
      (by decide +kernel) (by decide +kernel) fun _ _ swallowed => apart swallowed.ends
    have text : (r.stubReturn named).lines = ["---@return light|nil userdata".toList] := by
      decide +kernel
    obtain ⟨rfl,_⟩ := List.cons.inj (lines.symm.trans text)
    exact remarked
  · have carries : r.Carries unnamed.type "raw memory" := ⟨by decide +kernel,_,rfl,by decide +kernel⟩
    obtain ⟨line,rest,lines,remarked⟩ := (ofPrimaryToo 1 primary first).2 unnamed
      (List.mem_cons_of_mem _ List.mem_cons_self) carries (by decide +kernel) (by decide +kernel)
      fun _ given => absurd given (Option.not_mem_none _)
    have text : (r.stubReturn unnamed).lines = ["---@return raw memory".toList] := by decide +kernel
    obtain ⟨rfl,_⟩ := List.cons.inj (lines.symm.trans text)
    exact remarked
  · have carries : r.Carries "number | raw memory" "raw memory" :=
      ⟨by decide +kernel,_,rfl,by decide +kernel⟩
    have remarked := ofAlternates 0 alternate List.mem_cons_self _ List.mem_cons_self carries
      (by decide +kernel)
    have text : (r.stubSignature alternate).overloadLine (some (r.qualified "C")) =
        ("---@overload fun(self: love.C, light: number|raw memory):nil" : Text) := by
      decide +kernel
    exact text ▸ remarked

def swallowing : Description :=
  [("m", { functions := [{
    name := "f"
    variants := [{ returns := [{ name := some "userdata", type := .token "light" }] }] }] })]

/-- A value of a type that is a fragment, named by the rest of its completion. -/
theorem fragment_swallowed : swallowing.load = .ok swallowing.toApi ∧
    ∃ m ∈ swallowing.toApi.modules, ∃ text : Text,
      ((swallowing.toApi.resolver uncompleting).stubModule m).emit "love" = .ok text ∧
      (swallowing.toApi.resolver uncompleting).Lone "light" ["light userdata"] ∧
      (swallowing.toApi.resolver uncompleting).Carries "light" "light" ∧
      ("---@return light userdata" : Text) ∈ Text.lines text ∧
      ∀ file, ∀ remark ∈ (Validator.ofTable uncompleting.table).remarks file text,
        remark.concern ≠ .fragment := by
  let m : Api.Module := swallowing.toApi.modules.headD ⟨[],[],[],[],[]⟩
  have emitted := Stub.Module.emit_of_faults "love"
    (show ((swallowing.toApi.resolver uncompleting).stubModule m).faults = [] by decide +kernel)
  have silent : ∀ t ∈ Tag.typedLines (Validator.ofTable uncompleting.table).names (Text.lines
      (Stub.unlines (((swallowing.toApi.resolver uncompleting).stubModule m).lines "love"))),
      Tag.fragmentRemarks (Validator.ofTable uncompleting.table).fragments [t] = [] := by
    decide +kernel
  have lone : (swallowing.toApi.resolver uncompleting).Lone "light" ["light userdata"] :=
    ⟨by decide +kernel,Or.inl rfl⟩
  have carries : (swallowing.toApi.resolver uncompleting).Carries "light" "light" :=
    ⟨by decide +kernel,.phrase "light",rfl,List.mem_singleton.mpr rfl⟩
  have listed : ("---@return light userdata" : Text) ∈ Text.lines
      (Stub.unlines (((swallowing.toApi.resolver uncompleting).stubModule m).lines "love")) := by
    decide +kernel
  refine ⟨rfl,m,List.mem_singleton.mpr rfl,_,emitted,lone,carries,listed,?_⟩
  intro file remark member concern
  obtain ⟨t,typed,inside⟩ := Validator.mem_remarks.mp ⟨member,concern⟩
  exact List.not_mem_nil ((silent t typed) ▸ inside)

end LuaStubs
