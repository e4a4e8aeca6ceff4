import LuaStubs.Proofs.Rereading

/-! Names of the model in the positions where they are written: as types, as supertypes, and where they
are declared. The table comes first in types, and in types only. -/
namespace LuaStubs

namespace TypeTable

/-- The phrases that mean something to a table: whole names of several words, primitives, other
spellings, and the beginnings of names of several words. -/
def vocabulary (table : TypeTable) : List Text :=
  table.names ++ table.primitives ++ table.aliases.map Prod.fst ++ table.fragments.map Prod.fst

/-- What a table writes for a phrase: the spelling of a whole name, a primitive as it is, the meaning of
another spelling, or the spelling of the only name that goes on after it. -/
inductive Writes (table : TypeTable) (phrase spelled : Text) : Prop where
  | whole : (phrase,spelled) ∈ table.multiWord → Writes table phrase spelled
  | primitive : phrase ∈ table.primitives → spelled = phrase → Writes table phrase spelled
  | respelled : (phrase,spelled) ∈ table.aliases → Writes table phrase spelled
  | completed {full : Text} : table.completions phrase = [full] → (full,spelled) ∈ table.multiWord →
      Writes table phrase spelled

variable {table : TypeTable} {phrase : Text}

theorem classify_unknown_iff : table.classify phrase = .unknown ↔ phrase ∉ table.vocabulary := by
  have fragments : table.completions phrase = [] ↔ phrase ∉ table.fragments.map Prod.fst := by
    rw [mem_fragments_keys,ne_eq,not_not]
  rw [classify_unknown,spelling?_eq_none_iff,lookup_eq_none,fragments]
  simp only [vocabulary,List.mem_append,not_or,and_assoc]

end TypeTable

namespace Resolver

variable {r : Resolver} {name : Text}

theorem written_name (valid : Lua.isName name = true) : r.Written name := by
  have undotted : '.' ∉ name := fun dot =>
    absurd (Phrase.nameTails_of_name valid '.' dot) (by decide)
  exact Or.inl (Phrase.isKey_of_undotted (Phrase.isWord_of_name valid) undotted).keyPhrase.reads.parse

theorem nameType_known (known : name ∈ r.known) : r.nameType name = .named (r.qualified name) :=
  if_pos (List.contains_iff_mem.mpr known)

theorem phraseType_unknown (unknown : name ∉ r.config.table.vocabulary) :
    r.phraseType name = r.nameType name := by
  rw [phraseType,TypeTable.classify_unknown_iff.mpr unknown]

theorem phraseType_vocabulary (builtin : r.config.table = .builtin)
    (member : name ∈ TypeTable.builtin.vocabulary) :
    ∃ spelled, TypeTable.builtin.Writes name spelled ∧ r.phraseType name = .primitive spelled := by
  have single : ∀ entry ∈ TypeTable.builtin.fragments, ∃ whole ∈ TypeTable.builtin.multiWord,
      entry.2 = [whole.1] ∧ TypeTable.builtin.spelling? whole.1 = some whole.2 := by decide
  unfold phraseType completion?
  rw [builtin]
  cases classified : TypeTable.builtin.classify name with
  | primitive spelled =>
    refine ⟨spelled,?_,rfl⟩
    rcases TypeTable.classify_primitive classified with whole | ⟨same,listed⟩ | other
    · exact .whole whole
    · exact .primitive listed same
    · exact .respelled other
  | fragment full =>
    obtain ⟨_,_,_,found,some⟩ := TypeTable.classify_fragment.mp classified
    obtain ⟨whole,listed,rfl,spelling⟩ := single (name,full)
      (TypeTable.mem_fragments.mpr ⟨found.symm,found ▸ some⟩)
    refine ⟨whole.2,.completed found listed,?_⟩
    change LuaType.primitive ((TypeTable.builtin.spelling? whole.1).getD whole.1) = _
    rw [spelling,Option.getD_some]
  | unknown => exact absurd member (TypeTable.classify_unknown_iff.mp classified)

/-- The mark of an optional value stands right behind a type that is no union. -/
theorem normalize_single {raw : Text} {type : LuaType} (resolved : r.type raw = type)
    (single : type.renderOptional = type.render ++ "?") (optional : Bool) :
    r.normalize raw optional =
      ⟨type,type.render,type.render ++ if optional then ("?" : Text) else []⟩ := by
  unfold normalize
  rw [resolved]
  cases optional with
  | false => simp
  | true => simp [single]

theorem stubModule_class {m : Api.Module} {j : Nat} {c : Api.Class} (listed : m.classes[j]? = some c) :
    (r.stubModule m).classes[j]? = some (r.stubClass c) := by
  simp [stubModule,listed]

theorem stubModule_enum {m : Api.Module} {j : Nat} {e : Api.Enum} (listed : m.enums[j]? = some e) :
    (r.stubModule m).enums[j]? = some (r.stubEnum e) := by
  simp [stubModule,listed]

theorem stubClass_supertype {c : Api.Class} {i : Nat} (known : name ∈ r.known)
    (above : c.supertypes[i]? = some name) :
    (r.stubClass c).supertypes[i]? = some (r.qualified name) := by
  simp [stubClass,above,nameType_known known,LuaType.render]

end Resolver

theorem TypeTable.Writes.undotted {phrase spelled : Text} (writes : TypeTable.builtin.Writes phrase spelled) :
    '.' ∉ spelled := by
  have whole : ∀ entry ∈ TypeTable.builtin.multiWord, '.' ∉ entry.2 := by decide
  have primitive : ∀ word ∈ TypeTable.builtin.primitives, '.' ∉ word := by decide
  have other : ∀ entry ∈ TypeTable.builtin.aliases, '.' ∉ entry.2 := by decide
  cases writes with
  | whole listed => exact whole _ listed
  | primitive listed same => exact same ▸ primitive _ listed
  | respelled listed => exact other _ listed
  | completed _ listed => exact whole _ listed

/-- A name of the model is the namespace, a dot and the name wherever it is declared and wherever it is
a supertype, whatever the table says. As a type it is the same text unless the table has a meaning for
the name. A name that means something to the built-in table is written as that table spells it, which is
never the declared name. -/
theorem model_name_written {api : Api} (config : Config) {name : Text} (known : name ∈ api.typeNames)
    (valid : Lua.isName name = true) :
    let r := api.resolver config
    let declared := config.space ++ "." ++ name
    (∀ m ∈ api.modules,
      (∀ (j : Nat) c, m.classes[j]? = some c → ∃ s, (r.stubModule m).classes[j]? = some s ∧
        (c.name = name → Stub.classLine declared s.supertypes ∈ s.lines) ∧
        ∀ i : Nat, c.supertypes[i]? = some name → s.supertypes[i]? = some declared) ∧
      ∀ (j : Nat) e, m.enums[j]? = some e → ∃ s, (r.stubModule m).enums[j]? = some s ∧
        (e.name = name → Stub.aliasLine declared ∈ s.lines)) ∧
    ∀ optional, let mark : Text := if optional then "?" else []
      (name ∉ config.table.vocabulary →
        r.normalize name optional = ⟨.named declared,declared,declared ++ mark⟩) ∧
      (config.table = .builtin → name ∈ config.table.vocabulary → ∃ spelled,
        config.table.Writes name spelled ∧ spelled ≠ declared ∧
        r.normalize name optional = ⟨.primitive spelled,spelled,spelled ++ mark⟩) := by
  intro r declared
  have type : r.type name = r.phraseType name := (Resolver.resolved_written (Resolver.written_name valid)).1
  refine ⟨fun m _ => ⟨fun j c listed => ?_,fun j e listed => ?_⟩,fun optional => ⟨fun free => ?_,?_⟩⟩
  · refine ⟨_,Resolver.stubModule_class listed,?_,fun i above => Resolver.stubClass_supertype known above⟩
    rintro rfl
    simp [Stub.Class.lines_eq,Resolver.stubClass,Resolver.qualified,r,declared,Api.resolver]
  · refine ⟨_,Resolver.stubModule_enum listed,?_⟩
    rintro rfl
    simp [Stub.Enum.lines_eq,Resolver.stubEnum,Resolver.qualified,r,declared,Api.resolver]
  · have resolved : r.type name = .named declared :=
      type.trans ((Resolver.phraseType_unknown free).trans (Resolver.nameType_known known))
    rw [Resolver.normalize_single resolved (by rfl)]
    simp [LuaType.render]
  · intro builtin member
    obtain ⟨spelled,writes,phrase⟩ := Resolver.phraseType_vocabulary (r := r) builtin (builtin ▸ member)
    refine ⟨spelled,builtin ▸ writes,?_,?_⟩
    · rintro rfl
      exact writes.undotted (by simp [declared])
    · rw [Resolver.normalize_single (type.trans phrase) (by rfl)]
      simp [LuaType.render]

def homonyms : Description :=
  [("m", {
    types := [{ name := "Image" }, { name := "number" },
      { name := "Canvas", supertypes := ["number", "Image"] }]
    enums := [{ name := "light" }] })]

theorem homonyms_written : homonyms.load = .ok homonyms.toApi ∧
    ∃ m ∈ homonyms.toApi.modules, ∃ image canvas : Stub.Class, ∃ light : Stub.Enum,
      let r := homonyms.toApi.resolver .default
      (r.stubModule m).classes[0]? = some image ∧ ("---@class love.Image" : Text) ∈ image.lines ∧
      (r.stubModule m).classes[2]? = some canvas ∧ canvas.supertypes[1]? = some ("love.Image" : Text) ∧
      (r.stubModule m).enums[0]? = some light ∧ ("---@alias love.light" : Text) ∈ light.lines ∧
      (r.normalize "Image" true).rendered = ("love.Image?" : Text) ∧
      ∃ spelled, TypeTable.builtin.Writes "light" spelled ∧ spelled ≠ ("love.light" : Text) ∧
        (r.normalize "light" false).rendered = spelled := by
  let m : Api.Module := homonyms.toApi.modules.headD ⟨[],[],[],[],[]⟩
  have listed : m ∈ homonyms.toApi.modules := List.mem_singleton.mpr rfl
  obtain ⟨positions,types⟩ := model_name_written .default
    (show ("Image" : Text) ∈ homonyms.toApi.typeNames by decide) (by decide)
  obtain ⟨others,lightTypes⟩ := model_name_written .default
    (show ("light" : Text) ∈ homonyms.toApi.typeNames by decide) (by decide)
  obtain ⟨image,first,declaration,_⟩ := (positions m listed).1 0 _ rfl
  obtain ⟨canvas,third,_,above⟩ := (positions m listed).1 2 _ rfl
  obtain ⟨light,only,alternative⟩ := (others m listed).2 0 _ rfl
  obtain ⟨spelled,writes,different,light_type⟩ := (lightTypes false).2 rfl (by decide)
  have bare : image.supertypes = [] := by
    have same := Option.some.inj (first.symm.trans (Resolver.stubModule_class rfl))
    rw [same]
    rfl
  have declared := declaration rfl
  rw [bare] at declared
  refine ⟨rfl,m,listed,image,canvas,light,first,declared,third,above 1 rfl,only,alternative rfl,?_,
    spelled,writes,different,?_⟩
  · exact congrArg Normalized.rendered ((types true).1 (by decide))
  · exact (congrArg Normalized.rendered light_type).trans (List.append_nil _)

/-- A class named like a primitive has another name as a type than as a supertype. -/
theorem primitive_name_divided : homonyms.load = .ok homonyms.toApi ∧
    ("number" : Text) ∈ homonyms.toApi.typeNames ∧ Lua.isName "number" = true ∧
    let r := homonyms.toApi.resolver .default
    (r.normalize "number" false).rendered = ("number" : Text) ∧
    ∃ m ∈ homonyms.toApi.modules, ∃ number canvas : Stub.Class,
      (r.stubModule m).classes[1]? = some number ∧ ("---@class love.number" : Text) ∈ number.lines ∧
      (r.stubModule m).classes[2]? = some canvas ∧
      canvas.supertypes = [("love.number" : Text),("love.Image" : Text)] := by
  let m : Api.Module := homonyms.toApi.modules.headD ⟨[],[],[],[],[]⟩
  refine ⟨rfl,by decide,by decide,by decide +kernel,m,List.mem_singleton.mpr rfl,_,_,
    Resolver.stubModule_class rfl,by decide +kernel,Resolver.stubModule_class rfl,by decide +kernel⟩

end LuaStubs
