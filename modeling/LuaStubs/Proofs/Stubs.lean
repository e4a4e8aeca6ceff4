import LuaStubs.Api.Load
import LuaStubs.Proofs.Layout

/-! What is known of the stubs of an API that was loaded: where variable arguments stand, and that no
type is broken over lines. -/
namespace LuaStubs

theorem insertBy_perm (le : α → α → Bool) (x : α) (l : List α) : (insertBy le x l).Perm (x :: l) := by
  induction l with
  | nil => exact .refl _
  | cons first rest ih =>
    unfold insertBy
    split
    · exact .refl _
    · exact (ih.cons first).trans (.swap x first rest)

theorem sortBy_perm (le : α → α → Bool) (l : List α) : (sortBy le l).Perm l := by
  induction l with
  | nil => exact .refl _
  | cons first rest ih => exact (insertBy_perm le first _).trans (ih.cons first)

namespace Api

def Module.allFunctions (m : Module) : List Function := m.classes.flatMap Class.methods ++ m.functions

def Module.variants (m : Module) : List Variant := m.allFunctions.flatMap Function.variants

def Variant.types (v : Variant) : List Text := v.params.map Param.type ++ v.returns.map Return.type

def Module.types (m : Module) : List Text := m.variants.flatMap Variant.types

def Variant.texts (v : Variant) : List Text :=
  v.description :: v.params.flatMap (fun p => p.description :: p.default.toList) ++
    v.returns.map Return.description

def Function.texts (f : Function) : List Text := f.description :: f.variants.flatMap Variant.texts

def Enum.texts (e : Enum) : List Text := e.description :: e.constants.map Constant.description

def Module.texts (m : Module) : List Text :=
  m.description :: m.classes.map Class.description ++ m.allFunctions.flatMap Function.texts ++
    m.enums.flatMap Enum.texts

def Variant.VarargsLast (v : Variant) : Prop := ∀ p ∈ v.params.dropLast, p.name ≠ varargsName

theorem mem_of_mem_ranked {variants : List Variant} {numbered : Numbered}
    (member : numbered ∈ ranked variants) : numbered.2 ∈ variants := by
  obtain ⟨i,below,rfl⟩ := List.mem_mapIdx.mp ((sortBy_perm _ _).mem_iff.mp member)
  exact List.getElem_mem below

end Api

namespace Description

theorem load_eq_ok {d : Description} {api : Api} (loaded : d.load = .ok api) :
    d.faults = [] ∧ api = d.toApi := by
  unfold load at loaded
  split at loaded
  · rename_i none
    exact ⟨none,(Except.ok.inj loaded).symm⟩
  · contradiction

theorem faultIf_nil {broken : Bool} {path : Text} {trouble : Trouble}
    (none : faultIf broken path trouble = []) : broken = false := by
  cases broken with
  | false => rfl
  | true => simp [faultIf] at none

theorem varargsLast_of_argumentFaults {path : Text} {arguments : List Argument}
    (none : argumentFaults path arguments = []) :
    ∀ a ∈ arguments.dropLast, a.name ≠ Api.varargsName := by
  induction arguments with
  | nil => simp
  | cons first rest ih =>
    simp only [argumentFaults,List.append_eq_nil_iff] at none
    cases rest with
    | nil => simp
    | cons second rest =>
      simp only [Argument.faults,List.append_eq_nil_iff] at none
      have here := faultIf_nil none.1.2
      simp only [List.isEmpty_cons,Bool.not_false,Bool.and_true,decide_eq_false_iff_not] at here
      intro a member
      rw [List.dropLast_cons_cons] at member
      rcases List.mem_cons.mp member with rfl | later
      · exact here
      · exact ih none.2 a later

theorem Function.varargsLast {parent : Text} {owner : Api.Owner} {f : Function}
    (none : f.faults parent = []) : ∀ v ∈ (f.toApi owner).variants, v.VarargsLast := by
  intro v member
  obtain ⟨origin,among,rfl⟩ := List.mem_map.mp member
  obtain ⟨i,below,rfl⟩ := List.mem_iff_getElem.mp among
  simp only [Function.faults,List.append_eq_nil_iff,List.flatten_eq_nil_iff] at none
  have arguments := varargsLast_of_argumentFaults (none.2 _ (List.mem_mapIdx.mpr ⟨i,below,rfl⟩))
  intro p inside
  change p ∈ (List.map Argument.toApi _).dropLast at inside
  rw [← List.map_dropLast] at inside
  obtain ⟨a,first,rfl⟩ := List.mem_map.mp inside
  exact arguments a first

/-- Variable arguments stand last in every variant of a loaded API. -/
theorem varargsLast_of_load {d : Description} {api : Api} (loaded : d.load = .ok api)
    {m : Api.Module} (member : m ∈ api.modules) : ∀ v ∈ m.variants, v.VarargsLast := by
  obtain ⟨none,rfl⟩ := load_eq_ok loaded
  obtain ⟨⟨name,origin⟩,among,rfl⟩ := List.mem_map.mp member
  have faults := List.flatMap_eq_nil_iff.mp none _ among
  simp only [Module.faults,List.append_eq_nil_iff,List.flatMap_eq_nil_iff] at faults
  intro v inside
  obtain ⟨f,function,variant⟩ := List.mem_flatMap.mp inside
  rcases List.mem_append.mp function with method | free
  · obtain ⟨c,ofModule,ofClass⟩ := List.mem_flatMap.mp method
    obtain ⟨type,described,rfl⟩ := List.mem_map.mp ofModule
    obtain ⟨origin,listed,rfl⟩ := List.mem_map.mp ofClass
    have inClass := faults.1.1.2 type described
    simp only [Class.faults,List.append_eq_nil_iff,List.flatMap_eq_nil_iff] at inClass
    exact Function.varargsLast (inClass.2 origin listed) v variant
  · obtain ⟨origin,listed,rfl⟩ := List.mem_map.mp free
    exact Function.varargsLast (faults.1.2 origin listed) v variant

end Description

open Stub (Unbroken) in
theorem LuaType.Over.unbroken {type : LuaType} (made : type.Over Unbroken) :
    Unbroken type.render := by
  have kept : LuaType.Kept Unbroken Unbroken Unbroken := {
    leaves := fun _ unbroken => unbroken
    union := fun _ _ all => Unbroken.join (by decide) all
    bare := by decide
    entries := by decide
    field := fun _ _ word unbroken =>
      ((Stub.unbroken_of_wordParts word.parts).append (by decide)).append unbroken
    entry := by decide
    braced := fun _ all =>
      ((show Unbroken "\x7b" by decide).append (Unbroken.join (by decide) all)).append (by decide) }
  exact made.render kept

/-- The configuration puts no line end into a type. -/
structure Config.Unbroken (config : Config) : Prop where
  space : Stub.Unbroken config.space
  spells : config.table.Spells Stub.Unbroken

theorem Config.unbroken_of_builtin {config : Config} (builtin : config.table = .builtin)
    (space : Lua.isName config.space = true) : config.Unbroken := by
  refine ⟨Stub.unbroken_name space,?_⟩
  rw [builtin]
  exact Phrase.builtin_spells.mono fun _ word => Stub.Phrasal.unbroken word.phrasal

namespace Resolver

open Stub (Unbroken)

variable {r : Resolver}

theorem unbroken_qualified {name : Text} (space : Lua.isName r.config.space = true)
    (unbroken : Unbroken name) : Unbroken (r.qualified name) :=
  ((Stub.unbroken_name space).append (by decide)).append unbroken

/-- A property of the text of a type that the two ways to mark an optional value keep. -/
theorem normalize_rendered (holds : Text → Prop) {raw : Text} (base : holds (r.type raw).render)
    (marked : holds ((r.type raw).render ++ "?"))
    (grouped : holds ("(" ++ (r.type raw).render ++ ")?")) (optional : Bool) :
    holds (r.normalize raw optional).rendered := by
  change holds (if optional then (r.type raw).renderOptional else (r.type raw).render)
  split
  · unfold LuaType.renderOptional
    split
    · exact grouped
    · exact marked
  · exact base

/-- A property of the signatures of all variants is one of all signatures that are written. -/
theorem stubFunction_signatures (holds : Stub.Signature → Prop) {f : Api.Function}
    (none : holds ⟨[], [], []⟩) (each : ∀ v ∈ f.variants, holds (r.stubSignature v)) :
    holds (r.stubFunction f).primary ∧ ∀ s ∈ (r.stubFunction f).alternates, holds s := by
  have ranked : ∀ s ∈ (Api.ranked f.variants).map fun numbered => r.stubSignature numbered.2,
      holds s := by
    intro s member
    obtain ⟨numbered,among,rfl⟩ := List.mem_map.mp member
    exact each _ (Api.mem_of_mem_ranked among)
  refine ⟨?_,fun s member => ranked s (List.mem_of_mem_tail member)⟩
  change holds (((Api.ranked f.variants).map fun numbered => r.stubSignature numbered.2).headD default)
  cases signatures : (Api.ranked f.variants).map fun numbered => r.stubSignature numbered.2 with
  | nil => exact none
  | cons first rest => exact ranked first (by simp [signatures])

end Resolver

namespace Config.Unbroken

variable {r : Resolver} (config : r.config.Unbroken)
include config

theorem qualified {name : Text} (unbroken : Stub.Unbroken name) : Stub.Unbroken (r.qualified name) :=
  (config.space.append (by decide)).append unbroken

/-- Whatever a type is written as, its text stays on one line. -/
theorem type (raw : Text) : Stub.Unbroken (r.type raw).render := by
  refine LuaType.Over.unbroken (Resolver.type_over config.spells ?_ Stub.unbroken_collapse raw)
  intro read nonempty words
  have phrasal : Stub.Unbroken (Text.join " " read) :=
    Stub.Phrasal.unbroken ⟨read,nonempty,words,rfl⟩
  exact Resolver.phraseType_over config.spells phrasal (config.qualified phrasal)

theorem normalize (raw : Text) (optional : Bool) :
    Stub.Unbroken (r.normalize raw optional).base ∧ Stub.Unbroken (r.normalize raw optional).rendered := by
  have base := config.type raw
  refine ⟨base,Resolver.normalize_rendered Stub.Unbroken base (base.append (by decide)) ?_ optional⟩
  exact ((show Stub.Unbroken "(" by decide).append base).append (by decide)

theorem stubSignature (v : Api.Variant) : (r.stubSignature v).Unbroken := by
  refine ⟨?_,?_,?_⟩
  · intro p member
    obtain ⟨origin,_,rfl⟩ := List.mem_map.mp member
    exact (config.normalize origin.type origin.optional).1
  · intro p member
    obtain ⟨origin,_,rfl⟩ := List.mem_map.mp member
    exact (config.normalize origin.type origin.optional).2
  · intro s member
    obtain ⟨origin,_,rfl⟩ := List.mem_map.mp member
    exact (config.normalize origin.type origin.optional).2

theorem stubFunction (f : Api.Function) : (r.stubFunction f).Unbroken := by
  have none : Stub.Signature.Unbroken ⟨[], [], []⟩ := ⟨by simp,by simp,by simp⟩
  obtain ⟨primary,alternates⟩ := Resolver.stubFunction_signatures Stub.Signature.Unbroken none
    fun v _ => config.stubSignature v
  exact ⟨primary,alternates⟩

end Config.Unbroken

namespace Resolver

open Stub (Unbroken)

variable {r : Resolver}

theorem stubFunction_unbroken (builtin : r.config.table = .builtin)
    (space : Lua.isName r.config.space = true) (f : Api.Function) :
    (r.stubFunction f).Unbroken :=
  (Config.unbroken_of_builtin builtin space).stubFunction f

/-- Supertypes and the names of enums are written as they are. -/
theorem stubModule_unbroken {m : Api.Module} (builtin : r.config.table = .builtin)
    (space : Lua.isName r.config.space = true) (named : (r.stubModule m).Named)
    (supertypes : ∀ c ∈ m.classes, ∀ s ∈ c.supertypes, Unbroken s)
    (enums : ∀ e ∈ m.enums, Unbroken e.name) : (r.stubModule m).Unbroken := by
  refine ⟨?_,?_,?_⟩
  · intro c member
    have name := Stub.unbroken_name (named.classes c member).name
    obtain ⟨origin,among,rfl⟩ := List.mem_map.mp member
    refine ⟨unbroken_qualified space name,?_,?_⟩
    · intro text inside
      obtain ⟨s,listed,rfl⟩ := List.mem_map.mp inside
      have plain := supertypes origin among s listed
      exact (nameType_over plain (unbroken_qualified space plain)).unbroken
    · intro f inside
      obtain ⟨method,_,rfl⟩ := List.mem_map.mp inside
      exact stubFunction_unbroken builtin space method
  · intro e member
    obtain ⟨origin,among,rfl⟩ := List.mem_map.mp member
    exact unbroken_qualified space (enums origin among)
  · intro f member
    obtain ⟨origin,_,rfl⟩ := List.mem_map.mp member
    exact stubFunction_unbroken builtin space origin

end Resolver
end LuaStubs
