import LuaStubs.Proofs.Program
import LuaStubs.Proofs.Stubs

/-! Every stub file that is written is a Lua chunk that loads. -/
namespace LuaStubs.Stub

variable {m : Module} {space : Text}

/-- The classes are the locals of a stub file. -/
theorem Module.declares_statements :
    (m.statements space).flatMap Lua.Check.declares = m.classes.map Class.name := by
  have ofClass (c : Class) : c.statements.flatMap Lua.Check.declares = [c.name] := by
    simp [Class.statements,Lua.Check.declares,List.flatMap_map]
  have classes : (m.classes.flatMap Class.statements).flatMap Lua.Check.declares =
      m.classes.map Class.name := by
    simp only [List.flatMap_assoc,ofClass,List.map_eq_flatMap]
  have functions : (m.functions.map fun f => Statement.moduleFunction space m.name f.name
      f.paramNames).flatMap Lua.Check.declares = [] := by
    simp [Lua.Check.declares,List.flatMap_map]
  rw [Module.statements,List.cons_append,List.flatMap_cons,List.flatMap_append,classes,functions]
  simp [Lua.Check.declares]

theorem Module.statements_fit
    (methods : ∀ c ∈ m.classes, ∀ f ∈ c.methods, Lua.Check.Params 1 f.paramNames)
    (functions : ∀ f ∈ m.functions, Lua.Check.Params 0 f.paramNames) :
    ∀ s ∈ m.statements space, Lua.Check.Fits s := by
  intro s member
  rcases List.mem_cons.mp member with rfl | later
  · trivial
  · rcases List.mem_append.mp later with ofClass | free
    · obtain ⟨c,among,inside⟩ := List.mem_flatMap.mp ofClass
      rcases List.mem_cons.mp inside with rfl | method
      · trivial
      · obtain ⟨f,listed,rfl⟩ := List.mem_map.mp method
        exact methods c among f listed
    · obtain ⟨f,listed,rfl⟩ := List.mem_map.mp free
      exact functions f listed

end LuaStubs.Stub

namespace LuaStubs.Resolver

variable {r : Resolver}

theorem stubFunction_params {f : Api.Function} {declared : Nat} (few : declared ≤ 1)
    (limit : ∀ v ∈ f.variants, v.params.length ≤ 199)
    (varargs : ∀ v ∈ f.variants, v.VarargsLast) :
    Lua.Check.Params declared (r.stubFunction f).paramNames := by
  have none : Lua.Check.Params declared ((⟨[], [], []⟩ : Stub.Signature).params.map Stub.Param.name) :=
    ⟨by simp; omega,by simp⟩
  refine (stubFunction_signatures
    (fun s => Lua.Check.Params declared (s.params.map Stub.Param.name)) none ?_).1
  intro v member
  have names : (r.stubSignature v).params.map Stub.Param.name = v.params.map Api.Param.name := by
    simp [stubSignature,stubParam]
  rw [names]
  refine ⟨?_,?_⟩
  · have := limit v member
    simp only [List.length_map]
    omega
  · intro name inside
    rw [← List.map_dropLast] at inside
    obtain ⟨p,first,rfl⟩ := List.mem_map.mp inside
    exact varargs v member p first

theorem stubModule_fits {m : Api.Module} (space : Text)
    (limit : ∀ v ∈ m.variants, v.params.length ≤ 199)
    (varargs : ∀ v ∈ m.variants, v.VarargsLast) :
    ∀ s ∈ (r.stubModule m).statements space, Lua.Check.Fits s := by
  have fits {f : Api.Function} {declared : Nat} (few : declared ≤ 1) (among : f ∈ m.allFunctions) :
      Lua.Check.Params declared (r.stubFunction f).paramNames := by
    refine stubFunction_params few (fun v member => limit v ?_) fun v member => varargs v ?_
    · exact List.mem_flatMap.mpr ⟨f,among,member⟩
    · exact List.mem_flatMap.mpr ⟨f,among,member⟩
  apply Stub.Module.statements_fit
  · intro c member f listed
    obtain ⟨ofModule,inside,rfl⟩ := List.mem_map.mp member
    obtain ⟨method,ofClass,rfl⟩ := List.mem_map.mp listed
    exact fits (Nat.le_refl _)
      (List.mem_append_left _ (List.mem_flatMap.mpr ⟨ofModule,inside,ofClass⟩))
  · intro f listed
    obtain ⟨function,free,rfl⟩ := List.mem_map.mp listed
    exact fits (Nat.zero_le _) (List.mem_append_right _ free)

end LuaStubs.Resolver

namespace LuaStubs

theorem Lua.complaint_of_refusal {name source : Text} (chunk : '\x00' ∉ name)
    (written : source.head? ≠ some Chunk.compiledMark) (accepted : Chunk.refusal? source = none) :
    complaint? name source = none := by
  simp [complaint?,chunk,written,accepted]

theorem Stub.Module.emit_head {m : Module} {space text : Text} (emitted : m.emit space = .ok text) :
    text.head? = some '-' := by
  rw [(emit_eq_ok emitted).2]
  rfl

/-- A module that is written is a chunk that loads, under its own name and any other that can name a
chunk: whatever its descriptions, defaults, values and types are. -/
theorem emitted_module_loads {d : Description} {api : Api} (config : Config) {m : Api.Module}
    {text : Text} (loaded : d.load = .ok api) (builtin : config.table = .builtin)
    (space : Lua.isName config.space = true) (member : m ∈ api.modules)
    (supertypes : ∀ c ∈ m.classes, ∀ s ∈ c.supertypes, Stub.Unbroken s)
    (enums : ∀ e ∈ m.enums, Stub.Unbroken e.name) (classes : m.classes.length ≤ 200)
    (params : ∀ v ∈ m.variants, v.params.length ≤ 199)
    (emitted : ((api.resolver config).stubModule m).emit config.space = .ok text) :
    Lua.complaint? m.name text = none ∧ Lua.complaint? (m.name ++ ".lua") text = none ∧
      ∀ name, '\x00' ∉ name → Lua.complaint? name text = none := by
  have written : text.head? ≠ some Lua.Chunk.compiledMark := by
    rw [Stub.Module.emit_head emitted]
    decide
  obtain ⟨faultless,rfl⟩ := Stub.Module.emit_eq_ok emitted
  have named := Stub.Module.named_of_faults faultless
  have types := Resolver.stubModule_unbroken (r := api.resolver config) builtin space named supertypes
    enums
  have varargs := Description.varargsLast_of_load loaded member
  have lexed := Stub.lexes_unlines (Stub.lays_module space named types)
    (Stub.Module.statements_named space named)
  have fits := Resolver.stubModule_fits (r := api.resolver config) config.space params varargs
  have few : ((((api.resolver config).stubModule m).statements config.space).flatMap
      Lua.Check.declares).length ≤ 200 := by
    simpa [Stub.Module.declares_statements,Resolver.stubModule] using classes
  have accepted := Lua.Check.refusal_of_lexes lexed few fits
  have plain : '\x00' ∉ m.name := fun zero =>
    absurd (Phrase.wordParts_of_name named.name _ zero) (by decide)
  exact ⟨Lua.complaint_of_refusal plain written accepted,
    Lua.complaint_of_refusal (by simpa using plain) written accepted,
    fun name chunk => Lua.complaint_of_refusal chunk written accepted⟩

/-- Descriptions, a default, a value and types that would all break out of their lines. -/
def unruly : Description :=
  [("m", {
    description := "one\r\ntwo\rend"
    types := [{
      name := "C"
      description := "[[\nreturn"
      supertypes := ["Object"]
      functions := [{
        name := "get"
        variants := [{
          arguments := [
            { name := "x", type := .token "table<string,\na or b>", default := some (.string "\n--[[\rend") },
            { name := "...", type := .token "\xff or\n-" }] }] }] }]
    functions := [{
      name := "f"
      variants := [{ returns := [{ name := some "r", type := .token "\x7ba: b\x7d", description := "\n)" }] }] }]
    enums := [{ name := "E", constants := [{ name := "\"\n" }] }] })]

theorem unruly_loads : unruly.load = .ok unruly.toApi ∧ ∃ m ∈ unruly.toApi.modules, ∃ text,
    ((unruly.toApi.resolver .default).stubModule m).emit "love" = .ok text ∧
      Lua.complaint? "m.lua" text = none := by
  let m : Api.Module := unruly.toApi.modules.headD ⟨[], [], [], [], []⟩
  have loaded : unruly.load = .ok unruly.toApi := rfl
  have member : m ∈ unruly.toApi.modules := List.mem_singleton.mpr rfl
  have faultless : ((unruly.toApi.resolver .default).stubModule m).faults = [] := by
    decide +kernel
  have emitted := Stub.Module.emit_of_faults "love" faultless
  refine ⟨loaded,m,member,_,emitted,?_⟩
  refine (emitted_module_loads .default loaded rfl (by decide) member ?_ ?_ ?_ ?_ emitted).2.1
  · decide
  · decide
  · decide
  · decide

end LuaStubs
