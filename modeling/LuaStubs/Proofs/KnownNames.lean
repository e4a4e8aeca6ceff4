import LuaStubs.Stub
import Mathlib.Data.List.Basic

/-! Resolution asks only which names are known: the order in which a model lists its modules is of no
account to any stub or finding. -/
namespace LuaStubs

namespace Resolver

structure Agrees (r s : Resolver) : Prop where
  config : r.config = s.config
  known : ∀ name, r.known.contains name = s.known.contains name

namespace Agrees

variable {r s : Resolver}

section Names

variable (agree : r.Agrees s)
include agree

theorem qualified : r.qualified = s.qualified := by
  funext name
  simp only [Resolver.qualified,agree.config]

theorem unrecognized : r.unrecognized = s.unrecognized := by
  funext subject message text
  simp only [Resolver.unrecognized,agree.config]

theorem nameType : r.nameType = s.nameType := by
  funext name
  simp only [Resolver.nameType,agree.known,agree.qualified]

theorem nameFindings : r.nameFindings = s.nameFindings := by
  funext subject name
  simp only [Resolver.nameFindings,agree.known,agree.unrecognized]

theorem completion? : r.completion? = s.completion? := by
  funext completions
  simp only [Resolver.completion?,agree.config]

theorem phraseType : r.phraseType = s.phraseType := by
  funext phrase
  simp only [Resolver.phraseType,agree.config,agree.completion?,agree.nameType]

theorem phraseFindings : r.phraseFindings = s.phraseFindings := by
  funext subject phrase
  simp only [Resolver.phraseFindings,agree.config,agree.completion?,agree.nameFindings,
    agree.unrecognized]

end Names

mutual
theorem treeType (agree : r.Agrees s) : ∀ tree, r.treeType tree = s.treeType tree
  | .phrase text => by simp only [Resolver.treeType,agree.phraseType]
  | .union alts => by simp only [Resolver.treeType,agree.treeTypes alts]
  | .table fields _ => by simp only [Resolver.treeType,agree.fieldTypes fields]

theorem treeTypes (agree : r.Agrees s) : ∀ trees, r.treeTypes trees = s.treeTypes trees
  | [] => by simp only [Resolver.treeTypes]
  | alt :: rest => by simp only [Resolver.treeTypes,agree.treeType alt,agree.treeTypes rest]

theorem fieldTypes (agree : r.Agrees s) : ∀ fields, r.fieldTypes fields = s.fieldTypes fields
  | [] => by simp only [Resolver.fieldTypes]
  | field :: rest => by
    simp only [Resolver.fieldTypes,agree.fieldType field,agree.fieldTypes rest]

theorem fieldType (agree : r.Agrees s) : ∀ field, r.fieldType field = s.fieldType field
  | (_,tree) => by simp only [Resolver.fieldType,agree.treeType tree]
end

mutual
theorem treeFindings (agree : r.Agrees s) (subject : Text) :
    ∀ tree, r.treeFindings subject tree = s.treeFindings subject tree
  | .phrase text => by simp only [Resolver.treeFindings,agree.phraseFindings]
  | .union alts => by simp only [Resolver.treeFindings,agree.treesFindings subject alts]
  | .table fields _ => by simp only [Resolver.treeFindings,agree.fieldsFindings subject fields]

theorem treesFindings (agree : r.Agrees s) (subject : Text) :
    ∀ trees, r.treesFindings subject trees = s.treesFindings subject trees
  | [] => by simp only [Resolver.treesFindings]
  | alt :: rest => by
    simp only [Resolver.treesFindings,agree.treeFindings subject alt,
      agree.treesFindings subject rest]

theorem fieldsFindings (agree : r.Agrees s) (subject : Text) :
    ∀ fields, r.fieldsFindings subject fields = s.fieldsFindings subject fields
  | [] => by simp only [Resolver.fieldsFindings]
  | field :: rest => by
    simp only [Resolver.fieldsFindings,agree.fieldFindings subject field,
      agree.fieldsFindings subject rest]

theorem fieldFindings (agree : r.Agrees s) (subject : Text) :
    ∀ field, r.fieldFindings subject field = s.fieldFindings subject field
  | (name,tree) => by
    simp only [Resolver.fieldFindings,agree.treeFindings (subject ++ "." ++ name) tree]
end

variable (agree : r.Agrees s)
include agree

theorem type : r.type = s.type := by
  have same (other) : r.typeOr other = s.typeOr other := by
    funext raw
    simp only [Resolver.typeOr,agree.config,agree.treeType]
  have alone : r.aloneType = s.aloneType := by
    funext raw
    simp only [Resolver.aloneType,same]
  funext raw
  simp only [Resolver.type,same,alone]

theorem findings : r.findings = s.findings := by
  have same (other) : r.findingsOr other = s.findingsOr other := by
    funext subject raw
    simp only [Resolver.findingsOr,agree.config,agree.treeFindings]
  have alone : r.aloneFindings = s.aloneFindings := by
    funext subject raw
    simp only [Resolver.aloneFindings,same,agree.unrecognized]
  funext subject raw
  simp only [Resolver.findings,same,alone,agree.unrecognized]

theorem stubFunction : r.stubFunction = s.stubFunction := by
  have normalize : r.normalize = s.normalize := by
    funext raw optional
    simp only [Resolver.normalize,agree.type]
  have param : r.stubParam = s.stubParam := by
    funext p
    simp only [Resolver.stubParam,normalize]
  have returned : r.stubReturn = s.stubReturn := by
    funext v
    simp only [Resolver.stubReturn,normalize]
  have signature : r.stubSignature = s.stubSignature := by
    funext v
    simp only [Resolver.stubSignature,param,returned]
  funext f
  simp only [Resolver.stubFunction,signature]

theorem stubModule : r.stubModule = s.stubModule := by
  have stubClass : r.stubClass = s.stubClass := by
    funext c
    simp only [Resolver.stubClass,agree.qualified,agree.nameType,agree.stubFunction]
  have stubEnum : r.stubEnum = s.stubEnum := by
    funext e
    simp only [Resolver.stubEnum,agree.qualified]
  funext m
  simp only [Resolver.stubModule,stubClass,stubEnum,agree.stubFunction]

theorem moduleFindings : r.moduleFindings = s.moduleFindings := by
  have function : r.functionFindings = s.functionFindings := by
    funext parent f
    simp only [Resolver.functionFindings,Resolver.variantFindings,agree.findings]
  have ofClass : r.classFindings = s.classFindings := by
    funext parent c
    simp only [Resolver.classFindings,agree.nameFindings,function]
  funext m
  simp only [Resolver.moduleFindings,ofClass,function]

end Agrees

end Resolver

/-- Models with the same modules, in any order, resolve alike. -/
theorem Api.resolver_agrees {api other : Api} (config : Config)
    (same : other.modules.Perm api.modules) :
    (other.resolver config).Agrees (api.resolver config) := by
  refine ⟨rfl,fun name => ?_⟩
  have names : other.typeNames.Perm api.typeNames := same.flatMap_right Api.Module.typeNames
  rw [Bool.eq_iff_iff,List.contains_iff_mem,List.contains_iff_mem]
  exact names.mem_iff

end LuaStubs
