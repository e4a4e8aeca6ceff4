import LuaStubs.Proofs.Loading
import LuaStubs.Proofs.Overloads
import Mathlib.Data.List.Infix

/-! What is written of a function shows all of its signatures: the one that ranks first by the tags of
its parameters and values and by the declaration, each other one by an overload. -/
namespace LuaStubs

namespace Stub

def tags (lines : List Text) : List Text := lines.filter (Text.startsWith · "---@")

theorem tags_append (a b : List Text) : tags (a ++ b) = tags a ++ tags b := List.filter_append a b

theorem tags_flatMap {parts : List α} {lines : α → List Text} {tag : α → Text}
    (each : ∀ part ∈ parts, tags (lines part) = [tag part]) :
    tags (parts.flatMap lines) = parts.map tag := by
  rw [tags,List.filter_flatMap,List.map_eq_flatMap]
  exact List.flatMap_congr each

theorem tags_comments {texts : List Text} (untagged : ∀ text ∈ texts, text.head? ≠ some '@') :
    tags (texts.map (("---" : Text) ++ ·)) = [] := by
  refine List.filter_eq_nil_iff.mpr fun line member starts => ?_
  obtain ⟨text,among,rfl⟩ := List.mem_map.mp member
  have marked : text.head? = some '@' := startsWith_comment.mp starts
  exact untagged text among marked

theorem tags_docLines {t : Text} (untagged : Untagged t) : tags (docLines t) = [] :=
  tags_comments untagged

theorem starts_titled {start tag : Text} (starts : Text.startsWith tag start = true) (t : Text) :
    Text.startsWith (titled tag " #" t) start = true := by
  obtain ⟨rest,rfl⟩ := Text.startsWith_iff.mp starts
  unfold titled
  split
  · exact starts
  · exact Text.startsWith_iff.mpr ⟨rest ++ " #" ++ " " ++ (textLines t).headD [],by simp⟩

theorem tags_described {tag t : Text} (marked : Text.startsWith tag "---@" = true)
    (unmarked : Unmarked t) : tags (describedLines tag " #" t) = [titled tag " #" t] := by
  have none := tags_comments (untagged_tail_iff.mpr unmarked)
  rw [describedLines_titled,tags,List.filter_cons,if_pos (starts_titled marked t)]
  exact congrArg _ none

theorem starts_docLines {t line : Text} (member : line ∈ docLines t) :
    Text.startsWith line "---" = true := by
  obtain ⟨text,_,rfl⟩ := List.mem_map.mp member
  exact Text.startsWith_iff.mpr ⟨text,rfl⟩

theorem starts_described {tag t line : Text} (comment : Text.startsWith tag "---" = true)
    (member : line ∈ describedLines tag " #" t) : Text.startsWith line "---" = true := by
  rw [describedLines_titled] at member
  rcases List.mem_cons.mp member with rfl | later
  · exact starts_titled comment t
  · obtain ⟨text,_,rfl⟩ := List.mem_map.mp later
    exact Text.startsWith_iff.mpr ⟨text,rfl⟩

/-- Everything above the declaration of a function is a comment. -/
theorem starts_comments {f : Function} {self : Option Text} {line : Text}
    (member : line ∈ f.comments self) : Text.startsWith line "---" = true := by
  rcases Function.mem_comments member with ⟨t,doc⟩ | ⟨p,_,inside⟩ | ⟨s,_,inside⟩ | ⟨s,_,inside⟩
  · exact starts_docLines doc
  · exact starts_described (Text.startsWith_iff.mpr ⟨_,rfl⟩) inside
  · exact starts_described (Text.startsWith_iff.mpr ⟨_,rfl⟩) inside
  · rcases List.mem_append.mp inside with doc | tag
    · exact starts_docLines doc
    · rw [List.mem_singleton.mp tag]
      exact Text.startsWith_iff.mpr ⟨_,rfl⟩

end Stub

namespace Resolver

variable (r : Resolver)

def paramTag (p : Api.Param) : Text :=
  Stub.titled ("---@param " ++ p.name ++ " " ++ (r.normalize p.type p.optional).rendered)
    " #" (r.stubParam p).remark

def returnTag (s : Api.Return) : Text :=
  Stub.titled ("---@return " ++ ((r.normalize s.type s.optional).rendered ++ s.name.elim [] (' ' :: ·)))
    " #" s.description

def overloadParam (p : Api.Param) : Text :=
  p.name ++ (if p.optional && !p.isVarargs then ("?" : Text) else []) ++ ": " ++ (r.type p.type).render

/-- The line with a whole signature. A method takes its object first. -/
def overloadTag (receiver : Option Text) (v : Api.Variant) : Text :=
  let object := receiver.toList.map fun name => "self: " ++ r.qualified name
  let returns := v.returns.map fun s => (r.normalize s.type s.optional).rendered
  "---@overload fun(" ++ Text.join ", " (object ++ v.params.map r.overloadParam) ++ "):" ++
    if returns = [] then ("nil" : Text) else Text.join ", " returns

variable {r} {f : Api.Function} {v : Api.Variant} {receiver : Option Text} {number : Nat}
  {rest : List Api.Numbered}

theorem inOverload_eq (p : Api.Param) : (r.stubParam p).inOverload = r.overloadParam p := by
  unfold Stub.Param.inOverload overloadParam Api.Param.isVarargs
  by_cases varargs : p.name = Api.varargsName
  · simp [stubParam,normalize,varargs]
  · cases optional : p.optional <;> simp [stubParam,normalize,varargs,optional]

theorem overloadLine_eq (receiver : Option Text) (v : Api.Variant) :
    (r.stubSignature v).overloadLine (receiver.map r.qualified) = r.overloadTag receiver v := by
  have params : (r.stubSignature v).params.map Stub.Param.inOverload = v.params.map r.overloadParam := by
    rw [stubSignature,List.map_map]
    exact List.map_congr_left fun p _ => inOverload_eq p
  have object : (receiver.map r.qualified).toList.map (("self: " : Text) ++ ·) =
      receiver.toList.map fun name => "self: " ++ r.qualified name := by
    cases receiver <;> rfl
  unfold Stub.Signature.overloadLine Stub.Signature.funType overloadTag
  rw [params,object]
  cases returned : v.returns with
  | nil => simp [stubSignature,returned]
  | cons first others => simp [stubSignature,stubReturn,returned,Function.comp_def]

theorem tags_param {p : Api.Param} (unmarked : Stub.Unmarked (r.stubParam p).remark) :
    Stub.tags (r.stubParam p).lines = [r.paramTag p] :=
  Stub.tags_described (Text.startsWith_iff.mpr ⟨_,rfl⟩) unmarked

theorem tags_return {s : Api.Return} (unmarked : Stub.Unmarked s.description) :
    Stub.tags (r.stubReturn s).lines = [r.returnTag s] := by
  rw [stubReturn_lines]
  exact Stub.tags_described (Text.startsWith_iff.mpr ⟨_,rfl⟩) unmarked

theorem tags_overload (untagged : Stub.Untagged v.description) :
    Stub.tags ((r.stubSignature v).overloadLines (receiver.map r.qualified)) =
      [r.overloadTag receiver v] := by
  have docs : Stub.tags (Stub.docLines (r.stubSignature v).description) = [] :=
    Stub.tags_docLines untagged
  rw [Stub.Signature.overloadLines,Stub.tags_append,docs,overloadLine_eq]
  rfl

theorem stubFunction_eq (ranked : Api.ranked f.variants = (number,v) :: rest) : r.stubFunction f =
    ⟨f.name,f.owner,f.description,r.stubSignature v,rest.map fun other => r.stubSignature other.2⟩ := by
  simp [stubFunction,ranked]

/-- Where no text of a function starts a tag, its tags are those of its signatures. -/
theorem tags_comments (ranked : Api.ranked f.variants = (number,v) :: rest)
    (untagged : ∀ t ∈ f.texts, Stub.Untagged t) :
    Stub.tags ((r.stubFunction f).comments (receiver.map r.qualified)) =
      v.params.map r.paramTag ++ v.returns.map r.returnTag ++
        rest.map fun other => r.overloadTag receiver other.2 := by
  have texts {other : Api.Numbered} (member : other ∈ (number,v) :: rest) :
      ∀ t ∈ other.2.texts, Stub.Untagged t := by
    intro t inside
    apply untagged
    exact List.mem_cons_of_mem _ (List.mem_flatMap.mpr
      ⟨other.2,Api.mem_of_mem_ranked (ranked ▸ member),inside⟩)
  have first := texts List.mem_cons_self
  have docs : Stub.tags (r.stubFunction f).docLines = [] := by
    have own := Stub.tags_docLines (untagged f.description (by simp [Api.Function.texts]))
    have signature := Stub.tags_docLines (first v.description (by simp [Api.Variant.texts]))
    have between (shown : Bool) : Stub.tags (if shown then [Stub.emptyDoc] else []) = [] := by
      cases shown <;> rfl
    rw [stubFunction_eq ranked,Stub.Function.docLines,Stub.tags_append,Stub.tags_append,own,between]
    exact signature
  have params : Stub.tags ((v.params.map r.stubParam).flatMap Stub.Param.lines) =
      v.params.map r.paramTag := by
    rw [List.flatMap_map]
    exact Stub.tags_flatMap fun p among => tags_param (stubParam_unmarked first among)
  have returns : Stub.tags ((v.returns.map r.stubReturn).flatMap Stub.Return.lines) =
      v.returns.map r.returnTag := by
    rw [List.flatMap_map]
    exact Stub.tags_flatMap fun s among => tags_return (return_unmarked first among)
  have overloads : Stub.tags ((rest.map fun other => r.stubSignature other.2).flatMap
      (Stub.Signature.overloadLines (receiver.map r.qualified))) =
        rest.map fun other => r.overloadTag receiver other.2 := by
    rw [List.flatMap_map]
    apply Stub.tags_flatMap
    intro other among
    apply tags_overload
    exact texts (List.mem_cons_of_mem _ among) _ (by simp [Api.Variant.texts])
  rw [Stub.Function.comments,Stub.tags_append,Stub.tags_append,Stub.tags_append,docs,
    stubFunction_eq ranked,overloads]
  simp only [stubSignature,params,returns,List.nil_append]

def functionText (r : Resolver) (m : Api.Module) (receiver : Option Text) (f : Api.Function) : Text :=
  Stub.unlines ((r.stubFunction f).lines (receiver.getD (r.qualified m.name)) (receiver.map r.qualified))

def declaration (r : Resolver) (m : Api.Module) (receiver : Option Text) (name : Text)
    (params : List Api.Param) : Text :=
  Stub.declarationLine (receiver.getD (r.qualified m.name))
    (if receiver.isSome then (":" : Text) else ".") name (params.map Api.Param.name)

variable {m : Api.Module} {text : Text}

theorem functionText_within (among : (receiver,f) ∈ m.members)
    (emitted : (r.stubModule m).emit r.config.space = .ok text) :
    r.functionText m receiver f <:+: text := by
  obtain ⟨_,rfl⟩ := Stub.Module.emit_eq_ok emitted
  exact List.IsInfix.flatMap (lines_together r.config.space among) _

theorem declaration_eq (ranked : Api.ranked f.variants = (number,v) :: rest) :
    (r.stubFunction f).declaration (receiver.getD (r.qualified m.name)) (receiver.map r.qualified) =
      r.declaration m receiver f.name v.params := by
  have names : (r.stubSignature v).params.map Stub.Param.name = v.params.map Api.Param.name := by
    rw [stubSignature,List.map_map]
    rfl
  unfold Stub.Function.declaration declaration Stub.declarationLine
  rw [stubFunction_eq ranked,Option.isSome_map,apply_ite String.toList]
  simp only [names]

/-- Each line of a function is one line of its text. -/
theorem lines_functionText (config : r.config.Unbroken) {parent : Text}
    (faultless : (r.stubFunction f).faults parent = [])
    (owner : Lua.isName (receiver.getD m.name) = true)
    (ranked : Api.ranked f.variants = (number,v) :: rest) :
    Text.lines (r.functionText m receiver f) = (r.stubFunction f).comments (receiver.map r.qualified) ++
      [r.declaration m receiver f.name v.params] := by
  have named := Stub.Function.named_of_faults faultless
  have unbroken := Stub.unbroken_name owner
  have object : ∀ text ∈ receiver.map r.qualified, Stub.Unbroken text := by
    intro text given
    obtain ⟨name,rfl,rfl⟩ := Option.map_eq_some_iff.mp given
    exact config.qualified unbroken
  have declared : Stub.Unbroken (r.declaration m receiver f.name v.params) := by
    have first : Stub.Unbroken (receiver.getD (r.qualified m.name)) := by
      cases receiver with
      | none => exact config.qualified unbroken
      | some name => exact unbroken
    have mark : Stub.Unbroken (if receiver.isSome then (":" : Text) else ".") := by
      split <;> decide
    have params := named.params
    rw [stubFunction_eq ranked] at params
    apply Stub.unbroken_declarationLine first mark named.name
    intro name member
    obtain ⟨p,among,rfl⟩ := List.mem_map.mp member
    exact params _ (List.mem_map_of_mem among)
  rw [← declaration_eq ranked] at declared ⊢
  apply Stub.lines_unlines
  intro line member
  rcases List.mem_append.mp member with comment | last
  · exact (Stub.remark_function named (config.stubFunction f) object comment).unbroken
  · rw [List.mem_singleton.mp last]
    exact declared

end Resolver

/-- Every function of a module that was loaded has a variant. -/
theorem Api.Module.Lawful.variants_ne_nil {m : Api.Module} (lawful : m.Lawful) {receiver : Option Text}
    {f : Api.Function} (among : (receiver,f) ∈ m.members) : f.variants ≠ [] := by
  rcases List.mem_append.mp among with method | free
  · obtain ⟨c,listed,inside⟩ := List.mem_flatMap.mp method
    obtain ⟨f,member,same⟩ := List.mem_map.mp inside
    obtain ⟨_,rfl⟩ := Prod.mk.inj same
    exact ((lawful.classes c listed).methods f member).some
  · obtain ⟨f,member,same⟩ := List.mem_map.mp free
    obtain ⟨_,rfl⟩ := Prod.mk.inj same
    exact (lawful.functions f member).some

/-- A function that can be written is written with all of its variants, where the configuration puts no
line end into types: comments, then the declaration of the variant that ranks first. If no text starts
a tag, the tags are those of its parameters and values and an overload for each other variant, in
order. -/
theorem function_signatures {api : Api} {pointer : Option Text}
    {documents : List (Except LoadError Api.Document)} (config : Config) {m : Api.Module}
    {receiver : Option Text} {f : Api.Function} {parent : Text}
    (loaded : Api.loadAll pointer ⟨[]⟩ documents = .ok api) (member : m ∈ api.modules)
    (among : (receiver,f) ∈ m.members) (unbroken : config.Unbroken)
    (faultless : ((api.resolver config).stubFunction f).faults parent = [])
    (owner : Lua.isName (receiver.getD m.name) = true) :
    let r := api.resolver config
    (∀ text, (r.stubModule m).emit config.space = .ok text → r.functionText m receiver f <:+: text) ∧
    ∃ number v rest above,
      Api.ranked f.variants = (number,v) :: rest ∧
      ((number,v) :: rest).Perm (f.variants.mapIdx Prod.mk) ∧ rest.length + 1 = f.variants.length ∧
      Text.lines (r.functionText m receiver f) = above ++ [r.declaration m receiver f.name v.params] ∧
      (∀ line ∈ above, Text.startsWith line "---" = true) ∧
      ((∀ t ∈ f.texts, Stub.Untagged t) → Stub.tags above =
        v.params.map r.paramTag ++ v.returns.map r.returnTag ++
          rest.map fun other => r.overloadTag receiver other.2) := by
  intro r
  have some := (Api.lawful_of_loadAll loaded m member).variants_ne_nil among
  have ordered : (Api.ranked f.variants).Perm (f.variants.mapIdx Prod.mk) := sortBy_perm _ _
  cases ranked : Api.ranked f.variants with
  | nil =>
    rw [ranked] at ordered
    simp [some] at ordered
  | cons first rest =>
    obtain ⟨number,v⟩ := first
    rw [ranked] at ordered
    have count : rest.length + 1 = f.variants.length := by
      simpa using ordered.length_eq
    exact ⟨fun text => Resolver.functionText_within among,number,v,rest,
      (r.stubFunction f).comments (receiver.map r.qualified),rfl,ordered,count,
      Resolver.lines_functionText unbroken faultless owner ranked,
      fun line => Stub.starts_comments,Resolver.tags_comments ranked⟩

def varied : Api.Document := ⟨"m.json",
  "\x7b\"m\":\x7b\"types\":[\x7b\"name\":\"C\",\"methods\":[\x7b\"name\":\"set\",\"description\":\"Sets.\",\"variants\":[" ++
  "\x7b\"description\":\"One.\",\"arguments\":[\x7b\"name\":\"x\",\"type\":\"number\",\"default\":1\x7d]," ++
  "\"returns\":[\x7b\"name\":\"old\",\"type\":\"C\"\x7d]\x7d," ++
  "\x7b\"arguments\":[\x7b\"name\":\"x\",\"type\":\"number or nil\",\"description\":\"a\\nb\"\x7d," ++
  "\x7b\"name\":\"...\",\"type\":\"any\",\"optional\":true\x7d]\x7d,\x7b\"arguments\":[]\x7d]\x7d]\x7d]\x7d\x7d"⟩

theorem varied_signatures : ∃ api : Api, Api.loadAll none ⟨[]⟩ [.ok varied] = .ok api ∧
    ∃ m ∈ api.modules, ∃ f : Api.Function, (some ("C" : Text),f) ∈ m.members ∧
    f.variants.length = 3 ∧ ∃ above : List Text,
      Text.lines ((api.resolver .default).functionText m (some "C") f) =
        above ++ [("function C:set(x, ...) end" : Text)] ∧
      Stub.tags above = ["---@param x number|nil # a", "---@param ... any?",
        "---@overload fun(self: love.C, x?: number):love.C",
        "---@overload fun(self: love.C):nil"].map String.toList := by
  let f : Api.Function := ⟨"set",.ofClass "C","Sets.",[
    ⟨[⟨"x","number",true,some "1",[]⟩],[⟨some "old","C",false,[]⟩],"One."⟩,
    ⟨[⟨"x","number or nil",false,none,"a\nb"⟩,⟨"...","any",true,none,[]⟩],[],[]⟩,⟨[],[],[]⟩]⟩
  let m : Api.Module := ⟨"m",[],[⟨"C",[],[],[f]⟩],[],[]⟩
  have loaded : Api.loadAll none ⟨[]⟩ [.ok varied] = .ok ⟨[m]⟩ := by decide +kernel
  have config : Config.default.Unbroken := Config.unbroken_of_builtin rfl (by decide)
  have faultless : (((⟨[m]⟩ : Api).resolver .default).stubFunction f).faults "m.C" = [] := by
    decide +kernel
  have among : (some ("C" : Text),f) ∈ m.members := List.mem_singleton.mpr rfl
  obtain ⟨_,number,v,rest,above,ranked,_,_,lines,_,tags⟩ := function_signatures .default loaded
    (List.mem_singleton.mpr rfl) among config faultless (by decide)
  have first : (number,v) :: rest = Api.ranked f.variants := ranked.symm
  obtain ⟨same,rfl⟩ := List.cons.inj first
  obtain ⟨rfl,rfl⟩ := Prod.mk.inj same
  refine ⟨_,loaded,m,List.mem_singleton.mpr rfl,f,among,rfl,above,?_,?_⟩
  · exact lines.trans (congrArg (above ++ [·]) (by decide +kernel))
  · exact (tags (by decide +kernel)).trans (by decide +kernel)

def splitting : Config :=
  ⟨"love",false,{ TypeTable.builtin with aliases := [("tag", "a\nb")] }⟩

def tagged : Api.Document := ⟨"m.json",
  "\x7b\"m\":\x7b\"functions\":[\x7b\"name\":\"f\",\"variants\":[\x7b\"arguments\":[\x7b\"name\":\"x\",\"type\":\"tag\"\x7d]\x7d]\x7d]\x7d\x7d"⟩

/-- A line end in a spelling breaks a comment. -/
theorem spelling_breaks_comment : ∃ api : Api, Api.loadAll none ⟨[]⟩ [.ok tagged] = .ok api ∧
    ∃ m ∈ api.modules, ∃ f : Api.Function, (none,f) ∈ m.members ∧
      (((api.resolver splitting).stubModule m).emit splitting.space).isOk = true ∧
      Text.lines ((api.resolver splitting).functionText m none f) =
        ["---@param x a", "b", "function love.m.f(x) end"].map String.toList := by
  let f : Api.Function := ⟨"f",.ofModule "m",[],[⟨[⟨"x","tag",false,none,[]⟩],[],[]⟩]⟩
  let m : Api.Module := ⟨"m",[],[],[f],[]⟩
  have emitted := Stub.Module.emit_of_faults "love"
    (show (((⟨[m]⟩ : Api).resolver splitting).stubModule m).faults = [] by decide +kernel)
  refine ⟨⟨[m]⟩,by decide +kernel,m,List.mem_singleton.mpr rfl,f,List.mem_singleton.mpr rfl,?_,
    by decide +kernel⟩
  change (Stub.Module.emit _ "love").isOk = true
  rw [emitted]
  rfl

end LuaStubs
