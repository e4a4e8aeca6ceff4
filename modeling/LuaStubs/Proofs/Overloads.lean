import LuaStubs.Proofs.TypeLines

/-! The overloads of a function, each a function type on a line of its own. The types in it hold no
fragment of a name, but the name of an optional parameter may be one: the mark behind it hides the
colon. -/
namespace LuaStubs

open Tag (FieldOnly IsRun)

namespace Tag

/-- A fragment with the mark of an optional value behind it stands alone. -/
theorem isBare_optional {fragment : Text} {completions : List Text} {before : Option Char}
    (left : ∀ c ∈ before, isPathChar c = false)
    (spaced : ∀ name ∈ completions, ∃ more, name = fragment ++ ' ' :: more) (rest : Text) :
    isBare fragment completions before (fragment ++ '?' :: rest) = true := by
  have incomplete : ∀ name ∈ completions,
      Text.startsWith (fragment ++ '?' :: rest) name = false := by
    intro name member
    refine Bool.eq_false_iff.mpr fun starts => ?_
    obtain ⟨more,rfl⟩ := spaced name member
    obtain ⟨behind,same⟩ := Text.startsWith_iff.mp starts
    rw [List.append_assoc] at same
    have marks := List.append_cancel_left same
    simp at marks
  have mark : isPathChar '?' = false := by decide
  have colon : Text.startsWith (Text.trimStart ('?' :: rest)) ":" = false := by
    rw [Text.trimStart_cons (by decide)]
    rfl
  simp only [isBare,List.drop_left,Bool.and_eq_true,Bool.not_eq_true',Option.any_eq_false,
    List.any_eq_false,Bool.not_eq_true]
  exact ⟨⟨⟨by simpa using left,by simpa using mark⟩,colon⟩,incomplete⟩

theorem mem_fragmentRemarks {fragments : List (Text × List Text)} {t : TypedLine} {remark : Remark} :
    remark ∈ fragmentRemarks fragments [t] ↔ ∃ entry ∈ fragments,
      hasBareFragment t.portion entry.1 entry.2 = true ∧
        remark = ⟨t.line,.fragment,fragmentMessage entry.1 entry.2,t.text⟩ := by
  rw [fragmentRemarks,List.flatMap_singleton,fragmentRemarksOn,List.mem_filterMap]
  refine exists_congr fun entry => and_congr_right fun _ => ?_
  change (if hasBareFragment t.portion entry.1 entry.2 then
    some ⟨t.line,.fragment,fragmentMessage entry.1 entry.2,t.text⟩ else none) = some remark ↔ _
  split
  · rename_i found
    exact ⟨fun same => ⟨found,(Option.some.inj same).symm⟩,fun same => congrArg some same.2.symm⟩
  · rename_i none
    exact ⟨fun same => by contradiction,fun same => absurd same.1 none⟩

end Tag

namespace Stub

variable {s : Signature} {self : Option Text} {word : Text}

theorem isRun_paramName {name : Text} (valid : IsParamName name) : IsRun name := by
  rcases valid with rfl | isName
  · exact ⟨by decide,by decide⟩
  · exact ⟨(Tag.compact_name isName).nonempty,Phrase.wordParts_of_name isName⟩

theorem fieldOnly_inOverload {p : Param} (run : IsRun word) (valid : IsParamName p.name)
    (base : FieldOnly word p.base) (other : p.optional = true → p.name ≠ word) :
    FieldOnly word p.inOverload := by
  have name := isRun_paramName valid
  unfold Param.inOverload
  split
  · rename_i marked
    have optional : p.optional = true := (Bool.and_eq_true _ _ ▸ marked).1
    exact (FieldOnly.of_run name (other optional)).append_marks run (by decide) (by decide) base
  · exact .field run name.path base

/-- A flagged word that no optional parameter is named by is the name of a parameter or a field. -/
theorem fieldOnly_funType (member : word ∈ flagged) (names : ∀ p ∈ s.params, IsParamName p.name)
    (bases : ∀ p ∈ s.params, FieldOnly word p.base)
    (returns : ∀ r ∈ s.returns, FieldOnly word r.rendered)
    (object : ∀ text ∈ self, FieldOnly word text)
    (others : ∀ p ∈ s.params, p.optional = true → p.name ≠ word) :
    FieldOnly word (s.funType self) := by
  have run := isRun_of_flagged word member
  have unflagged : ∀ word ∈ flagged, ("fun" : Text) ≠ word ∧ ("nil" : Text) ≠ word := by decide
  have params : ∀ text ∈ self.toList.map (("self: " : Text) ++ ·) ++ s.params.map Param.inOverload,
      FieldOnly word text := by
    intro text member
    rcases List.mem_append.mp member with first | other
    · obtain ⟨type,given,rfl⟩ := List.mem_map.mp first
      exact .field run (show ∀ c ∈ ("self" : Text), _ by decide) (object type (by simpa using given))
    · obtain ⟨p,among,rfl⟩ := List.mem_map.mp other
      exact fieldOnly_inOverload run (names p among) (bases p among) (others p among)
  have keyword : FieldOnly word "fun" :=
    .of_run ⟨by decide,by decide⟩ (unflagged word member).1
  have opened := keyword.append_marks run (by decide) (by decide : ∀ c ∈ ("(" : Text), _)
    (FieldOnly.join run (by decide) (by decide : ∀ c ∈ (", " : Text), _) params)
  unfold Signature.funType
  refine opened.append_marks run (by decide) (by decide : ∀ c ∈ ("):" : Text), _) ?_
  split
  · exact .of_run ⟨by decide,by decide⟩ (unflagged word member).2
  · refine FieldOnly.join run (by decide) (by decide) fun text member => ?_
    obtain ⟨r,among,rfl⟩ := List.mem_map.mp member
    exact returns r among

/-- Every parameter stands behind a mark. -/
theorem funType_split (self : Option Text) {p : Param} (member : p ∈ s.params) :
    ∃ u v, s.funType self = u ++ p.inOverload ++ v ∧
      ∀ c ∈ u.getLast?, Tag.isPathChar c = false := by
  have among : p.inOverload ∈
      self.toList.map (("self: " : Text) ++ ·) ++ s.params.map Param.inOverload :=
    List.mem_append_right _ (List.mem_map_of_mem member)
  obtain ⟨u,v,same,begins,_⟩ := Text.join_split ", " among
  unfold Signature.funType
  simp only [same,List.append_assoc]
  refine ⟨"fun(" ++ u,_,(List.append_assoc _ _ _).symm,?_⟩
  intro c last
  rcases begins with rfl | ⟨start,rfl⟩
  · obtain rfl : '(' = c := by simpa using last
    decide
  · obtain rfl : ' ' = c := by simpa [List.getLast?_cons] using last
    decide

theorem hasBareFragment_funType {p : Param} {entry : Text × List Text}
    (among : entry ∈ TypeTable.builtin.fragments) (member : p ∈ s.params)
    (optional : p.optional = true) (name : p.name = entry.1) :
    Tag.hasBareFragment (s.funType self) entry.1 entry.2 = true := by
  have known : ∀ entry ∈ TypeTable.builtin.fragments, entry.1 ≠ Api.varargsName ∧
      ∀ name ∈ entry.2, Text.startsWith name (entry.1 ++ " ") = true := by decide
  have spaced : ∀ name ∈ entry.2, ∃ more, name = entry.1 ++ ' ' :: more := by
    intro name inside
    obtain ⟨more,same⟩ := Text.startsWith_iff.mp ((known entry among).2 name inside)
    exact ⟨more,by simpa using same⟩
  have run := isRun_of_flagged entry.1 (List.mem_cons_of_mem _ (List.mem_map_of_mem among))
  obtain ⟨u,v,same,left⟩ := funType_split self member
  have written : p.inOverload = entry.1 ++ "?: " ++ p.base := by
    simp [Param.inOverload,optional,name,(known entry among).1]
  refine (Tag.hasBareFragment_iff run).mpr ⟨u,'?' :: (": " ++ p.base ++ v),?_,
    Tag.isBare_optional left spaced _⟩
  rw [same,written]
  simp

theorem trimmed_funType (returns : ∀ r ∈ s.returns, Tag.Compact r.rendered) :
    Text.Trimmed (s.funType self) := by
  have ends (between : Text) {last : Text} (trimmed : Text.Trimmed last) (some : last ≠ []) :
      Text.Trimmed ("fun" ++ between ++ last) :=
    (Text.trimmed_of_unblank (by decide)).append between (by decide) trimmed some
  have texts : ∀ text ∈ s.returns.map Return.rendered, Tag.Compact text := by
    intro text member
    obtain ⟨r,among,rfl⟩ := List.mem_map.mp member
    exact returns r among
  unfold Signature.funType
  split
  · exact ends ("(" ++ _ ++ "):") (Text.trimmed_of_unblank (by decide)) (by decide)
  · rename_i some
    refine ends ("(" ++ _ ++ "):") (.join (fun text member => (texts text member).trimmed)
      fun text member => (texts text member).nonempty) ?_
    exact Text.join_ne_nil (by simpa using some) fun text member => (texts text member).nonempty

/-- All of an overload is its type. -/
theorem type_overload (names : List Text) (s : Signature) (self : Option Text) :
    Tag.type? names (s.overloadLine self) = some (Text.trim (s.funType self)) := by
  have line : s.overloadLine self = ("---@overload" : Text) ++ ' ' :: s.funType self := rfl
  have read : Tag.read? (("---@overload" : Text) ++ ' ' :: s.funType self) =
    some (.overload,' ' :: s.funType self) := rfl
  have nonempty : Text.trim (s.funType self) ≠ [] := Text.trimEnd_cons_ne_nil (by decide) _
  rw [line,Tag.type?,read]
  simp only [Tag.portion?]
  rw [Text.trim_cons_blank (by decide)]
  simp [nonempty]

end Stub

def Api.Module.members (m : Api.Module) : List (Option Text × Api.Function) :=
  m.classes.flatMap (fun c => c.methods.map fun f => (some c.name,f)) ++
    m.functions.map fun f => (none,f)

namespace Resolver

variable {r : Resolver} {f : Api.Function} {v : Api.Variant} {receiver : Option Text}

theorem stubFunction_alternate {number : Nat}
    (alternate : (number,v) ∈ (Api.ranked f.variants).tail) :
    r.stubSignature v ∈ (r.stubFunction f).alternates := by
  change _ ∈ ((Api.ranked f.variants).map fun numbered => r.stubSignature numbered.2).tail
  rw [← List.map_tail]
  exact List.mem_map_of_mem (f := fun numbered => r.stubSignature numbered.2) alternate

theorem overloadLine_mem {s : Stub.Signature} (alternate : s ∈ (r.stubFunction f).alternates)
    (owner : Text) (self : Option Text) :
    s.overloadLine self ∈ (r.stubFunction f).lines owner self := by
  have own : s.overloadLine self ∈ s.overloadLines self := by simp [Stub.Signature.overloadLines]
  simp only [Stub.Function.lines,List.mem_append,List.mem_flatMap]
  exact Or.inl (Or.inr ⟨s,alternate,own⟩)

/-- The lines of a function stand together in its module, a method taking the type of its class. -/
theorem lines_together {m : Api.Module} (space : Text) (among : (receiver,f) ∈ m.members) :
    (r.stubFunction f).lines (receiver.getD (space ++ "." ++ m.name)) (receiver.map r.qualified) <:+:
      (r.stubModule m).lines space := by
  have below {fs : List Api.Function} (write : Stub.Function → List Text) (member : f ∈ fs) :
      write (r.stubFunction f) <:+: (fs.map r.stubFunction).flatMap fun f => [] :: write f :=
    (List.infix_cons (List.infix_refl _)).trans (List.infix_of_mem_flatten
      (List.mem_map_of_mem (List.mem_map_of_mem member)))
  rcases List.mem_append.mp among with method | free
  · obtain ⟨c,listed,inside⟩ := List.mem_flatMap.mp method
    obtain ⟨f,member,same⟩ := List.mem_map.mp inside
    obtain ⟨rfl,rfl⟩ := Prod.mk.inj same
    have inClass : (r.stubFunction f).lines c.name (some (r.qualified c.name)) <:+:
        (r.stubClass c).lines :=
      (below (·.lines c.name (some (r.qualified c.name))) member).trans (List.infix_append _ _ _)
    have amongClasses : (r.stubClass c).lines <:+: (m.classes.map r.stubClass).flatMap Stub.Class.lines :=
      List.infix_of_mem_flatten (List.mem_map_of_mem (List.mem_map_of_mem listed))
    refine (inClass.trans amongClasses).trans ?_
    exact (List.infix_append _ _ _).trans (List.prefix_append _ _).isInfix
  · obtain ⟨_,member,same⟩ := List.mem_map.mp free
    obtain ⟨rfl,rfl⟩ := Prod.mk.inj same
    exact (below (·.lines (space ++ "." ++ m.name) none) member).trans (List.suffix_append _ _).isInfix

theorem lines_of_member {m : Api.Module} (space : Text) (among : (receiver,f) ∈ m.members) :
    ∃ owner, ∀ line ∈ (r.stubFunction f).lines owner (receiver.map r.qualified),
      line ∈ (r.stubModule m).lines space :=
  ⟨_,fun _ member => (lines_together space among).subset member⟩

/-- A variant to be written as an overload, with plain types and names that can be written. -/
structure PlainOverload (r : Resolver) (v : Api.Variant) (receiver : Option Text) : Prop where
  builtin : r.config.table = .builtin
  space : Lua.isName r.config.space = true
  names : ∀ p ∈ v.params, Stub.IsParamName p.name
  object : ∀ name ∈ receiver, Lua.isName name = true
  types : ∀ raw ∈ v.types, Phrase.Plain .builtin raw

namespace PlainOverload

variable (overload : PlainOverload r v receiver)
include overload

theorem param_whole {p : Api.Param} (member : p ∈ v.params) : (r.type p.type).Over IsWhole :=
  type_whole overload.builtin overload.space
    (overload.types p.type (List.mem_append_left _ (List.mem_map_of_mem member)))

theorem return_whole {s : Api.Return} (member : s ∈ v.returns) : (r.type s.type).Over IsWhole :=
  type_whole overload.builtin overload.space
    (overload.types s.type (List.mem_append_right _ (List.mem_map_of_mem member)))

theorem names_written : ∀ p ∈ (r.stubSignature v).params, Stub.IsParamName p.name := by
  intro p member
  obtain ⟨origin,among,rfl⟩ := List.mem_map.mp member
  exact overload.names origin among

theorem unbroken :
    Stub.Unbroken ((r.stubSignature v).overloadLine (receiver.map r.qualified)) := by
  have config := Config.unbroken_of_builtin overload.builtin overload.space
  refine (show Stub.Unbroken "---@overload " by decide).append (Stub.unbroken_funType
    overload.names_written (config.stubSignature v) ?_)
  intro text given
  obtain ⟨name,owned,rfl⟩ := Option.map_eq_some_iff.mp given
  exact config.qualified (Stub.unbroken_name (overload.object name owned))

theorem typed (names : List Text) :
    Tag.type? names ((r.stubSignature v).overloadLine (receiver.map r.qualified)) =
      some ((r.stubSignature v).funType (receiver.map r.qualified)) := by
  rw [Stub.type_overload,(Stub.trimmed_funType fun s member => ?_).trim]
  obtain ⟨origin,among,rfl⟩ := List.mem_map.mp member
  exact normalize_compact ((overload.return_whole among).mono fun _ => IsWhole.word) origin.optional

/-- A flagged word is the name of a field, or it names an optional parameter. -/
theorem fieldOnly {word : Text} (member : word ∈ flagged)
    (others : ∀ p ∈ v.params, p.optional = true → p.name ≠ word) :
    FieldOnly word ((r.stubSignature v).funType (receiver.map r.qualified)) := by
  refine Stub.fieldOnly_funType member overload.names_written ?_ ?_ ?_ ?_
  · intro p listed
    obtain ⟨origin,among,rfl⟩ := List.mem_map.mp listed
    -- an overload marks the name and not the type
    exact normalize_fieldOnly (overload.param_whole among) member false
  · intro s listed
    obtain ⟨origin,among,rfl⟩ := List.mem_map.mp listed
    exact normalize_fieldOnly (overload.return_whole among) member origin.optional
  · intro text given
    obtain ⟨name,owned,rfl⟩ := Option.map_eq_some_iff.mp given
    have qualified : IsWhole (r.qualified name) :=
      IsWhole.qualified overload.space (Phrase.isWord_of_name (overload.object name owned))
    exact .of_run qualified.word.isRun fun same => qualified.unflagged (same ▸ member)
  · intro p listed
    obtain ⟨origin,among,rfl⟩ := List.mem_map.mp listed
    exact others origin among

theorem no_union :
    Tag.hasTopLevelOr ((r.stubSignature v).funType (receiver.map r.qualified)) = false := by
  refine Tag.hasTopLevelOr_eq_false (overload.fieldOnly (by decide) fun p member _ => ?_)
  rcases overload.names p member with varargs | name
  · rw [varargs]
    decide
  · exact (Phrase.isWord_of_name name).notOr

theorem hasBareFragment_iff {entry : Text × List Text} (among : entry ∈ TypeTable.builtin.fragments) :
    Tag.hasBareFragment ((r.stubSignature v).funType (receiver.map r.qualified)) entry.1 entry.2 =
      true ↔ ∃ p ∈ v.params, p.optional = true ∧ p.name = entry.1 := by
  constructor
  · intro bare
    refine Classical.byContradiction fun none => ?_
    have fields := overload.fieldOnly (List.mem_cons_of_mem _ (List.mem_map_of_mem among))
      fun p member optional name => none ⟨p,member,optional,name⟩
    exact Bool.eq_false_iff.mp (Tag.hasBareFragment_eq_false fields) bare
  · rintro ⟨p,member,optional,name⟩
    exact Stub.hasBareFragment_funType among (List.mem_map_of_mem member) optional name

end PlainOverload
end Resolver

/-- The overload of a variant whose types are plain is a line with a type. No union is remarked on in
it, and a fragment exactly where an optional parameter has it as its name. -/
theorem overload_remarks {api : Api} (config : Config) {f : Api.Function} {v : Api.Variant}
    {number : Nat} {parent : Text} {receiver : Option Text} (builtin : config.table = .builtin)
    (space : config.space = ("love" : Text))
    (faultless : ((api.resolver config).stubFunction f).faults parent = [])
    (object : ∀ name ∈ receiver, Lua.isName name = true)
    (alternate : (number,v) ∈ (Api.ranked f.variants).tail)
    (plain : ∀ raw ∈ v.types, Phrase.Plain config.table raw) :
    let r := api.resolver config
    let self := receiver.map r.qualified
    let line := (r.stubSignature v).overloadLine self
    let checks := Validator.ofTable config.table
    (∀ owner, line ∈ (r.stubFunction f).lines owner self) ∧
    (∀ (m : Api.Module) (text : Text), (receiver,f) ∈ m.members →
      (r.stubModule m).emit config.space = .ok text → line ∈ Text.lines text) ∧
    ∀ lines, line ∈ lines →
      (∃ t ∈ Tag.typedLines checks.names lines, t.text = line) ∧
      ∀ t ∈ Tag.typedLines checks.names lines, t.text = line →
        Tag.unionRemarks [t] = [] ∧
        ∀ remark, remark ∈ Tag.fragmentRemarks checks.fragments [t] ↔
          ∃ p ∈ v.params, p.optional = true ∧ ∃ completions,
            (p.name,completions) ∈ checks.fragments ∧
              remark = ⟨t.line,.fragment,Tag.fragmentMessage p.name completions,t.text⟩ := by
  intro r self line checks
  have spaceName : Lua.isName config.space = true := by
    rw [space]
    decide
  have listed := Resolver.stubFunction_alternate (r := r) alternate
  have names := (Stub.Function.named_of_faults faultless).alternates _ listed
  have overload : r.PlainOverload v receiver :=
    ⟨builtin,spaceName,fun p member => names _ (List.mem_map_of_mem member),object,builtin ▸ plain⟩
  have typed := overload.typed checks.names
  refine ⟨fun owner => Resolver.overloadLine_mem listed owner self,?_,?_⟩
  · intro m text among emitted
    obtain ⟨_,rfl⟩ := Stub.Module.emit_eq_ok emitted
    obtain ⟨owner,lines⟩ := Resolver.lines_of_member (r := r) config.space among
    exact Stub.mem_lines_unlines (lines line (Resolver.overloadLine_mem listed owner self))
      overload.unbroken
  · intro lines member
    refine ⟨Tag.exists_mem_typedFrom member typed,fun t inside same => ?_⟩
    have portion := Tag.portion_of_typed inside same typed
    constructor
    · simp [Tag.unionRemarks,portion,overload.no_union]
    · intro remark
      have known : checks.fragments = TypeTable.builtin.fragments := congrArg TypeTable.fragments builtin
      rw [Tag.mem_fragmentRemarks,portion,known]
      constructor
      · rintro ⟨entry,among,bare,rfl⟩
        obtain ⟨p,member,optional,name⟩ := (overload.hasBareFragment_iff among).mp bare
        exact ⟨p,member,optional,entry.2,name ▸ among,by rw [name]⟩
      · rintro ⟨p,member,optional,completions,among,rfl⟩
        exact ⟨_,among,(overload.hasBareFragment_iff among).mpr ⟨p,member,optional,rfl⟩,rfl⟩

def lit : Description :=
  [("m", {
    types := [{
      name := "C"
      functions := [{
        name := "set"
        variants := [
          { arguments := [{ name := "full", type := .token "full or \x7blight: light\x7d" }] },
          { arguments := [
              { name := "light", type := .token "light userdata or (C | nil)", optional := some true },
              { name := "...", type := .token "any", optional := some true }]
            returns := [
              { name := some "full", type := .token "light or C", optional := true },
              { name := none, type := .token "bool" }] },
          { arguments := [
              { name := "x", type := .token "number" }, { name := "y", type := .token "number" },
              { name := "z", type := .token "number" }] }] }] }] })]

theorem lit_remarks : lit.load = .ok lit.toApi ∧ ∃ m ∈ lit.toApi.modules, ∃ text : Text,
    ((lit.toApi.resolver .default).stubModule m).emit "love" = .ok text ∧
    (∃ t ∈ Tag.typedLines (Validator.ofTable .builtin).names (Text.lines text),
      t.text = ("---@overload fun(self: love.C, light?: lightuserdata|love.C|nil, ...: any):" : Text) ++
        "(lightuserdata|love.C)?, boolean" ∧
      Tag.unionRemarks [t] = [] ∧
      ⟨t.line,.fragment,"`light` is an incomplete type name (expected light userdata)",t.text⟩ ∈
        Tag.fragmentRemarks (Validator.ofTable .builtin).fragments [t]) ∧
    ∃ t ∈ Tag.typedLines (Validator.ofTable .builtin).names (Text.lines text),
      t.text =
        ("---@overload fun(self: love.C, full: userdata|\x7blight: lightuserdata\x7d):nil" : Text) ∧
      Tag.unionRemarks [t] = [] ∧
      Tag.fragmentRemarks (Validator.ofTable .builtin).fragments [t] = [] := by
  let m : Api.Module := lit.toApi.modules.headD ⟨[],[],[],[],[]⟩
  let f : Api.Function := m.allFunctions.headD ⟨[],.ofModule [],[],[]⟩
  let named : Api.Variant := f.variants.headD ⟨[],[],[]⟩
  let optional : Api.Variant := f.variants.tail.headD ⟨[],[],[]⟩
  have emitted := Stub.Module.emit_of_faults "love"
    (show ((lit.toApi.resolver .default).stubModule m).faults = [] by decide +kernel)
  have faultless : ((lit.toApi.resolver .default).stubFunction f).faults "m.C" = [] := by
    decide +kernel
  have among : (some ("C" : Text),f) ∈ m.members := List.mem_singleton.mpr rfl
  have object : ∀ name ∈ some ("C" : Text), Lua.isName name = true := by decide
  obtain ⟨_,written,marked⟩ := overload_remarks .default rfl rfl faultless object
    (show (1,optional) ∈ (Api.ranked f.variants).tail from List.mem_cons_self) (by decide +kernel)
  obtain ⟨_,writtenToo,unmarked⟩ := overload_remarks .default rfl rfl faultless object
    (show (0,named) ∈ (Api.ranked f.variants).tail from List.mem_cons_of_mem _ List.mem_cons_self)
    (by decide +kernel)
  obtain ⟨⟨t,listed,same⟩,remarks⟩ := marked _ (written m _ among emitted)
  obtain ⟨⟨u,listedToo,sameToo⟩,noRemarks⟩ := unmarked _ (writtenToo m _ among emitted)
  obtain ⟨noUnion,fragments⟩ := remarks t listed same
  obtain ⟨noUnionToo,fragmentsToo⟩ := noRemarks u listedToo sameToo
  refine ⟨rfl,m,List.mem_singleton.mpr rfl,_,emitted,
    ⟨t,listed,same.trans (by decide +kernel),noUnion,?_⟩,
    u,listedToo,sameToo.trans (by decide +kernel),noUnionToo,?_⟩
  · exact (fragments _).mpr ⟨_,List.mem_cons_self,rfl,["light userdata"],by decide,rfl⟩
  · refine List.eq_nil_iff_forall_not_mem.mpr fun remark member => ?_
    obtain ⟨p,given,marked,_⟩ := (fragmentsToo remark).mp member
    have required : ∀ p ∈ named.params, p.optional = false := by decide +kernel
    exact Bool.false_ne_true ((required p given).symm.trans marked)

end LuaStubs
