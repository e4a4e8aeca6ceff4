import LuaStubs.Proofs.Lines

/-! The statements of a stub file, and how comments and empty lines lie between them. -/
namespace LuaStubs.Stub

def IsParamName (name : Text) : Prop := name = Api.varargsName ∨ Lua.isName name = true

structure Function.Named (f : Function) : Prop where
  name : Lua.isName f.name = true
  params : ∀ p ∈ f.primary.params, IsParamName p.name
  returns : ∀ r ∈ f.primary.returns, ∀ name ∈ r.name, Lua.isName name = true
  alternates : ∀ s ∈ f.alternates, ∀ p ∈ s.params, IsParamName p.name

structure Class.Named (c : Class) : Prop where
  name : Lua.isName c.name = true
  methods : ∀ f ∈ c.methods, f.Named

structure Module.Named (m : Module) : Prop where
  name : Lua.isName m.name = true
  classes : ∀ c ∈ m.classes, c.Named
  functions : ∀ f ∈ m.functions, f.Named

theorem nameFaults_eq_nil {subject name : Text} :
    nameFaults subject name = [] ↔ Lua.isName name = true := by
  rw [nameFaults]
  by_cases valid : Lua.isName name = true <;> simp [valid]

theorem paramNameFaults_eq_nil {subject name : Text} :
    paramNameFaults subject name = [] ↔ IsParamName name := by
  rw [paramNameFaults]
  by_cases further : name = Api.varargsName
  · simp [further,IsParamName]
  · rw [if_neg further,nameFaults_eq_nil,IsParamName,or_iff_right further]

theorem Function.named_of_faults {parent : Text} {f : Function} (none : f.faults parent = []) :
    f.Named := by
  simp only [Function.faults,List.append_eq_nil_iff,List.flatMap_eq_nil_iff] at none
  obtain ⟨⟨⟨name,params⟩,returns⟩,alternates⟩ := none
  refine ⟨nameFaults_eq_nil.mp name,?_,?_,?_⟩
  · intro p member
    have faults := params p member
    simp only [Param.faults,List.append_eq_nil_iff] at faults
    exact paramNameFaults_eq_nil.mp faults.1
  · intro r member text named
    have faults := returns r member
    simp only [Return.faults,List.append_eq_nil_iff] at faults
    rw [Option.mem_def.mp named] at faults
    exact nameFaults_eq_nil.mp faults.2
  · intro s member p inside
    have faults := alternates s member
    simp only [Signature.faults,List.append_eq_nil_iff,List.flatMap_eq_nil_iff] at faults
    exact paramNameFaults_eq_nil.mp (faults.1 p inside).1

theorem Module.named_of_faults {m : Module} (none : m.faults = []) : m.Named := by
  simp only [Module.faults,List.append_eq_nil_iff,List.flatMap_eq_nil_iff] at none
  obtain ⟨⟨name,classes⟩,functions⟩ := none
  refine ⟨nameFaults_eq_nil.mp name,?_,fun f member => Function.named_of_faults (functions f member)⟩
  intro c member
  have faults := classes c member
  simp only [Class.faults,List.append_eq_nil_iff,List.flatMap_eq_nil_iff] at faults
  exact ⟨nameFaults_eq_nil.mp faults.1,fun f inside => Function.named_of_faults (faults.2 f inside)⟩

/-- A module that is written has no faults, and its text is that of its lines. -/
theorem Module.emit_eq_ok {m : Module} {space text : Text} (emitted : m.emit space = .ok text) :
    m.faults = [] ∧ text = unlines (m.lines space) := by
  unfold Module.emit at emitted
  split at emitted
  · rename_i none
    exact ⟨none,(Except.ok.inj emitted).symm⟩
  · contradiction

theorem Module.emit_of_faults {m : Module} (space : Text) (none : m.faults = []) :
    m.emit space = .ok (unlines (m.lines space)) := by
  rw [Module.emit,none]

structure Signature.Unbroken (s : Signature) : Prop where
  bases : ∀ p ∈ s.params, Stub.Unbroken p.base
  params : ∀ p ∈ s.params, Stub.Unbroken p.rendered
  returns : ∀ r ∈ s.returns, Stub.Unbroken r.rendered

structure Function.Unbroken (f : Function) : Prop where
  primary : f.primary.Unbroken
  alternates : ∀ s ∈ f.alternates, s.Unbroken

structure Class.Unbroken (c : Class) : Prop where
  qualified : Stub.Unbroken c.qualified
  supertypes : ∀ s ∈ c.supertypes, Stub.Unbroken s
  methods : ∀ f ∈ c.methods, f.Unbroken

structure Module.Unbroken (m : Module) : Prop where
  classes : ∀ c ∈ m.classes, c.Unbroken
  enums : ∀ e ∈ m.enums, Stub.Unbroken e.qualified
  functions : ∀ f ∈ m.functions, f.Unbroken

inductive Statement where
  /-- The table of a module, a field of the namespace. -/
  | moduleTable (space name : Text)
  | classTable (name : Text)
  | moduleFunction (space owner name : Text) (params : List Text)
  | method (owner name : Text) (params : List Text)
  deriving DecidableEq, Repr

def declarationLine (owner mark name : Text) (params : List Text) : Text :=
  "function " ++ owner ++ mark ++ name ++ "(" ++ Text.join ", " params ++ ") end"

def Statement.line : Statement → Text
  | .moduleTable space name => tableLine (space ++ "." ++ name)
  | .classTable name => localLine name
  | .moduleFunction space owner name params =>
    declarationLine (space ++ "." ++ owner) "." name params
  | .method owner name params => declarationLine owner ":" name params

def Function.paramNames (f : Function) : List Text := f.primary.params.map Param.name

def Class.statements (c : Class) : List Statement :=
  .classTable c.name :: c.methods.map fun f => .method c.name f.name f.paramNames

def Module.statements (m : Module) (space : Text) : List Statement :=
  .moduleTable space m.name :: m.classes.flatMap Class.statements ++
    m.functions.map fun f => .moduleFunction space m.name f.name f.paramNames

def Statement.Named : Statement → Prop
  | .moduleTable space name => Lua.isName space = true ∧ Lua.isName name = true
  | .classTable name => Lua.isName name = true
  | .moduleFunction space owner name params => Lua.isName space = true ∧ Lua.isName owner = true ∧
      Lua.isName name = true ∧ ∀ p ∈ params, IsParamName p
  | .method owner name params =>
    Lua.isName owner = true ∧ Lua.isName name = true ∧ ∀ p ∈ params, IsParamName p

theorem Module.statements_named {m : Module} {space : Text} (spaceName : Lua.isName space = true) (named : m.Named) :
    ∀ s ∈ m.statements space, s.Named := by
  intro s member
  rcases List.mem_cons.mp member with rfl | later
  · exact ⟨spaceName,named.name⟩
  · rcases List.mem_append.mp later with ofClass | free
    · obtain ⟨c,among,inside⟩ := List.mem_flatMap.mp ofClass
      have owner := (named.classes c among).name
      rcases List.mem_cons.mp inside with rfl | method
      · exact owner
      · obtain ⟨f,listed,rfl⟩ := List.mem_map.mp method
        have function := (named.classes c among).methods f listed
        exact ⟨owner,function.name,by simpa [Function.paramNames] using function.params⟩
    · obtain ⟨f,listed,rfl⟩ := List.mem_map.mp free
      have function := named.functions f listed
      exact ⟨spaceName,named.name,function.name,by simpa [Function.paramNames] using function.params⟩

/-- A comment that ends with its line: no long bracket opens after the dashes. -/
structure IsRemark (line : Text) : Prop where
  dashes : ∃ c rest, line = '-' :: '-' :: c :: rest ∧ c ≠ '['
  unbroken : Unbroken line

/-- The lines that hold the given statements, with comments and empty lines between them. -/
inductive Lays : List Text → List Statement → Prop where
  | done : Lays [] []
  | blank {lines : List Text} {statements : List Statement} : Lays lines statements →
      Lays ([] :: lines) statements
  | remark {line : Text} {lines : List Text} {statements : List Statement} : IsRemark line →
      Lays lines statements → Lays (line :: lines) statements
  | code (statement : Statement) {lines : List Text} {statements : List Statement} :
      Lays lines statements → Lays (statement.line :: lines) (statement :: statements)

theorem Lays.append {a b : List Text} {first second : List Statement} (before : Lays a first)
    (after : Lays b second) : Lays (a ++ b) (first ++ second) := by
  induction before with
  | done => exact after
  | blank _ ih => exact .blank ih
  | remark comment _ ih => exact .remark comment ih
  | code statement _ ih => exact .code statement ih

theorem Lays.remarks {lines : List Text} (all : ∀ line ∈ lines, IsRemark line) : Lays lines [] := by
  induction lines with
  | nil => exact .done
  | cons line rest ih =>
    exact .remark (all line (by simp)) (ih fun other member => all other (by simp [member]))

theorem Lays.flatMap {parts : List α} {lines : α → List Text} {statements : α → List Statement}
    (each : ∀ part ∈ parts, Lays (lines part) (statements part)) :
    Lays (parts.flatMap lines) (parts.flatMap statements) := by
  induction parts with
  | nil => exact .done
  | cons part rest ih =>
    exact (each part (by simp)).append (ih fun other member => each other (by simp [member]))

theorem IsParamName.unbroken {name : Text} (isName : IsParamName name) : Unbroken name := by
  rcases isName with rfl | valid
  · decide
  · exact unbroken_name valid

theorem unbroken_declarationLine {owner mark name : Text} {params : List Text} (first : Unbroken owner)
    (between : Unbroken mark) (valid : Lua.isName name = true) (all : ∀ p ∈ params, IsParamName p) :
    Unbroken (declarationLine owner mark name params) := by
  have joined : Unbroken (Text.join ", " params) :=
    Unbroken.join (by decide) fun p member => (all p member).unbroken
  unfold declarationLine
  exact ((((((show Unbroken "function " by decide).append first).append between).append
    (unbroken_name valid)).append (by decide)).append joined).append (by decide)

theorem Statement.Named.unbroken {statement : Statement} (named : statement.Named) :
    Unbroken statement.line := by
  cases statement with
  | moduleTable space name =>
    exact (((unbroken_name named.1).append (by decide)).append (unbroken_name named.2)).append
      (by decide)
  | classTable name =>
    exact (show Unbroken "local " by decide).append ((unbroken_name named).append (by decide))
  | moduleFunction space owner name params =>
    obtain ⟨spaceName,ownerName,valid,all⟩ := named
    exact unbroken_declarationLine (((unbroken_name spaceName).append (by decide)).append
      (unbroken_name ownerName)) (by decide) valid all
  | method owner name params =>
    obtain ⟨ownerName,valid,all⟩ := named
    exact unbroken_declarationLine (unbroken_name ownerName) (by decide) valid all

theorem Lays.unbroken {lines : List Text} {statements : List Statement} (lays : Lays lines statements)
    (named : ∀ s ∈ statements, s.Named) : ∀ line ∈ lines, Unbroken line := by
  induction lays with
  | done => simp
  | blank _ ih => simpa [show Unbroken [] by decide] using ih named
  | remark comment _ ih => simpa [comment.unbroken] using ih named
  | code statement _ ih =>
    have here := (named statement (by simp)).unbroken
    simpa [here] using ih fun s member => named s (by simp [member])

theorem statement_line_head {statement : Statement} (named : statement.Named) :
    ∃ c rest, statement.line = c :: rest ∧ Lua.isNameHead c = true := by
  cases statement with
  | moduleTable space name =>
    obtain ⟨c,rest,rfl,head⟩ := name_head named.1
    exact ⟨c,rest ++ "." ++ name ++ " = \x7b\x7d",by simp [Statement.line,tableLine],head⟩
  | classTable name => exact ⟨'l',_,rfl,by decide⟩
  | moduleFunction space owner name params => exact ⟨'f',_,rfl,by decide⟩
  | method owner name params => exact ⟨'f',_,rfl,by decide⟩

theorem IsRemark.append {line more : Text} (comment : IsRemark line) (unbroken : Unbroken more) :
    IsRemark (line ++ more) := by
  obtain ⟨c,rest,rfl,other⟩ := comment.dashes
  exact ⟨⟨c,rest ++ more,rfl,other⟩,comment.unbroken.append unbroken⟩

theorem remark_docLine {line : Text} (unbroken : Unbroken line) :
    IsRemark (("---" : Text) ++ line) :=
  IsRemark.append ⟨⟨'-',[],rfl,by decide⟩,by decide⟩ unbroken

theorem remark_docLines {t line : Text} (member : line ∈ docLines t) : IsRemark line := by
  obtain ⟨text,among,rfl⟩ := List.mem_map.mp member
  exact remark_docLine (textLines_unbroken among)

theorem remark_describedLines {head mark t line : Text} (comment : IsRemark head)
    (marked : Unbroken mark) (member : line ∈ describedLines head mark t) : IsRemark line := by
  have texts : ∀ text ∈ textLines t, Unbroken text := fun _ => textLines_unbroken
  unfold describedLines at member
  split at member
  · exact List.mem_singleton.mp member ▸ comment
  · rename_i first rest lines
    rw [lines] at texts
    rcases List.mem_cons.mp member with rfl | later
    · split
      · exact ((comment.append marked).append (by decide)).append (texts first (by simp))
      · exact comment
    · obtain ⟨text,among,rfl⟩ := List.mem_map.mp later
      exact remark_docLine (texts text (by simp [among]))

theorem remark_param {p : Param} {line : Text} (name : Unbroken p.name)
    (rendered : Unbroken p.rendered) (member : line ∈ p.lines) : IsRemark line := by
  have start : IsRemark ("---@param " : Text) := ⟨⟨'-',_,rfl,by decide⟩,by decide⟩
  exact remark_describedLines (((start.append name).append (by decide)).append rendered)
    (by decide) member

theorem remark_return {r : Return} {line : Text} (name : ∀ text ∈ r.name, Unbroken text)
    (rendered : Unbroken r.rendered) (member : line ∈ r.lines) : IsRemark line := by
  have start : IsRemark ("---@return " : Text) := ⟨⟨'-',_,rfl,by decide⟩,by decide⟩
  refine remark_describedLines ((start.append rendered).append ?_) (by decide) member
  cases named : r.name with
  | none => exact (by decide : Unbroken [])
  | some text => exact (show Unbroken " " by decide).append (name text (by simp [named]))

theorem unbroken_inOverload {p : Param} (name : Unbroken p.name) (base : Unbroken p.base) :
    Unbroken p.inOverload := by
  unfold Param.inOverload
  split
  · exact (name.append (by decide)).append base
  · exact (name.append (by decide)).append base

theorem unbroken_funType {s : Signature} {self : Option Text} (names : ∀ p ∈ s.params, IsParamName p.name)
    (types : s.Unbroken) (object : ∀ text ∈ self, Unbroken text) : Unbroken (s.funType self) := by
  have params : ∀ text ∈ self.toList.map (("self: " : Text) ++ ·) ++ s.params.map Param.inOverload,
      Unbroken text := by
    intro text member
    rcases List.mem_append.mp member with first | other
    · obtain ⟨type,given,rfl⟩ := List.mem_map.mp first
      exact (show Unbroken "self: " by decide).append (object type (by simpa using given))
    · obtain ⟨p,among,rfl⟩ := List.mem_map.mp other
      exact unbroken_inOverload (names p among).unbroken (types.bases p among)
  unfold Signature.funType
  refine (((show Unbroken "fun(" by decide).append (Unbroken.join (by decide) params)).append
    (by decide)).append ?_
  split
  · exact (by decide : Unbroken "nil")
  · refine Unbroken.join (by decide) ?_
    intro text member
    obtain ⟨r,among,rfl⟩ := List.mem_map.mp member
    exact types.returns r among

theorem remark_overload {s : Signature} {self : Option Text} {line : Text}
    (names : ∀ p ∈ s.params, IsParamName p.name) (types : s.Unbroken)
    (object : ∀ text ∈ self, Unbroken text) (member : line ∈ s.overloadLines self) :
    IsRemark line := by
  have start : IsRemark ("---@overload " : Text) := ⟨⟨'-',_,rfl,by decide⟩,by decide⟩
  rcases List.mem_append.mp member with doc | tag
  · exact remark_docLines doc
  · exact List.mem_singleton.mp tag ▸ start.append (unbroken_funType names types object)

def Function.comments (self : Option Text) (f : Function) : List Text :=
  f.docLines ++ f.primary.params.flatMap Param.lines ++ f.primary.returns.flatMap Return.lines ++
    f.alternates.flatMap (Signature.overloadLines self)

theorem Function.mem_comments {f : Function} {self : Option Text} {line : Text}
    (member : line ∈ f.comments self) : (∃ t, line ∈ Stub.docLines t) ∨
      (∃ p ∈ f.primary.params, line ∈ p.lines) ∨ (∃ r ∈ f.primary.returns, line ∈ r.lines) ∨
        ∃ s ∈ f.alternates, line ∈ s.overloadLines self := by
  simp only [Function.comments,Function.docLines,List.mem_append,List.mem_flatMap] at member
  rcases member with (((((doc | empty) | doc) | param) | value) | overload)
  · exact Or.inl ⟨_,doc⟩
  · split at empty
    · -- an empty comment is what a text with one empty line gives
      exact Or.inl ⟨"\n",empty⟩
    · simp at empty
  · exact Or.inl ⟨_,doc⟩
  · exact Or.inr (Or.inl param)
  · exact Or.inr (Or.inr (Or.inl value))
  · exact Or.inr (Or.inr (Or.inr overload))

theorem remark_function {f : Function} {self : Option Text} {line : Text} (named : f.Named)
    (types : f.Unbroken) (object : ∀ text ∈ self, Unbroken text)
    (member : line ∈ f.comments self) : IsRemark line := by
  rcases Function.mem_comments member with
    ⟨t,doc⟩ | ⟨p,among,inside⟩ | ⟨r,among,inside⟩ | ⟨s,among,inside⟩
  · exact remark_docLines doc
  · exact remark_param (named.params p among).unbroken (types.primary.params p among) inside
  · exact remark_return (fun text given => unbroken_name (named.returns r among text given))
      (types.primary.returns r among) inside
  · exact remark_overload (named.alternates s among) (types.alternates s among) object inside

theorem lays_method {f : Function} {owner qualified : Text} (named : f.Named) (types : f.Unbroken)
    (object : Unbroken qualified) :
    Lays (f.lines owner (some qualified)) [.method owner f.name f.paramNames] := by
  have comments : Lays (f.comments (some qualified)) [] :=
    Lays.remarks fun line member => remark_function named types (by simpa using object) member
  exact comments.append (.code (.method owner f.name f.paramNames) .done)

theorem lays_moduleFunction {f : Function} {space owner : Text} (named : f.Named)
    (types : f.Unbroken) :
    Lays (f.lines (space ++ "." ++ owner) none)
      [.moduleFunction space owner f.name f.paramNames] := by
  have comments : Lays (f.comments none) [] :=
    Lays.remarks fun line member => remark_function named types (by simp) member
  exact comments.append (.code (.moduleFunction space owner f.name f.paramNames) .done)

theorem remark_classLine {name : Text} {supertypes : List Text} (qualified : Unbroken name)
    (all : ∀ s ∈ supertypes, Unbroken s) : IsRemark (classLine name supertypes) := by
  have start : IsRemark ("---@class " : Text) := ⟨⟨'-',_,rfl,by decide⟩,by decide⟩
  cases supertypes with
  | nil => exact start.append qualified
  | cons first rest =>
    exact ((start.append qualified).append (by decide)).append (Unbroken.join (by decide) all)

def Class.above (c : Class) : List Text := [[], regionStart c.name, []] ++ docLines c.description

def Class.below (c : Class) : List Text :=
  localLine c.name :: c.methods.flatMap (fun f => [] :: f.lines c.name (some c.qualified)) ++
    [[], regionEnd c.name]

theorem Class.lines_eq (c : Class) :
    c.lines = c.above ++ classLine c.qualified c.supertypes :: c.below := by
  simp [Class.lines,Class.above,Class.below]

theorem lays_above {c : Class} (name : Lua.isName c.name = true) : Lays c.above [] := by
  have start : IsRemark ("--#region " : Text) := ⟨⟨'#',_,rfl,by decide⟩,by decide⟩
  have opening : IsRemark (regionStart c.name) := start.append (unbroken_name name)
  exact (Lays.blank (.remark opening (.blank .done))).append (Lays.remarks fun _ => remark_docLines)

theorem lays_below {c : Class} (named : c.Named) (qualified : Unbroken c.qualified)
    (methods : ∀ f ∈ c.methods, f.Unbroken) : Lays c.below c.statements := by
  have stop : IsRemark ("--#endregion " : Text) := ⟨⟨'#',_,rfl,by decide⟩,by decide⟩
  have closing : IsRemark (regionEnd c.name) := stop.append (unbroken_name named.name)
  have table : Lays [localLine c.name] [.classTable c.name] := .code (.classTable c.name) .done
  have functions : Lays (c.methods.flatMap fun f => [] :: f.lines c.name (some c.qualified))
      (c.methods.flatMap fun f => [.method c.name f.name f.paramNames]) :=
    Lays.flatMap fun f member =>
      .blank (lays_method (named.methods f member) (methods f member) qualified)
  simpa [Class.below,Class.statements,List.flatMap_singleton',← List.map_eq_flatMap] using
    (table.append functions).append (.blank (.remark closing .done))

theorem lays_class {c : Class} (named : c.Named) (types : c.Unbroken) :
    Lays c.lines c.statements := by
  rw [Class.lines_eq]
  exact (lays_above named.name).append (.remark (remark_classLine types.qualified types.supertypes)
    (lays_below named types.qualified types.methods))

def Enum.below (e : Enum) : List Text :=
  docLines e.description ++ e.constants.flatMap fun entry => constantLines entry.1 entry.2

theorem Enum.lines_eq (e : Enum) : e.lines = [] :: aliasLine e.qualified :: e.below := by
  simp [Enum.lines,Enum.below]

theorem lays_entries (e : Enum) : Lays e.below [] := by
  have entry : IsRemark ("---| " : Text) := ⟨⟨'-',_,rfl,by decide⟩,by decide⟩
  have doc : Lays (docLines e.description) [] := Lays.remarks fun _ => remark_docLines
  refine doc.append (Lays.remarks ?_)
  intro line member
  obtain ⟨constant,_,inside⟩ := List.mem_flatMap.mp member
  exact remark_describedLines (entry.append (unbroken_quoted constant.1)) (by decide) inside

theorem lays_enum {e : Enum} (qualified : Unbroken e.qualified) : Lays e.lines [] := by
  have start : IsRemark ("---@alias " : Text) := ⟨⟨'-',_,rfl,by decide⟩,by decide⟩
  rw [Enum.lines_eq]
  exact .blank (.remark (start.append qualified) (lays_entries e))

def Module.opening (m : Module) (space : Text) : List Text :=
  [metaLine, classLine (space ++ "." ++ m.name) []] ++ docLines m.description ++
    [tableLine (space ++ "." ++ m.name)]

theorem lays_opening {m : Module} {space : Text} (spaceName : Lua.isName space = true)
    (name : Lua.isName m.name = true) : Lays (m.opening space) [.moduleTable space m.name] := by
  have table : Unbroken (space ++ "." ++ m.name) :=
    ((unbroken_name spaceName).append (by decide)).append (unbroken_name name)
  have header : Lays [metaLine, classLine (space ++ "." ++ m.name) []] [] :=
    .remark ⟨⟨'-',_,rfl,by decide⟩,by decide⟩ (.remark (remark_classLine table (by simp)) .done)
  have doc : Lays (docLines m.description) [] := Lays.remarks fun _ => remark_docLines
  exact (header.append doc).append (.code (.moduleTable space m.name) .done)

theorem lays_functions {m : Module} (space : Text) (named : ∀ f ∈ m.functions, f.Named)
    (types : ∀ f ∈ m.functions, f.Unbroken) :
    Lays (m.functions.flatMap fun f => [] :: f.lines (space ++ "." ++ m.name) none)
      (m.functions.map fun f => .moduleFunction space m.name f.name f.paramNames) := by
  rw [List.map_eq_flatMap]
  exact Lays.flatMap fun f member =>
    .blank (lays_moduleFunction (named f member) (types f member))

/-- The file of a module holds its statements and comments, nothing else. -/
theorem lays_module {m : Module} {space : Text} (spaceName : Lua.isName space = true)
    (named : m.Named) (types : m.Unbroken) : Lays (m.lines space) (m.statements space) := by
  have classes : Lays (m.classes.flatMap Class.lines) (m.classes.flatMap Class.statements) :=
    Lays.flatMap fun c member => lays_class (named.classes c member) (types.classes c member)
  have silent : m.enums.flatMap (fun _ => ([] : List Statement)) = [] := by
    simp [List.flatMap_eq_nil_iff]
  have enums : Lays (m.enums.flatMap Enum.lines) [] :=
    silent ▸ Lays.flatMap fun e member => lays_enum (types.enums e member)
  have all := (((lays_opening spaceName named.name).append classes).append enums).append
    (lays_functions space named.functions types.functions)
  simpa [Module.lines,Module.statements,Module.opening] using all

end LuaStubs.Stub
