import LuaStubs.Proofs.Stubs

/-! The lines of a stub file that are code. A text behind the start of a comment stays in it as far as
its first line end; what it puts on further lines may be code. Of all that is written as it is only
supertypes and the names of enums can hold a line end. -/
namespace LuaStubs.Stub

def isCode (line : Text) : Bool := !line.isEmpty && !Text.startsWith line "--"

def codeLines (t : Text) : List Text := (Text.splitAt Lua.isNewline t).filter isCode

/-- The code that a text puts on the lines after its first. -/
def brokenOff (t : Text) : List Text := (Text.splitAt Lua.isNewline t).tail.filter isCode

theorem codeLines_unlines (lines : List Text) : codeLines (unlines lines) = lines.flatMap codeLines := by
  induction lines with
  | nil => rfl
  | cons line rest ih =>
    have text : unlines (line :: rest) = line ++ '\n' :: unlines rest := by simp [unlines]
    have feed : Lua.isNewline '\n' = true := by decide
    rw [text,codeLines,Text.splitAt_append_cons feed,List.filter_append,List.flatMap_cons,← ih]
    rfl

theorem codeLines_unbroken {line : Text} (unbroken : Unbroken line) :
    codeLines line = if isCode line then [line] else [] := by
  rw [codeLines,Text.splitAt_of_uncut unbroken,List.filter_cons,List.filter_nil]

theorem isCode_remark {line : Text} (remark : IsRemark line) : isCode line = false := by
  obtain ⟨c,rest,rfl,_⟩ := remark.dashes
  rfl

theorem isCode_statement {statement : Statement} (named : statement.Named) :
    isCode statement.line = true := by
  obtain ⟨c,rest,line,head⟩ := statement_line_head named
  have other : '-' ≠ c := by
    rintro rfl
    exact absurd head (by decide)
  rw [line]
  simp [isCode,Text.startsWith,Text.after,other]

/-- Where comments end with their lines, the code is that of the statements. -/
theorem Lays.codeLines {lines : List Text} {statements : List Statement} (lays : Lays lines statements)
    (named : ∀ s ∈ statements, s.Named) :
    lines.flatMap Stub.codeLines = statements.map Statement.line := by
  induction lays with
  | done => rfl
  | blank _ ih => exact ih named
  | remark comment _ ih =>
    rw [List.flatMap_cons,codeLines_unbroken comment.unbroken,isCode_remark comment,ih named]
    rfl
  | code statement _ ih =>
    have here := named statement List.mem_cons_self
    rw [List.flatMap_cons,codeLines_unbroken here.unbroken,isCode_statement here,
      ih fun s member => named s (List.mem_cons_of_mem _ member)]
    rfl

/-- Of a text behind the start of a comment only what it breaks off can be code. -/
theorem codeLines_remark_append {start : Text} (remark : IsRemark start) (t : Text) :
    codeLines (start ++ t) = brokenOff t := by
  have pieces {a : Text} (unbroken : Unbroken a) : ∃ first rest,
      Text.splitAt Lua.isNewline t = first :: rest ∧
        Text.splitAt Lua.isNewline (a ++ t) = (a ++ first) :: rest := by
    obtain ⟨first,rest,cut⟩ := List.exists_cons_of_ne_nil (Text.splitAt_ne_nil Lua.isNewline t)
    refine ⟨first,rest,cut,?_⟩
    induction a with
    | nil => exact cut
    | cons c a ih =>
      have later := ih fun d member => unbroken d (List.mem_cons_of_mem _ member)
      exact Text.splitAt_cons_of_uncut (unbroken c List.mem_cons_self) later
  obtain ⟨first,rest,cut,whole⟩ := pieces remark.unbroken
  obtain ⟨c,more,rfl,_⟩ := remark.dashes
  rw [codeLines,brokenOff,whole,cut]
  rfl

theorem brokenOff_unbroken {t : Text} (unbroken : Unbroken t) : brokenOff t = [] := by
  rw [brokenOff,Text.splitAt_of_uncut unbroken]
  rfl

def Class.strays (c : Class) : List Text := brokenOff (Text.join ", " c.supertypes)

def Enum.strays (e : Enum) : List Text := brokenOff e.qualified

def Module.strays (m : Module) : List Text :=
  m.classes.flatMap Class.strays ++ m.enums.flatMap Enum.strays

def Class.code (c : Class) : List Text :=
  c.strays ++ localLine c.name :: c.methods.map fun f => f.declaration c.name (some c.qualified)

def Module.code (m : Module) (space : Text) : List Text :=
  tableLine (space ++ "." ++ m.name) :: m.classes.flatMap Class.code ++ m.enums.flatMap Enum.strays ++
    m.functions.map fun f => f.declaration (space ++ "." ++ m.name) none

theorem Class.code_eq (c : Class) : c.code = c.strays ++ c.statements.map Statement.line := by
  rw [Class.statements,List.map_cons,List.map_map]
  rfl

theorem Module.statements_lines (m : Module) (space : Text) :
    (m.statements space).map Statement.line = tableLine (space ++ "." ++ m.name) ::
      m.classes.flatMap (fun c => c.statements.map Statement.line) ++
        m.functions.map fun f => f.declaration (space ++ "." ++ m.name) none := by
  rw [Module.statements,List.map_append,List.map_cons,List.map_flatMap,List.map_map]
  rfl

theorem Module.length_code (m : Module) (space : Text) :
    (m.code space).length = m.strays.length + (m.statements space).length := by
  have classes : (m.classes.flatMap Class.code).length =
      (m.classes.flatMap Class.strays).length + (m.classes.flatMap Class.statements).length := by
    induction m.classes with
    | nil => rfl
    | cons c rest ih =>
      simp only [List.flatMap_cons,List.length_append,Class.code_eq,List.length_map,ih]
      omega
  simp only [Module.code,Module.strays,Module.statements,List.length_cons,List.length_append,
    List.length_map,classes]
  omega

/-- A file without strays holds the code of its statements. -/
theorem Module.code_eq {m : Module} {space : Text} (none : m.strays = []) :
    m.code space = (m.statements space).map Statement.line := by
  obtain ⟨classes,enums⟩ := List.append_eq_nil_iff.mp none
  have each : m.classes.map Class.code = m.classes.map fun c => c.statements.map Statement.line := by
    refine List.map_congr_left fun c member => ?_
    rw [Class.code_eq,List.flatMap_eq_nil_iff.mp classes c member,List.nil_append]
  rw [Module.code,Module.statements_lines,List.flatMap_def,each,← List.flatMap_def,enums,List.append_nil]

theorem codeLines_classLine {name : Text} (qualified : Unbroken name) (supertypes : List Text) :
    codeLines (classLine name supertypes) = brokenOff (Text.join ", " supertypes) := by
  have start : IsRemark ("---@class " : Text) := ⟨⟨'-',_,rfl,by decide⟩,by decide⟩
  have title : IsRemark ("---@class " ++ name) := start.append qualified
  cases supertypes with
  | nil =>
    have alone := codeLines_remark_append title []
    rwa [List.append_nil] at alone
  | cons first rest => exact codeLines_remark_append (title.append (by decide)) _

theorem codeLines_class {c : Class} (named : c.Named) (qualified : Unbroken c.qualified)
    (methods : ∀ f ∈ c.methods, f.Unbroken) :
    c.lines.flatMap codeLines = c.code := by
  have statements : ∀ s ∈ c.statements, s.Named := by
    intro s member
    rcases List.mem_cons.mp member with rfl | method
    · exact named.name
    · obtain ⟨f,listed,rfl⟩ := List.mem_map.mp method
      have function := named.methods f listed
      exact ⟨named.name,function.name,by simpa [Function.paramNames] using function.params⟩
  rw [Class.lines_eq,List.flatMap_append,List.flatMap_cons,(lays_above named.name).codeLines (by simp),
    codeLines_classLine qualified,(lays_below named qualified methods).codeLines statements,Class.code_eq]
  rfl

theorem codeLines_enum (e : Enum) : e.lines.flatMap codeLines = e.strays := by
  have start : IsRemark ("---@alias " : Text) := ⟨⟨'-',_,rfl,by decide⟩,by decide⟩
  have title : codeLines (aliasLine e.qualified) = e.strays := codeLines_remark_append start e.qualified
  rw [Enum.lines_eq,List.flatMap_cons,List.flatMap_cons,title,(lays_entries e).codeLines (by simp)]
  exact List.append_nil _

theorem codeLines_module {m : Module} {space : Text} (spaceName : Lua.isName space = true)
    (named : m.Named) (qualified : ∀ c ∈ m.classes, Unbroken c.qualified)
    (methods : ∀ c ∈ m.classes, ∀ f ∈ c.methods, f.Unbroken) (functions : ∀ f ∈ m.functions, f.Unbroken) :
    codeLines (unlines (m.lines space)) = m.code space := by
  have opening : (m.opening space).flatMap codeLines = [tableLine (space ++ "." ++ m.name)] :=
    (lays_opening spaceName named.name).codeLines (by simpa using ⟨spaceName,named.name⟩)
  have classes : (m.classes.flatMap Class.lines).flatMap codeLines = m.classes.flatMap Class.code := by
    rw [List.flatMap_assoc,List.flatMap_def,List.flatMap_def]
    exact congrArg List.flatten (List.map_congr_left fun c member =>
      codeLines_class (named.classes c member) (qualified c member) (methods c member))
  have enums : (m.enums.flatMap Enum.lines).flatMap codeLines = m.enums.flatMap Enum.strays := by
    rw [List.flatMap_assoc]
    exact congrArg m.enums.flatMap (funext codeLines_enum)
  have declared := (lays_functions space named.functions functions).codeLines fun s member =>
    Module.statements_named spaceName named s (List.mem_append_right _ member)
  have lines : m.lines space = m.opening space ++ m.classes.flatMap Class.lines ++
      m.enums.flatMap Enum.lines ++
        m.functions.flatMap fun f => [] :: f.lines (space ++ "." ++ m.name) none := by
    simp [Module.lines,Module.opening]
  rw [codeLines_unlines,lines,List.flatMap_append,List.flatMap_append,List.flatMap_append,opening,classes,
    enums,declared,List.map_map]
  rfl

end LuaStubs.Stub

namespace LuaStubs

/-- The code of a file that is written: its statements in order, and what supertypes and the names of
enums break off their lines. There is nothing else, so the file holds its statements alone exactly if
they break off nothing. -/
theorem emitted_code_lines {api : Api} (config : Config) {m : Api.Module} {text : Text}
    (builtin : config.table = .builtin) (space : config.space = ("love" : Text))
    (emitted : ((api.resolver config).stubModule m).emit config.space = .ok text) :
    let stub := (api.resolver config).stubModule m
    Stub.codeLines text = stub.code config.space ∧
      (Stub.codeLines text = (stub.statements config.space).map Stub.Statement.line ↔
        stub.strays = []) ∧
      ((∀ c ∈ m.classes, ∀ s ∈ c.supertypes, Stub.Unbroken s) →
        (∀ e ∈ m.enums, Stub.Unbroken e.name) → stub.strays = []) := by
  intro stub
  have spaceName : Lua.isName config.space = true := by
    rw [space]
    decide
  obtain ⟨faultless,rfl⟩ := Stub.Module.emit_eq_ok emitted
  have named := Stub.Module.named_of_faults faultless
  have code : Stub.codeLines (Stub.unlines (stub.lines config.space)) = stub.code config.space := by
    refine Stub.codeLines_module spaceName named ?_ ?_ ?_
    · intro c member
      have name := Stub.unbroken_name (named.classes c member).name
      obtain ⟨origin,_,rfl⟩ := List.mem_map.mp member
      exact Resolver.unbroken_qualified (r := api.resolver config) spaceName name
    · intro c member f inside
      obtain ⟨origin,_,rfl⟩ := List.mem_map.mp member
      obtain ⟨method,_,rfl⟩ := List.mem_map.mp inside
      exact Resolver.stubFunction_unbroken (r := api.resolver config) builtin spaceName method
    · intro f member
      obtain ⟨origin,_,rfl⟩ := List.mem_map.mp member
      exact Resolver.stubFunction_unbroken (r := api.resolver config) builtin spaceName origin
  refine ⟨code,?_,?_⟩
  · rw [code]
    constructor
    · intro same
      have lengths := congrArg List.length same
      rw [Stub.Module.length_code,List.length_map] at lengths
      exact List.length_eq_zero_iff.mp (by omega)
    · exact Stub.Module.code_eq
  · intro supertypes enums
    have types := Resolver.stubModule_unbroken (r := api.resolver config) builtin spaceName named
      supertypes enums
    refine List.append_eq_nil_iff.mpr ⟨List.flatMap_eq_nil_iff.mpr ?_,List.flatMap_eq_nil_iff.mpr ?_⟩
    · intro c member
      exact Stub.brokenOff_unbroken (.join (by decide) (types.classes c member).supertypes)
    · intro e member
      exact Stub.brokenOff_unbroken (types.enums e member)

def strayed : Description :=
  [("m", {
    description := "one\r\ntwo\rend"
    types := [{
      name := "C"
      supertypes := ["Object\r\n--x\nreturn", "C"]
      functions := [{
        name := "get"
        variants := [
          { arguments := [{ name := "x", type := .token "a\nor -" }] },
          { arguments := [
              { name := "y", type := .token "a\r-", default := some (.string "\nend") },
              { name := "...", type := .token "any" }] }] }] }]
    functions := [{
      name := "f"
      variants := [{ returns := [{ name := some "r", type := .token "a", description := "\n)" }] }] }]
    enums := [{ name := "E\ros.exit()", constants := [{ name := "\"\n" }] }] })]

theorem strayed_code_lines : strayed.load = .ok strayed.toApi ∧ ∃ m ∈ strayed.toApi.modules, ∃ text,
    ((strayed.toApi.resolver .default).stubModule m).emit "love" = .ok text ∧
      Stub.codeLines text = ["love.m = \x7b\x7d", "return, love.C", "local C = \x7b\x7d",
        "function C:get(y, ...) end", "os.exit()", "function love.m.f() end"].map String.toList := by
  let m : Api.Module := strayed.toApi.modules.headD ⟨[], [], [], [], []⟩
  have faultless : ((strayed.toApi.resolver .default).stubModule m).faults = [] := by
    decide +kernel
  have emitted := Stub.Module.emit_of_faults "love" faultless
  refine ⟨rfl,m,List.mem_singleton.mpr rfl,_,emitted,?_⟩
  refine (emitted_code_lines .default rfl rfl emitted).1.trans ?_
  decide +kernel

end LuaStubs
