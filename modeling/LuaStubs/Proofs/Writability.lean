import LuaStubs.Proofs.Layout
import LuaStubs.Proofs.Matching
import LuaStubs.Proofs.Places

/-! Which modules can be written, and why the others cannot: the first name that is no name, or the
first type with brackets that do not match, in the order in which the parts are written. -/
namespace LuaStubs.Stub

/-- The types of a function as they are written: with the mark of optional values in its signature,
without it for the parameters of its overloads. -/
structure Function.Bracketed (f : Function) : Prop where
  params : ∀ p ∈ f.primary.params, Matched p.rendered
  returns : ∀ r ∈ f.primary.returns, Matched r.rendered
  bases : ∀ s ∈ f.alternates, ∀ p ∈ s.params, Matched p.base
  results : ∀ s ∈ f.alternates, ∀ r ∈ s.returns, Matched r.rendered

structure Module.Bracketed (m : Module) : Prop where
  methods : ∀ c ∈ m.classes, ∀ f ∈ c.methods, f.Bracketed
  functions : ∀ f ∈ m.functions, f.Bracketed

/-- A parameter of a function: its name comes before its type. The subject of the type is that of the
parameter itself in a signature, and that of the function in an overload. -/
inductive BrokenParam (subject ofType name type : Text) : Address → Fault → Prop where
  | name : ¬IsParamName name → BrokenParam subject ofType name type [0] (.invalidName subject name)
  | type : ¬Matched type → BrokenParam subject ofType name type [1] (.unbalanced ofType type)

/-- The type of a value comes before its name. -/
inductive Return.Broken (subject : Text) (r : Return) : Address → Fault → Prop where
  | type : ¬Matched r.rendered → Broken subject r [0] (.unbalanced subject r.rendered)
  | name {name : Text} : r.name = some name → ¬Lua.isName name = true →
      Broken subject r [1] (.invalidName subject name)

/-- In an overload the parameters come before the values, whose names are not written. -/
inductive Signature.Broken (subject : Text) (s : Signature) : Address → Fault → Prop where
  | param {i : Nat} {p : Param} {place : Address} {fault : Fault} : s.params[i]? = some p →
      BrokenParam subject subject p.name p.base place fault →
      Broken subject s (0 :: i :: place) fault
  | result {i : Nat} {r : Return} : s.returns[i]? = some r → ¬Matched r.rendered →
      Broken subject s [1,i] (.unbalanced subject r.rendered)

inductive Function.Broken (parent : Text) (f : Function) : Address → Fault → Prop where
  | name : ¬Lua.isName f.name = true →
      Broken parent f [0] (.invalidName (parent ++ "." ++ f.name) f.name)
  | param {i : Nat} {p : Param} {place : Address} {fault : Fault} : f.primary.params[i]? = some p →
      BrokenParam (parent ++ "." ++ f.name) (parent ++ "." ++ f.name ++ "." ++ p.name) p.name
        p.rendered place fault →
      Broken parent f (1 :: i :: place) fault
  | value {i : Nat} {r : Return} {place : Address} {fault : Fault} : f.primary.returns[i]? = some r →
      r.Broken (parent ++ "." ++ f.name) place fault → Broken parent f (2 :: i :: place) fault
  | overload {i : Nat} {s : Signature} {place : Address} {fault : Fault} : f.alternates[i]? = some s →
      s.Broken (parent ++ "." ++ f.name) place fault → Broken parent f (3 :: i :: place) fault

inductive Class.Broken (parent : Text) (c : Class) : Address → Fault → Prop where
  | name : ¬Lua.isName c.name = true →
      Broken parent c [0] (.invalidName (parent ++ "." ++ c.name) c.name)
  | method {i : Nat} {f : Function} {place : Address} {fault : Fault} : c.methods[i]? = some f →
      f.Broken (parent ++ "." ++ c.name) place fault → Broken parent c (1 :: i :: place) fault

/-- Enums stand between the classes and the functions, but no rule is about them. -/
inductive Module.Broken (m : Module) : Address → Fault → Prop where
  | name : ¬Lua.isName m.name = true → Broken m [0] (.invalidName m.name m.name)
  | type {i : Nat} {c : Class} {place : Address} {fault : Fault} : m.classes[i]? = some c →
      c.Broken m.name place fault → Broken m (1 :: i :: place) fault
  | function {i : Nat} {f : Function} {place : Address} {fault : Fault} : m.functions[i]? = some f →
      f.Broken m.name place fault → Broken m (2 :: i :: place) fault

section

variable {stands : Address → Fault → Prop} {subject name rendered : Text}

theorem told_nameFaults (sound : ¬Lua.isName name = true → stands [] (.invalidName subject name))
    (complete : ∀ place fault, stands place fault →
      ¬Lua.isName name = true ∧ place = [] ∧ fault = .invalidName subject name) :
    Told stands (nameFaults subject name) :=
  told_unless sound complete

theorem told_paramNameFaults (sound : ¬IsParamName name → stands [] (.invalidName subject name))
    (complete : ∀ place fault, stands place fault →
      ¬IsParamName name ∧ place = [] ∧ fault = .invalidName subject name) :
    Told stands (paramNameFaults subject name) := by
  unfold paramNameFaults
  by_cases further : name = Api.varargsName
  · rw [if_pos further]
    apply told_none
    intro place fault stood
    exact (complete place fault stood).1 (Or.inl further)
  · rw [if_neg further]
    apply told_nameFaults
    · intro invalid
      exact sound fun valid => valid.elim further invalid
    · intro place fault stood
      obtain ⟨invalid,rest⟩ := complete place fault stood
      exact ⟨fun valid => invalid (Or.inr valid),rest⟩

theorem told_typeFaults (sound : ¬Matched rendered → stands [] (.unbalanced subject rendered))
    (complete : ∀ place fault, stands place fault →
      ¬Matched rendered ∧ place = [] ∧ fault = .unbalanced subject rendered) :
    Told stands (typeFaults subject rendered) := by
  rw [← isBalanced_iff] at sound complete
  exact told_unless sound complete

end

theorem told_param (subject ofType name type : Text) :
    Told (BrokenParam subject ofType name type)
      (paramNameFaults subject name ++ typeFaults ofType type) := by
  have parts : paramNameFaults subject name ++ typeFaults ofType type =
      [paramNameFaults subject name,typeFaults ofType type].flatten := by
    simp
  rw [parts]
  apply told_parts
  · refine ⟨told_paramNameFaults .name ?_,told_typeFaults .type ?_,trivial⟩
    · intro place fault broken
      cases broken with
      | name invalid => exact ⟨invalid,rfl,rfl⟩
    · intro place fault broken
      cases broken with
      | type unmatched => exact ⟨unmatched,rfl,rfl⟩
  · intro place fault broken
    cases broken <;> exact ⟨_,_,rfl,by simp⟩

theorem Return.told (subject : Text) (r : Return) : Told (r.Broken subject) (r.faults subject) := by
  have parts : r.faults subject = [typeFaults subject r.rendered,
      (r.name.map (nameFaults subject)).getD []].flatten := by
    simp [faults]
  have named : Told (fun place => r.Broken subject (1 :: place))
      ((r.name.map (nameFaults subject)).getD []) := by
    cases given : r.name with
    | none =>
      apply told_none
      intro place fault broken
      cases broken with
      | name other _ => cases given.symm.trans other
    | some name =>
      apply told_nameFaults (.name given)
      intro place fault broken
      cases broken with
      | name other invalid =>
        obtain rfl := Option.some.inj (given.symm.trans other)
        exact ⟨invalid,rfl,rfl⟩
  rw [parts]
  apply told_parts
  · refine ⟨told_typeFaults .type ?_,named,trivial⟩
    intro place fault broken
    cases broken with
    | type unmatched => exact ⟨unmatched,rfl,rfl⟩
  · intro place fault broken
    cases broken <;> exact ⟨_,_,rfl,by simp⟩

theorem Signature.told (subject : Text) (s : Signature) :
    Told (s.Broken subject) (s.faults subject) := by
  have parts : s.faults subject =
      [s.params.flatMap fun p => paramNameFaults subject p.name ++ typeFaults subject p.base,
        s.returns.flatMap fun r => typeFaults subject r.rendered].flatten := by
    simp [faults]
  have ofResult (r : Return) : Told (fun place fault => ¬Matched r.rendered ∧ place = [] ∧
      fault = .unbalanced subject r.rendered) (typeFaults subject r.rendered) :=
    told_typeFaults (fun unmatched => ⟨unmatched,rfl,rfl⟩) fun _ _ broken => broken
  rw [parts]
  apply told_parts
  · refine ⟨told_flatMap (fun p => told_param _ _ _ _) .param ?_,told_flatMap ofResult ?_ ?_,trivial⟩
    · intro place fault broken
      cases broken with
      | param listed broken => exact ⟨_,_,_,rfl,listed,broken⟩
    · rintro i r rest fault listed ⟨unmatched,rfl,rfl⟩
      exact .result listed unmatched
    · intro place fault broken
      cases broken with
      | result listed unmatched => exact ⟨_,_,_,rfl,listed,unmatched,rfl,rfl⟩
  · intro place fault broken
    cases broken <;> exact ⟨_,_,rfl,by simp⟩

theorem Function.told (parent : Text) (f : Function) : Told (f.Broken parent) (f.faults parent) := by
  let subject := parent ++ "." ++ f.name
  have parts : f.faults parent = [nameFaults subject f.name,
      f.primary.params.flatMap (Param.faults subject),
      f.primary.returns.flatMap (Return.faults subject),
      f.alternates.flatMap (Signature.faults subject)].flatten := by
    simp [faults,subject]
  have ofParam (p : Param) : Told
      (BrokenParam subject (subject ++ "." ++ p.name) p.name p.rendered) (p.faults subject) :=
    told_param _ _ _ _
  rw [parts]
  apply told_parts
  · refine ⟨told_nameFaults .name ?_,told_flatMap ofParam .param ?_,
      told_flatMap (Return.told subject) .value ?_,
      told_flatMap (Signature.told subject) .overload ?_,trivial⟩
    · intro place fault broken
      cases broken with
      | name invalid => exact ⟨invalid,rfl,rfl⟩
    · intro place fault broken
      cases broken with
      | param listed broken => exact ⟨_,_,_,rfl,listed,broken⟩
    · intro place fault broken
      cases broken with
      | value listed broken => exact ⟨_,_,_,rfl,listed,broken⟩
    · intro place fault broken
      cases broken with
      | overload listed broken => exact ⟨_,_,_,rfl,listed,broken⟩
  · intro place fault broken
    cases broken <;> exact ⟨_,_,rfl,by simp⟩

theorem Class.told (parent : Text) (c : Class) : Told (c.Broken parent) (c.faults parent) := by
  have parts : c.faults parent = [nameFaults (parent ++ "." ++ c.name) c.name,
      c.methods.flatMap (Function.faults (parent ++ "." ++ c.name))].flatten := by
    simp [faults]
  rw [parts]
  apply told_parts
  · refine ⟨told_nameFaults .name ?_,told_flatMap (Function.told _) .method ?_,trivial⟩
    · intro place fault broken
      cases broken with
      | name invalid => exact ⟨invalid,rfl,rfl⟩
    · intro place fault broken
      cases broken with
      | method listed broken => exact ⟨_,_,_,rfl,listed,broken⟩
  · intro place fault broken
    cases broken <;> exact ⟨_,_,rfl,by simp⟩

theorem Module.told (m : Module) : Told m.Broken m.faults := by
  have parts : m.faults = [nameFaults m.name m.name,m.classes.flatMap (Class.faults m.name),
      m.functions.flatMap (Function.faults m.name)].flatten := by
    simp [faults]
  rw [parts]
  apply told_parts
  · refine ⟨told_nameFaults .name ?_,told_flatMap (Class.told m.name) .type ?_,
      told_flatMap (Function.told m.name) .function ?_,trivial⟩
    · intro place fault broken
      cases broken with
      | name invalid => exact ⟨invalid,rfl,rfl⟩
    · intro place fault broken
      cases broken with
      | type listed broken => exact ⟨_,_,_,rfl,listed,broken⟩
    · intro place fault broken
      cases broken with
      | function listed broken => exact ⟨_,_,_,rfl,listed,broken⟩
  · intro place fault broken
    cases broken <;> exact ⟨_,_,rfl,by simp⟩

theorem typeFaults_eq_nil {subject type : Text} : typeFaults subject type = [] ↔ Matched type := by
  rw [typeFaults,← isBalanced_iff]
  by_cases balanced : isBalanced type = true <;> simp [balanced]

theorem Return.faults_eq_nil {subject : Text} {r : Return} : r.faults subject = [] ↔
    Matched r.rendered ∧ ∀ name ∈ r.name, Lua.isName name = true := by
  rw [faults,List.append_eq_nil_iff,typeFaults_eq_nil]
  cases r.name with
  | none => simp
  | some name => simp [nameFaults_eq_nil]

theorem Function.faults_eq_nil {parent : Text} {f : Function} :
    f.faults parent = [] ↔ f.Named ∧ f.Bracketed := by
  simp only [faults,List.append_eq_nil_iff,List.flatMap_eq_nil_iff,Param.faults,
    Return.faults_eq_nil,Signature.faults,nameFaults_eq_nil,paramNameFaults_eq_nil,
    typeFaults_eq_nil]
  constructor
  · rintro ⟨⟨⟨name,params⟩,returns⟩,alternates⟩
    constructor
    · exact ⟨name,fun p member => (params p member).1,fun r member => (returns r member).2,
        fun s member p inside => ((alternates s member).1 p inside).1⟩
    · exact ⟨fun p member => (params p member).2,fun r member => (returns r member).1,
        fun s member p inside => ((alternates s member).1 p inside).2,
        fun s member => (alternates s member).2⟩
  · rintro ⟨named,bracketed⟩
    refine ⟨⟨⟨named.name,?_⟩,?_⟩,?_⟩
    · exact fun p member => ⟨named.params p member,bracketed.params p member⟩
    · exact fun r member => ⟨bracketed.returns r member,named.returns r member⟩
    · exact fun s member => ⟨fun p inside => ⟨named.alternates s member p inside,
        bracketed.bases s member p inside⟩,bracketed.results s member⟩

theorem Module.faults_eq_nil {m : Module} : m.faults = [] ↔ m.Named ∧ m.Bracketed := by
  simp only [faults,List.append_eq_nil_iff,List.flatMap_eq_nil_iff,Class.faults,
    Function.faults_eq_nil,nameFaults_eq_nil]
  constructor
  · rintro ⟨⟨name,classes⟩,functions⟩
    constructor
    · exact ⟨name,fun c member => ⟨(classes c member).1,fun f inside =>
        ((classes c member).2 f inside).1⟩,fun f member => (functions f member).1⟩
    · exact ⟨fun c member f inside => ((classes c member).2 f inside).2,
        fun f member => (functions f member).2⟩
  · rintro ⟨named,bracketed⟩
    refine ⟨⟨named.name,fun c member => ⟨(named.classes c member).name,fun f inside => ?_⟩⟩,?_⟩
    · exact ⟨(named.classes c member).methods f inside,bracketed.methods c member f inside⟩
    · exact fun f member => ⟨named.functions f member,bracketed.functions f member⟩

theorem Module.emit_eq_error {m : Module} {space : Text} {fault : Fault} :
    m.emit space = .error fault ↔ m.faults.head? = some fault := by
  rw [Module.emit]
  cases m.faults with
  | nil => simp
  | cons first rest => simp

/-- A module is written exactly where all its names are names and the brackets of all its types match;
else the first fault is told, in the order in which the parts would have been written. -/
theorem Module.emit_first_fault (m : Module) (space : Text) :
    ((∃ text, m.emit space = .ok text) ↔ m.Named ∧ m.Bracketed) ∧
    ∀ fault, m.emit space = .error fault ↔ IsFirst m.Broken fault := by
  constructor
  · rw [← faults_eq_nil]
    constructor
    · rintro ⟨text,emitted⟩
      exact (emit_eq_ok emitted).1
    · intro none
      exact ⟨_,emit_of_faults space none⟩
  · intro fault
    rw [emit_eq_error,m.told.head]

end LuaStubs.Stub
