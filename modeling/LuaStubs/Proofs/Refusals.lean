import LuaStubs.Proofs.Places
import LuaStubs.Proofs.Stubs
import Mathlib.Data.List.Forall2

/-! Which descriptions are refused, for which fault, and what becomes of the others. The rules are
stated at their places in the description, in the order in which it is read. -/
namespace LuaStubs.Description

/-- A rule that an argument breaks: at place 0 its name, at 1 its default, at 2 its position. -/
inductive Argument.Broken (path : Text) (isLast : Prop) (a : Argument) : Address → Fault → Prop where
  | name : Text.trim a.name = [] → Broken path isLast a [0] ⟨path ++ "." ++ a.name, .emptyName⟩
  | default {value : Json.Value} : a.optional = some false → a.default = some value →
      value ≠ .null → Broken path isLast a [1] ⟨path ++ "." ++ a.name, .requiredWithDefault⟩
  | varargs : a.name = ("..." : Text) → ¬isLast →
      Broken path isLast a [2] ⟨path ++ "." ++ a.name, .varargsNotLast⟩

/-- At place 0 the name, at 1 that there are variants, then variant by variant the arguments. -/
inductive Function.Broken (parent : Text) (f : Function) : Address → Fault → Prop where
  | name : Text.trim f.name = [] → Broken parent f [0] ⟨parent ++ "." ++ f.name, .emptyName⟩
  | variants : f.variants = [] → Broken parent f [1] ⟨parent ++ "." ++ f.name, .noVariants⟩
  | argument {i j : Nat} {v : Variant} {a : Argument} {place : Address} {fault : Fault} :
      f.variants[i]? = some v → v.arguments[j]? = some a →
      a.Broken (parent ++ "." ++ f.name ++ "#" ++ Text.ofNat (i + 1)) (j + 1 = v.arguments.length)
        place fault →
      Broken parent f (2 :: i :: j :: place) fault

inductive Class.Broken (parent : Text) (c : Class) : Address → Fault → Prop where
  | name : Text.trim c.name = [] → Broken parent c [0] ⟨parent ++ "." ++ c.name, .emptyName⟩
  | method {i : Nat} {f : Function} {place : Address} {fault : Fault} : c.functions[i]? = some f →
      f.Broken (parent ++ "." ++ c.name) place fault → Broken parent c (1 :: i :: place) fault

/-- A module without a name has no path of its own. -/
inductive Module.Broken (name : Text) (m : Module) : Address → Fault → Prop where
  | name : Text.trim name = [] → Broken name m [0] ⟨"module", .emptyName⟩
  | type {i : Nat} {c : Class} {place : Address} {fault : Fault} : m.types[i]? = some c →
      c.Broken name place fault → Broken name m (1 :: i :: place) fault
  | function {i : Nat} {f : Function} {place : Address} {fault : Fault} : m.functions[i]? = some f →
      f.Broken name place fault → Broken name m (2 :: i :: place) fault
  | enum {i : Nat} {e : Enum} : m.enums[i]? = some e → Text.trim e.name = [] →
      Broken name m [3,i] ⟨name ++ "." ++ e.name, .emptyName⟩

inductive Broken (d : Description) : Address → Fault → Prop where
  | module {i : Nat} {name : Text} {m : Module} {place : Address} {fault : Fault} :
      d[i]? = some (name,m) → m.Broken name place fault → Broken d (i :: place) fault

theorem isBlankName_iff {name : Text} : isBlankName name = true ↔ Text.trim name = [] :=
  List.isEmpty_iff

theorem Argument.literal_isSome {a : Argument} :
    a.literal.isSome = true ↔ ∃ value, a.default = some value ∧ value ≠ .null := by
  unfold literal
  cases a.default with
  | none => simp
  | some value => cases value <;> simp [literal?]

theorem told_faultIf {stands : Address → Fault → Prop} {broken : Bool} {holds : Prop} {path : Text}
    {trouble : Trouble} (tested : broken = true ↔ holds) (sound : holds → stands [] ⟨path,trouble⟩)
    (complete : ∀ place fault, stands place fault →
      holds ∧ place = [] ∧ fault = ⟨path,trouble⟩) : Told stands (faultIf broken path trouble) := by
  apply told_if
  · exact fun found => sound (tested.mp found)
  · intro place fault stood
    exact (complete place fault stood).imp_left tested.mpr

theorem Argument.told (path : Text) (isLast : Bool) (a : Argument) :
    Told (a.Broken path (isLast = true)) (a.faults path isLast) := by
  have parts : a.faults path isLast =
      [faultIf (isBlankName a.name) (path ++ "." ++ a.name) .emptyName,
        faultIf (a.optional = some false && a.literal.isSome) (path ++ "." ++ a.name)
          .requiredWithDefault,
        faultIf (a.name = Api.varargsName && !isLast) (path ++ "." ++ a.name)
          .varargsNotLast].flatten := by
    simp [faults]
  have conflict : (decide (a.optional = some false) && a.literal.isSome) = true ↔
      a.optional = some false ∧ ∃ value, a.default = some value ∧ value ≠ .null := by
    rw [Bool.and_eq_true,decide_eq_true_iff,literal_isSome]
  have early : (decide (a.name = Api.varargsName) && !isLast) = true ↔
      a.name = ("..." : Text) ∧ ¬isLast = true := by
    rw [Bool.and_eq_true,decide_eq_true_iff,Bool.not_eq_true',Bool.not_eq_true]
    exact Iff.rfl
  rw [parts]
  apply told_parts
  · refine ⟨told_faultIf isBlankName_iff .name ?_,told_faultIf conflict ?_ ?_,
      told_faultIf early (fun given => .varargs given.1 given.2) ?_,trivial⟩
    · intro place fault broken
      cases broken with
      | name blank => exact ⟨blank,rfl,rfl⟩
    · rintro ⟨required,value,given,present⟩
      exact .default required given present
    · intro place fault broken
      cases broken with
      | default required given present => exact ⟨⟨required,_,given,present⟩,rfl,rfl⟩
    · intro place fault broken
      cases broken with
      | varargs named behind => exact ⟨⟨named,behind⟩,rfl,rfl⟩
  · intro place fault broken
    cases broken <;> exact ⟨_,_,rfl,by simp⟩

/-- Arguments are counted, and the last one is told by its number. -/
theorem argumentFaults_eq (path : Text) (arguments : List Argument) :
    argumentFaults path arguments =
      (arguments.mapIdx fun i a => a.faults path (decide (i + 1 = arguments.length))).flatten := by
  induction arguments with
  | nil => rfl
  | cons first rest ih =>
    have last : rest.isEmpty = decide (0 + 1 = (first :: rest).length) := by
      cases rest <;> simp
    rw [argumentFaults,ih,List.mapIdx_cons,List.flatten_cons,← last]
    simp only [List.length_cons,Nat.add_right_cancel_iff]

theorem Function.told (parent : Text) (f : Function) : Told (f.Broken parent) (f.faults parent) := by
  have parts : f.faults parent =
      [faultIf (isBlankName f.name) (parent ++ "." ++ f.name) .emptyName,
        faultIf f.variants.isEmpty (parent ++ "." ++ f.name) .noVariants,
        (f.variants.mapIdx fun i v =>
          argumentFaults (variantPath (parent ++ "." ++ f.name) i) v.arguments).flatten].flatten := by
    simp [faults]
  have ofVariant (i : Nat) (v : Variant) (listed : f.variants[i]? = some v) :
      Told (fun place fault => f.Broken parent (2 :: i :: place) fault)
        (argumentFaults (variantPath (parent ++ "." ++ f.name) i) v.arguments) := by
    rw [argumentFaults_eq]
    apply told_mapIdx fun j a _ => a.told _ _
    · intro j a place fault member broken
      rw [decide_eq_true_iff] at broken
      exact .argument listed member broken
    · intro place fault broken
      cases broken with
      | argument found member broken =>
        obtain rfl := Option.some.inj (listed.symm.trans found)
        refine ⟨_,_,_,rfl,member,?_⟩
        rw [decide_eq_true_iff]
        exact broken
  rw [parts]
  apply told_parts
  · refine ⟨told_faultIf isBlankName_iff .name ?_,told_faultIf List.isEmpty_iff .variants ?_,
      told_mapIdx ofVariant (fun _ broken => broken) ?_,trivial⟩
    · intro place fault broken
      cases broken with
      | name blank => exact ⟨blank,rfl,rfl⟩
    · intro place fault broken
      cases broken with
      | variants none => exact ⟨none,rfl,rfl⟩
    · intro place fault broken
      cases broken with
      | argument listed member broken => exact ⟨_,_,_,rfl,listed,.argument listed member broken⟩
  · intro place fault broken
    cases broken <;> exact ⟨_,_,rfl,by simp⟩

theorem Class.told (parent : Text) (c : Class) : Told (c.Broken parent) (c.faults parent) := by
  have parts : c.faults parent =
      [faultIf (isBlankName c.name) (parent ++ "." ++ c.name) .emptyName,
        c.functions.flatMap (Function.faults (parent ++ "." ++ c.name))].flatten := by
    simp [faults]
  rw [parts]
  apply told_parts
  · refine ⟨told_faultIf isBlankName_iff .name ?_,told_flatMap (Function.told _) .method ?_,trivial⟩
    · intro place fault broken
      cases broken with
      | name blank => exact ⟨blank,rfl,rfl⟩
    · intro place fault broken
      cases broken with
      | method listed broken => exact ⟨_,_,_,rfl,listed,broken⟩
  · intro place fault broken
    cases broken <;> exact ⟨_,_,rfl,by simp⟩

theorem Module.told (name : Text) (m : Module) : Told (m.Broken name) (m.faults name) := by
  have parts : m.faults name =
      [faultIf (isBlankName name) "module" .emptyName,m.types.flatMap (Class.faults name),
        m.functions.flatMap (Function.faults name),m.enums.flatMap (Enum.faults name)].flatten := by
    simp [faults]
  have ofEnum (e : Enum) : Told (fun place fault => Text.trim e.name = [] ∧ place = [] ∧
      fault = ⟨name ++ "." ++ e.name,.emptyName⟩) (e.faults name) :=
    told_faultIf isBlankName_iff (fun blank => ⟨blank,rfl,rfl⟩) fun _ _ broken => broken
  rw [parts]
  apply told_parts
  · refine ⟨told_faultIf isBlankName_iff .name ?_,told_flatMap (Class.told name) .type ?_,
      told_flatMap (Function.told name) .function ?_,told_flatMap ofEnum ?_ ?_,trivial⟩
    · intro place fault broken
      cases broken with
      | name blank => exact ⟨blank,rfl,rfl⟩
    · intro place fault broken
      cases broken with
      | type listed broken => exact ⟨_,_,_,rfl,listed,broken⟩
    · intro place fault broken
      cases broken with
      | function listed broken => exact ⟨_,_,_,rfl,listed,broken⟩
    · rintro i e rest fault listed ⟨blank,rfl,rfl⟩
      exact .enum listed blank
    · intro place fault broken
      cases broken with
      | enum listed blank => exact ⟨_,_,_,rfl,listed,blank,rfl,rfl⟩
  · intro place fault broken
    cases broken <;> exact ⟨_,_,rfl,by simp⟩

/-- Faults are found in the order of the document. -/
theorem told (d : Description) : Told d.Broken d.faults := by
  have ofModule (entry : Text × Module) :
      Told (entry.2.Broken entry.1) (entry.2.faults entry.1) := entry.2.told entry.1
  apply told_flatMap ofModule .module
  intro place fault broken
  cases broken with
  | module listed broken => exact ⟨_,_,_,rfl,listed,broken⟩

/-- An argument and the parameter that it becomes. An argument that does not say whether it is optional
is so where it has a default. -/
structure Argument.Mirrored (a : Argument) (p : Api.Param) : Prop where
  name : p.name = a.name
  type : p.type = a.type.text
  default : p.default = a.default.bind literal?
  optional : p.optional = a.optional.getD (a.default.bind literal?).isSome
  description : p.description = a.description

/-- An empty name is none. -/
structure Return.Mirrored (r : Return) (s : Api.Return) : Prop where
  name : s.name = r.name.filter (!·.isEmpty)
  type : s.type = r.type.text
  optional : s.optional = r.optional
  description : s.description = r.description

structure Variant.Mirrored (v : Variant) (w : Api.Variant) : Prop where
  params : List.Forall₂ Argument.Mirrored v.arguments w.params
  returns : List.Forall₂ Return.Mirrored v.returns w.returns
  description : w.description = v.description

structure Function.Mirrored (owner : Api.Owner) (f : Function) (g : Api.Function) : Prop where
  name : g.name = f.name
  owned : g.owner = owner
  description : g.description = f.description
  variants : List.Forall₂ Variant.Mirrored f.variants g.variants

structure Class.Mirrored (c : Class) (k : Api.Class) : Prop where
  name : k.name = c.name
  description : k.description = c.description
  supertypes : k.supertypes = c.supertypes
  methods : List.Forall₂ (Function.Mirrored (.ofClass c.name)) c.functions k.methods

structure Constant.Mirrored (c : Constant) (k : Api.Constant) : Prop where
  value : k.value = c.name
  description : k.description = c.description

structure Enum.Mirrored (e : Enum) (k : Api.Enum) : Prop where
  name : k.name = e.name
  description : k.description = e.description
  constants : List.Forall₂ Constant.Mirrored e.constants k.constants

structure Module.Mirrored (entry : Text × Module) (k : Api.Module) : Prop where
  name : k.name = entry.1
  description : k.description = entry.2.description
  classes : List.Forall₂ Class.Mirrored entry.2.types k.classes
  functions : List.Forall₂ (Function.Mirrored (.ofModule entry.1)) entry.2.functions k.functions
  enums : List.Forall₂ Enum.Mirrored entry.2.enums k.enums

def Mirrored (d : Description) (api : Api) : Prop := List.Forall₂ Module.Mirrored d api.modules

theorem forall₂_iff_map {α β : Type} {related : α → β → Prop} {f : α → β}
    (each : ∀ a b, related a b ↔ b = f a) {xs : List α} {ys : List β} :
    List.Forall₂ related xs ys ↔ ys = xs.map f := by
  constructor
  · intro all
    induction all with
    | nil => rfl
    | cons first _ ih => rw [List.map_cons,← (each _ _).mp first,← ih]
  · rintro rfl
    rw [List.forall₂_map_right_iff,List.forall₂_same]
    exact fun a _ => (each a _).mpr rfl

theorem Argument.mirrored_iff (a : Argument) (p : Api.Param) : a.Mirrored p ↔ p = a.toApi := by
  constructor
  · intro same
    cases p
    obtain ⟨rfl,rfl,rfl,rfl,rfl⟩ := same
    rfl
  · rintro rfl
    exact ⟨rfl,rfl,rfl,rfl,rfl⟩

theorem Return.mirrored_iff (r : Return) (s : Api.Return) : r.Mirrored s ↔ s = r.toApi := by
  constructor
  · intro same
    cases s
    obtain ⟨rfl,rfl,rfl,rfl⟩ := same
    rfl
  · rintro rfl
    exact ⟨rfl,rfl,rfl,rfl⟩

theorem Variant.mirrored_iff (v : Variant) (w : Api.Variant) : v.Mirrored w ↔ w = v.toApi := by
  have params := @forall₂_iff_map _ _ _ _ Argument.mirrored_iff v.arguments
  have returns := @forall₂_iff_map _ _ _ _ Return.mirrored_iff v.returns
  constructor
  · intro same
    cases w
    obtain ⟨first,second,rfl⟩ := same
    obtain rfl := params.mp first
    obtain rfl := returns.mp second
    rfl
  · rintro rfl
    exact ⟨params.mpr rfl,returns.mpr rfl,rfl⟩

theorem Function.mirrored_iff (owner : Api.Owner) (f : Function) (g : Api.Function) :
    f.Mirrored owner g ↔ g = f.toApi owner := by
  have variants := @forall₂_iff_map _ _ _ _ Variant.mirrored_iff f.variants
  constructor
  · intro same
    cases g
    obtain ⟨rfl,rfl,rfl,all⟩ := same
    obtain rfl := variants.mp all
    rfl
  · rintro rfl
    exact ⟨rfl,rfl,rfl,variants.mpr rfl⟩

theorem Class.mirrored_iff (c : Class) (k : Api.Class) : c.Mirrored k ↔ k = c.toApi := by
  have methods := @forall₂_iff_map _ _ _ _ (Function.mirrored_iff (.ofClass c.name)) c.functions
  constructor
  · intro same
    cases k
    obtain ⟨rfl,rfl,rfl,all⟩ := same
    obtain rfl := methods.mp all
    rfl
  · rintro rfl
    exact ⟨rfl,rfl,rfl,methods.mpr rfl⟩

theorem Constant.mirrored_iff (c : Constant) (k : Api.Constant) :
    c.Mirrored k ↔ k = ⟨c.name,c.description⟩ := by
  constructor
  · intro same
    cases k
    obtain ⟨rfl,rfl⟩ := same
    rfl
  · rintro rfl
    exact ⟨rfl,rfl⟩

theorem Enum.mirrored_iff (e : Enum) (k : Api.Enum) : e.Mirrored k ↔ k = e.toApi := by
  have constants := @forall₂_iff_map _ _ _ _ Constant.mirrored_iff e.constants
  constructor
  · intro same
    cases k
    obtain ⟨rfl,rfl,all⟩ := same
    obtain rfl := constants.mp all
    rfl
  · rintro rfl
    exact ⟨rfl,rfl,constants.mpr rfl⟩

theorem Module.mirrored_iff (entry : Text × Module) (k : Api.Module) :
    Module.Mirrored entry k ↔ k = entry.2.toApi entry.1 := by
  have classes := @forall₂_iff_map _ _ _ _ Class.mirrored_iff entry.2.types
  have functions := @forall₂_iff_map _ _ _ _ (Function.mirrored_iff (.ofModule entry.1))
    entry.2.functions
  have enums := @forall₂_iff_map _ _ _ _ Enum.mirrored_iff entry.2.enums
  constructor
  · intro same
    cases k
    obtain ⟨rfl,rfl,first,second,third⟩ := same
    obtain rfl := classes.mp first
    obtain rfl := functions.mp second
    obtain rfl := enums.mp third
    rfl
  · rintro rfl
    exact ⟨rfl,rfl,classes.mpr rfl,functions.mpr rfl,enums.mpr rfl⟩

theorem mirrored_iff (d : Description) (api : Api) : d.Mirrored api ↔ api = d.toApi := by
  have modules := @forall₂_iff_map _ _ _ _ Module.mirrored_iff d
  constructor
  · intro same
    cases api
    obtain rfl := modules.mp same
    rfl
  · rintro rfl
    exact modules.mpr rfl

theorem load_eq_error {d : Description} {e : LoadError} : d.load = .error e ↔
    ∃ fault, d.faults.head? = some fault ∧ e = .malformed fault.path fault.trouble.message := by
  unfold load
  cases d.faults with
  | nil => simp
  | cons first rest => simp [eq_comm]

/-- A description is refused exactly where it breaks a rule, with the path and the message of the first
broken rule, and any other becomes the API that mirrors it. -/
theorem load_first_fault (d : Description) :
    ((∃ e, d.load = .error e) ↔ ∃ place fault, d.Broken place fault) ∧
    (∀ e, d.load = .error e ↔
      ∃ fault, IsFirst d.Broken fault ∧ e = .malformed fault.path fault.trouble.message) ∧
    ∀ api, d.load = .ok api ↔ (∀ place fault, ¬d.Broken place fault) ∧ d.Mirrored api := by
  have first (e : LoadError) : d.load = .error e ↔
      ∃ fault, IsFirst d.Broken fault ∧ e = .malformed fault.path fault.trouble.message := by
    simp only [load_eq_error,d.told.head]
  refine ⟨?_,first,fun api => ?_⟩
  · constructor
    · rintro ⟨e,refused⟩
      obtain ⟨fault,⟨place,broken,_⟩,_⟩ := (first e).mp refused
      exact ⟨place,fault,broken⟩
    · rintro ⟨place,fault,broken⟩
      cases loaded : d.load with
      | error e => exact ⟨e,rfl⟩
      | ok api => exact absurd broken (d.told.eq_nil.mp (load_eq_ok loaded).1 place fault)
  · rw [← d.told.eq_nil,mirrored_iff]
    constructor
    · exact load_eq_ok
    · rintro ⟨none,rfl⟩
      unfold load
      rw [none]

/-- The methods of a class come before the functions of its module. -/
example :
    let method : Function := { name := "read", variants := [{ arguments := [{ name := "..." },{}] }] }
    let type : Class := { name := "File", functions := [method] }
    load [("io",{ types := [type], functions := [{ name := " " }] })] =
      .error (.malformed "io.File.read#1...." "varargs must be the last argument") :=
  rfl

end LuaStubs.Description
