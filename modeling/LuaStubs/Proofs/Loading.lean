import LuaStubs.Files.Documents
import LuaStubs.Proofs.Faithfulness
import LuaStubs.Proofs.FileTree
import LuaStubs.Proofs.Stubs
import Mathlib.Data.List.TakeWhile

/-! What is known of every API that was loaded, and how several documents become one. -/
namespace LuaStubs

namespace Api

def Visible (name : Text) : Prop := ∃ c ∈ name, Text.isBlank c = false

structure Variant.Lawful (v : Variant) : Prop where
  named : ∀ p ∈ v.params, Visible p.name
  varargs : v.VarargsLast
  defaults : ∀ p ∈ v.params, p.default.isSome = true → p.optional = true

structure Function.Lawful (owner : Owner) (f : Function) : Prop where
  named : Visible f.name
  owned : f.owner = owner
  some : f.variants ≠ []
  variants : ∀ v ∈ f.variants, v.Lawful

structure Class.Lawful (c : Class) : Prop where
  named : Visible c.name
  methods : ∀ f ∈ c.methods, f.Lawful (.ofClass c.name)

structure Module.Lawful (m : Module) : Prop where
  named : Visible m.name
  classes : ∀ c ∈ m.classes, c.Lawful
  functions : ∀ f ∈ m.functions, f.Lawful (.ofModule m.name)
  enums : ∀ e ∈ m.enums, Visible e.name

end Api

namespace Description

theorem visible_of_faultIf {name path : Text} {trouble : Trouble}
    (none : faultIf (isBlankName name) path trouble = []) : Api.Visible name := by
  have shown := faultIf_nil none
  refine Classical.byContradiction fun hidden => ?_
  have blank : ∀ c ∈ name, Text.isBlank c = true := by
    intro c member
    cases seen : Text.isBlank c with
    | true => rfl
    | false => exact absurd ⟨c,member,seen⟩ hidden
  have empty : Text.trimStart name = [] := List.dropWhile_eq_nil_iff.mpr blank
  simp [isBlankName,Text.trim,empty,Text.trimEnd] at shown

theorem lawful_arguments {path : Text} {arguments : List Argument}
    (none : argumentFaults path arguments = []) : ∀ a ∈ arguments, Api.Visible a.name ∧
      (a.literal.isSome = true → a.toApi.optional = true) := by
  induction arguments with
  | nil => simp
  | cons first rest ih =>
    simp only [argumentFaults,Argument.faults,List.append_eq_nil_iff] at none
    obtain ⟨⟨⟨named,required⟩,_⟩,later⟩ := none
    refine List.forall_mem_cons.mpr ⟨⟨visible_of_faultIf named,fun given => ?_⟩,ih later⟩
    have required := faultIf_nil required
    simp only [given,Bool.and_true,decide_eq_false_iff_not] at required
    change first.optional.getD first.literal.isSome = true
    cases flag : first.optional with
    | none => exact given
    | some optional =>
      cases optional with
      | true => rfl
      | false => exact absurd flag required

theorem Function.lawful {parent : Text} {f : Function} (owner : Api.Owner)
    (none : f.faults parent = []) : (f.toApi owner).Lawful owner := by
  have varargs : ∀ v ∈ (f.toApi owner).variants, v.VarargsLast := Function.varargsLast none
  simp only [Function.faults,List.append_eq_nil_iff,List.flatten_eq_nil_iff] at none
  obtain ⟨⟨named,some⟩,variants⟩ := none
  refine ⟨visible_of_faultIf named,rfl,?_,fun v member => ?_⟩
  · have given := faultIf_nil some
    simpa [Function.toApi] using given
  · have last := varargs v member
    obtain ⟨origin,among,rfl⟩ := List.mem_map.mp member
    obtain ⟨i,below,rfl⟩ := List.mem_iff_getElem.mp among
    have arguments := lawful_arguments (variants _ (List.mem_mapIdx.mpr ⟨i,below,rfl⟩))
    have params : ∀ p ∈ (f.variants[i].toApi).params, Api.Visible p.name ∧
        (p.default.isSome = true → p.optional = true) := by
      intro p inside
      obtain ⟨a,listed,rfl⟩ := List.mem_map.mp inside
      exact arguments a listed
    exact ⟨fun p inside => (params p inside).1,last,fun p inside => (params p inside).2⟩

theorem Class.lawful {parent : Text} {c : Class} (none : c.faults parent = []) : c.toApi.Lawful := by
  simp only [Class.faults,List.append_eq_nil_iff,List.flatMap_eq_nil_iff] at none
  refine ⟨visible_of_faultIf none.1,fun f member => ?_⟩
  obtain ⟨origin,among,rfl⟩ := List.mem_map.mp member
  exact Function.lawful _ (none.2 origin among)

theorem Module.lawful {name : Text} {m : Module} (none : m.faults name = []) :
    (m.toApi name).Lawful := by
  simp only [Module.faults,List.append_eq_nil_iff,List.flatMap_eq_nil_iff] at none
  obtain ⟨⟨⟨named,classes⟩,functions⟩,enums⟩ := none
  refine ⟨visible_of_faultIf named,?_,?_,?_⟩
  · intro c member
    obtain ⟨origin,among,rfl⟩ := List.mem_map.mp member
    exact Class.lawful (classes origin among)
  · intro f member
    obtain ⟨origin,among,rfl⟩ := List.mem_map.mp member
    exact Function.lawful _ (functions origin among)
  · intro e member
    obtain ⟨origin,among,rfl⟩ := List.mem_map.mp member
    exact visible_of_faultIf (enums origin among)

theorem lawful_of_load {d : Description} {api : Api} (loaded : d.load = .ok api) :
    ∀ m ∈ api.modules, m.Lawful := by
  obtain ⟨none,rfl⟩ := load_eq_ok loaded
  intro m member
  obtain ⟨⟨name,origin⟩,among,rfl⟩ := List.mem_map.mp member
  have faults := List.flatMap_eq_nil_iff.mp none _ among
  exact Module.lawful faults

/-- The keys of a description are the names of its modules. -/
theorem names_of_load {d : Description} {api : Api} (loaded : d.load = .ok api) :
    api.modules.map Api.Module.name = d.map Prod.fst := by
  obtain ⟨_,rfl⟩ := load_eq_ok loaded
  simp only [toApi,List.map_map]
  rfl

end Description

namespace Api

def duplicate (name : Text) : LoadError := .malformed name "module defined by more than one input"

/-- No other message begins with these letters. -/
theorem ne_duplicate {message : Text} (other : message.take 2 ≠ "mo") (path name : Text) :
    LoadError.malformed path message ≠ duplicate name := by
  intro same
  obtain ⟨_,rfl⟩ := LoadError.malformed.inj same
  exact other rfl

theorem mismatch_ne_duplicate (m : Json.Mismatch) (path more name : Text) :
    LoadError.malformed path (m.message ++ more) ≠ duplicate name := by
  refine ne_duplicate (fun same => ?_) path name
  cases m <;> cases same

theorem inText_ne_duplicate (f : Json.Failure) (origin t name : Text) :
    f.inText origin t ≠ duplicate name := by
  unfold Json.Failure.inText
  split
  · intro same
    cases same
  · exact mismatch_ne_duplicate _ _ _ name

theorem inValue_ne_duplicate (f : Json.Failure) (origin name : Text) :
    f.inValue origin ≠ duplicate name := by
  unfold Json.Failure.inValue
  split
  · rename_i spot _
    refine ne_duplicate (fun same => ?_) _ name
    cases flaw : spot.flaw <;> rw [flaw] at same <;> cases same
  · rename_i m _ _
    have whole := mismatch_ne_duplicate m (origin ++ ":" ++ Json.renderPath f.path) [] name
    rwa [List.append_nil] at whole

theorem trouble_ne_duplicate (fault : Description.Fault) (name : Text) :
    LoadError.malformed fault.path fault.trouble.message ≠ duplicate name := by
  refine ne_duplicate (fun same => ?_) _ name
  cases trouble : fault.trouble <;> rw [trouble] at same <;> cases same

theorem mapError_eq_error {ε δ α : Type} {x : Except ε α} {f : ε → δ} {e : δ}
    (failed : x.mapError f = .error e) : ∃ cause, f cause = e := by
  cases x with
  | error cause => exact ⟨cause,Except.error.inj failed⟩
  | ok a => cases failed

/-- A document that cannot be loaded says why in other words than one that comes too late. -/
theorem load_ne_duplicate (source origin : Text) (pointer : Option Text) (name : Text) :
    load source origin pointer ≠ .error (duplicate name) := by
  intro failed
  cases described : describe source origin pointer with
  | ok d =>
    rw [load,described] at failed
    change d.load = _ at failed
    unfold Description.load at failed
    split at failed
    · cases failed
    · exact trouble_ne_duplicate _ name (Except.error.inj failed)
  | error e =>
    rw [load,described] at failed
    obtain rfl : e = duplicate name := Except.error.inj failed
    cases pointer with
    | none =>
      obtain ⟨f,same⟩ := mapError_eq_error described
      exact inText_ne_duplicate f origin source name same
    | some pointer =>
      unfold describe at described
      cases value : Json.Reader.value.ofText origin source with
      | error e =>
        rw [value] at described
        obtain rfl : e = duplicate name := Except.error.inj described
        obtain ⟨f,same⟩ := mapError_eq_error value
        exact inText_ne_duplicate f origin source name same
      | ok v =>
        simp only [value,bind,Except.bind] at described
        split at described
        · obtain ⟨f,same⟩ := mapError_eq_error described
          exact inValue_ne_duplicate f origin name same
        · cases described

/-- The names of the modules of one document are different: they are keys of an object. -/
theorem nodup_of_load {source origin : Text} {pointer : Option Text} {api : Api}
    (loaded : load source origin pointer = .ok api) : (api.modules.map Module.name).Nodup := by
  obtain ⟨d,described,loaded⟩ := bind_eq_ok.mp loaded
  rw [Description.names_of_load loaded]
  have keys {mode : Json.Mode} {t : Json.Tree} (read : Description.reader mode t = .ok d) :
      (d.map Prod.fst).Nodup := by
    obtain ⟨_,members,_,_,read⟩ := Json.Reader.map_eq_ok.mp read
    exact Json.Members.nodup_readAll read (by simp)
  cases pointer with
  | none => exact keys (mapError_eq_ok.mp described)
  | some pointer =>
    obtain ⟨v,_,selected⟩ := bind_eq_ok.mp described
    split at selected
    · exact keys (mapError_eq_ok.mp selected)
    · cases selected

theorem nodup_names_append {before ms : List Module} (distinct : (before.map Module.name).Nodup) :
    ((before ++ ms).map Module.name).Nodup ↔ (ms.map Module.name).Nodup ∧
      ∀ m ∈ ms, m.name ∉ before.map Module.name := by
  rw [List.map_append,List.nodup_append]
  constructor
  · rintro ⟨_,own,apart⟩
    exact ⟨own,fun m member known => apart _ known _ (List.mem_map_of_mem member) rfl⟩
  · rintro ⟨own,fresh⟩
    refine ⟨distinct,own,?_⟩
    rintro _ known _ new rfl
    obtain ⟨m,member,same⟩ := List.mem_map.mp new
    exact fresh m member (same ▸ known)

theorem mergeModules_eq_ok {before ms all : List Module} (distinct : (before.map Module.name).Nodup) :
    mergeModules before ms = .ok all ↔
      all = before ++ ms ∧ ((before ++ ms).map Module.name).Nodup := by
  induction ms generalizing before with
  | nil => simp [mergeModules,distinct,eq_comm]
  | cons m rest ih =>
    have known : before.any (·.name = m.name) = true ↔ m.name ∈ before.map Module.name := by simp
    unfold mergeModules
    by_cases again : m.name ∈ before.map Module.name
    · rw [if_pos (known.mpr again),nodup_names_append distinct]
      refine ⟨fun same => (by cases same),fun apart => ?_⟩
      exact absurd again (apart.2.2 m List.mem_cons_self)
    · have longer : ((before ++ [m]).map Module.name).Nodup :=
        (nodup_names_append distinct).mpr ⟨by simp,by simpa using again⟩
      rw [if_neg (mt known.mp again),ih longer,← List.append_cons]

theorem mergeModules_eq_error {before ms : List Module} {e : LoadError}
    (failed : mergeModules before ms = .error e) : ∃ name, e = duplicate name := by
  induction ms generalizing before with
  | nil => cases failed
  | cons m rest ih =>
    unfold mergeModules at failed
    split at failed
    · exact ⟨m.name,(Except.error.inj failed).symm⟩
    · exact ih failed

def part (pointer : Option Text) (document : Except LoadError Document) : Except LoadError Api := do
  let document ← document
  load document.source document.origin pointer

def Load (pointer : Option Text) (documents : List (Except LoadError Document)) (parts : List Api) :
    Prop :=
  documents.map (part pointer) = parts.map .ok

variable {pointer : Option Text} {before api : Api} {file : Except LoadError Document}
  {documents rest : List (Except LoadError Document)} {parts : List Api}

theorem load_cons : Load pointer (file :: documents) parts ↔
    ∃ first others, part pointer file = .ok first ∧ Load pointer documents others ∧
      parts = first :: others := by
  cases parts with
  | nil => simp [Load]
  | cons first others => simp [Load]

theorem loadAll_cons : loadAll pointer before (file :: rest) = (do
    let first ← part pointer file
    let whole ← before.merge first
    loadAll pointer whole rest) := by
  cases file <;> simp [loadAll,part,bind,Except.bind]

theorem merge_eq_ok {a b whole : Api} (distinct : (a.modules.map Module.name).Nodup) :
    a.merge b = .ok whole ↔
      whole.modules = a.modules ++ b.modules ∧ (whole.modules.map Module.name).Nodup := by
  have modules : a.merge b = .ok whole ↔ mergeModules a.modules b.modules = .ok whole.modules := by
    unfold merge
    cases mergeModules a.modules b.modules <;> cases whole <;> simp [Except.map]
  rw [modules,mergeModules_eq_ok distinct]
  exact and_congr_right fun same => by rw [same]

theorem merge_eq_error {a b : Api} {e : LoadError} (failed : a.merge b = .error e) :
    ∃ name, e = duplicate name := by
  unfold merge at failed
  cases merged : mergeModules a.modules b.modules with
  | error cause =>
    rw [merged] at failed
    exact Except.error.inj failed ▸ mergeModules_eq_error merged
  | ok all =>
    rw [merged] at failed
    cases failed

/-- A merge appends all modules or fails at a name that is there already. -/
theorem merge_cases {a b : Api} (distinct : (a.modules.map Module.name).Nodup)
    (own : (b.modules.map Module.name).Nodup) :
    (a.merge b = .ok ⟨a.modules ++ b.modules⟩ ∧ ((a.modules ++ b.modules).map Module.name).Nodup ∧
      ¬∃ m ∈ b.modules, m.name ∈ a.modules.map Module.name) ∨
    (∃ name, a.merge b = .error (duplicate name)) ∧
      ∃ m ∈ b.modules, m.name ∈ a.modules.map Module.name := by
  by_cases known : ∃ m ∈ b.modules, m.name ∈ a.modules.map Module.name
  · refine .inr ⟨?_,known⟩
    cases merged : a.merge b with
    | error e =>
      obtain ⟨name,rfl⟩ := merge_eq_error merged
      exact ⟨name,rfl⟩
    | ok whole =>
      obtain ⟨m,member,again⟩ := known
      obtain ⟨modules,unique⟩ := (merge_eq_ok distinct).mp merged
      rw [modules,nodup_names_append distinct] at unique
      exact absurd again (unique.2 m member)
  · have unique := (nodup_names_append distinct).mpr ⟨own,fun m member again => known ⟨m,member,again⟩⟩
    exact .inl ⟨(merge_eq_ok distinct).mpr ⟨rfl,unique⟩,unique,known⟩

/-- Documents load together exactly if each of them loads and no name of a module comes twice. -/
theorem loadAll_eq_ok (distinct : (before.modules.map Module.name).Nodup) :
    loadAll pointer before documents = .ok api ↔
      ∃ parts, Load pointer documents parts ∧
        api.modules = before.modules ++ parts.flatMap Api.modules ∧
          (api.modules.map Module.name).Nodup := by
  induction documents generalizing before with
  | nil =>
    constructor
    · intro loaded
      obtain rfl := Except.ok.inj loaded
      exact ⟨[],rfl,by simp,distinct⟩
    · rintro ⟨parts,each,modules,_⟩
      obtain rfl : parts = [] := List.map_eq_nil_iff.mp each.symm
      cases api
      cases before
      simpa [loadAll,eq_comm] using modules
  | cons file rest ih =>
    simp only [loadAll_cons,bind_eq_ok]
    constructor
    · rintro ⟨first,loaded,whole,merged,later⟩
      obtain ⟨modules,unique⟩ := (merge_eq_ok distinct).mp merged
      obtain ⟨others,each,all,result⟩ := (ih unique).mp later
      refine ⟨first :: others,load_cons.mpr ⟨first,others,loaded,each,rfl⟩,?_,result⟩
      rw [all,modules,List.flatMap_cons,List.append_assoc]
    · rintro ⟨parts,loads,all,result⟩
      obtain ⟨first,others,loaded,each,rfl⟩ := load_cons.mp loads
      rw [List.flatMap_cons,← List.append_assoc] at all
      have unique : ((before.modules ++ first.modules).map Module.name).Nodup := by
        rw [all,List.map_append] at result
        exact (List.nodup_append.mp result).1
      exact ⟨first,loaded,⟨before.modules ++ first.modules⟩,(merge_eq_ok distinct).mpr ⟨rfl,unique⟩,
        (ih unique).mpr ⟨others,each,all,result⟩⟩

/-- Each module of a loaded model has a name of its own. -/
theorem distinct_of_loadAll (loaded : loadAll pointer before documents = .ok api)
    (distinct : (before.modules.map Module.name).Nodup) : (api.modules.map Module.name).Nodup := by
  obtain ⟨_,_,_,unique⟩ := (loadAll_eq_ok distinct).mp loaded
  exact unique

theorem part_ne_duplicate (readable : ∀ name, file ≠ .error (duplicate name)) (name : Text) :
    part pointer file ≠ .error (duplicate name) := by
  cases file with
  | error e => exact fun same => readable name (congrArg Except.error (Except.error.inj same))
  | ok document => exact load_ne_duplicate document.source document.origin pointer name

theorem nodup_of_part (loaded : part pointer file = .ok api) :
    (api.modules.map Module.name).Nodup := by
  obtain ⟨document,_,loaded⟩ := bind_eq_ok.mp loaded
  exact nodup_of_load loaded

/-- Some document repeats the name of a module that is there before, and all documents up to it
load. -/
def Repeats (pointer : Option Text) (before : Api) (documents : List (Except LoadError Document)) :
    Prop :=
  ∃ earlier file later parts whole, documents = earlier ++ file :: later ∧
    Load pointer earlier parts ∧ part pointer file = .ok whole ∧
      ∃ m ∈ whole.modules, m.name ∈ (before.modules ++ parts.flatMap Api.modules).map Module.name

theorem repeats_cons : Repeats pointer before (file :: rest) ↔
    ∃ first, part pointer file = .ok first ∧
      ((∃ m ∈ first.modules, m.name ∈ before.modules.map Module.name) ∨
        Repeats pointer ⟨before.modules ++ first.modules⟩ rest) := by
  constructor
  · rintro ⟨earlier,other,later,parts,whole,same,loads,loaded,m,member,known⟩
    cases earlier with
    | nil =>
      obtain ⟨rfl,rfl⟩ := List.cons.inj same
      obtain rfl : parts = [] := List.map_eq_nil_iff.mp loads.symm
      exact ⟨whole,loaded,.inl ⟨m,member,by simpa using known⟩⟩
    | cons first earlier =>
      obtain ⟨rfl,rfl⟩ := List.cons.inj same
      obtain ⟨first,others,read,each,rfl⟩ := load_cons.mp loads
      refine ⟨first,read,.inr ⟨earlier,other,later,others,whole,rfl,each,loaded,m,member,?_⟩⟩
      simpa [or_assoc] using known
  · rintro ⟨first,read,⟨m,member,known⟩ | ⟨earlier,other,later,others,whole,rfl,each,loaded,m,member,known⟩⟩
    · exact ⟨[],file,rest,[],first,rfl,rfl,read,m,member,by simpa using known⟩
    · refine ⟨file :: earlier,other,later,first :: others,whole,rfl,
        load_cons.mpr ⟨first,others,read,each,rfl⟩,loaded,m,member,?_⟩
      simpa [or_assoc] using known

theorem loadAll_eq_duplicate (distinct : (before.modules.map Module.name).Nodup)
    (readable : ∀ file ∈ documents, ∀ name, file ≠ .error (duplicate name)) :
    (∃ name, loadAll pointer before documents = .error (duplicate name)) ↔
      Repeats pointer before documents := by
  induction documents generalizing before with
  | nil =>
    constructor
    · rintro ⟨name,failed⟩
      cases failed
    · rintro ⟨earlier,_,later,_,_,same,_⟩
      cases earlier <;> cases same
  | cons file rest ih =>
    rw [repeats_cons]
    rw [List.forall_mem_cons] at readable
    rw [loadAll_cons]
    cases loaded : part pointer file with
    | error e =>
      constructor
      · rintro ⟨name,failed⟩
        exact absurd (loaded.trans failed) (part_ne_duplicate readable.1 name)
      · rintro ⟨first,read,_⟩
        cases read
    | ok first =>
      have run : (Except.ok first >>= fun first => before.merge first >>= fun whole =>
          loadAll pointer whole rest) = (before.merge first >>= fun whole =>
            loadAll pointer whole rest) := rfl
      rw [run]
      rcases merge_cases distinct (nodup_of_part loaded) with
        ⟨merged,unique,fresh⟩ | ⟨⟨name,failed⟩,known⟩
      · rw [merged]
        refine (ih unique readable.2).trans ⟨fun later => ⟨first,rfl,.inr later⟩,?_⟩
        rintro ⟨_,same,known | later⟩
        · exact absurd (Except.ok.inj same ▸ known) fresh
        · exact Except.ok.inj same ▸ later
      · rw [failed]
        exact ⟨fun _ => ⟨first,rfl,.inl known⟩,fun _ => ⟨name,rfl⟩⟩

theorem lawful_of_part (loaded : part pointer file = .ok api) : ∀ m ∈ api.modules, m.Lawful := by
  obtain ⟨document,_,loaded⟩ := bind_eq_ok.mp loaded
  obtain ⟨d,_,loaded⟩ := bind_eq_ok.mp loaded
  exact Description.lawful_of_load loaded

/-- Every module of a loaded API comes from one of its documents. -/
theorem lawful_of_loadAll (loaded : loadAll pointer ⟨[]⟩ documents = .ok api) :
    ∀ m ∈ api.modules, m.Lawful := by
  obtain ⟨parts,loads,modules,_⟩ := (loadAll_eq_ok (by simp)).mp loaded
  intro m member
  rw [modules,List.nil_append] at member
  obtain ⟨whole,among,inside⟩ := List.mem_flatMap.mp member
  have read : Except.ok whole ∈ documents.map (part pointer) := by
    rw [loads]
    exact List.mem_map_of_mem among
  obtain ⟨_,_,loaded⟩ := List.mem_map.mp read
  exact lawful_of_part loaded m inside

theorem document_ne_duplicate (t : Files.Tree) (path : Files.Path) (name : Text) :
    document t path ≠ .error (duplicate name) := by
  unfold document
  split <;> intro same <;> cases same

/-- Files that load give one API with all their modules, each under a name of its own and each as the
rules for descriptions want it. The only other reason to refuse files that load is a name that comes
again. -/
theorem loadFiles_lawful (t : Files.Tree) (paths : List Files.Path) (pointer : Option Text) :
    (∀ api, loadFiles t paths pointer = .ok api →
      (∃ parts, Load pointer (paths.map (document t)) parts ∧
        api.modules = parts.flatMap Api.modules) ∧
      (api.modules.map Module.name).Nodup ∧ ∀ m ∈ api.modules, m.Lawful) ∧
    ((∃ name, loadFiles t paths pointer = .error (duplicate name)) ↔
      Repeats pointer ⟨[]⟩ (paths.map (document t))) := by
  refine ⟨fun api loaded => ?_,loadAll_eq_duplicate (by simp) ?_⟩
  · obtain ⟨parts,loads,modules,unique⟩ := (loadAll_eq_ok (by simp)).mp loaded
    exact ⟨⟨parts,loads,modules⟩,unique,lawful_of_loadAll loaded⟩
  · intro _ member
    obtain ⟨path,_,rfl⟩ := List.mem_map.mp member
    exact document_ne_duplicate t path

def volumes : Files.Tree := ⟨[
  (["a"], .file (Text.utf8 ("\x7b\"m\":\x7b\"functions\":[\x7b\"name\":\"f\",\"variants\":[\x7b\"arguments\":[" ++
    "\x7b\"name\":\"x\",\"type\":\"a\",\"default\":0\x7d,\x7b\"name\":\"...\",\"type\":\"b\"\x7d]\x7d]\x7d]\x7d\x7d"))),
  (["b"], .file (Text.utf8 "\x7b\"n\":\x7b\x7d,\"o\":\x7b\x7d\x7d")),
  (["c"], .file (Text.utf8 "\x7b\"p\":\x7b\x7d,\"o\":\x7b\x7d\x7d"))]⟩

def firstVolume : Api := ⟨[⟨"m",[],[],[⟨"f",.ofModule "m",[],
  [⟨[⟨"x","a",true,some "0",[]⟩,⟨"...","b",false,none,[]⟩],[],[]⟩]⟩],[]⟩]⟩

def secondVolume : Api := ⟨[⟨"n",[],[],[],[]⟩,⟨"o",[],[],[],[]⟩]⟩

theorem volumes_load :
    (loadFiles volumes ["a","b"] none = .ok ⟨firstVolume.modules ++ secondVolume.modules⟩ ∧
      ∀ m ∈ firstVolume.modules ++ secondVolume.modules, m.Lawful) ∧
    ∃ name, loadFiles volumes ["a","b","c"] none = .error (duplicate name) := by
  have two : loadFiles volumes ["a","b"] none = .ok ⟨firstVolume.modules ++ secondVolume.modules⟩ := by
    decide +kernel
  have parts : Load none (["a","b"].map (document volumes)) [firstVolume,secondVolume] := by
    unfold Load
    decide +kernel
  refine ⟨⟨two,((loadFiles_lawful volumes ["a","b"] none).1 _ two).2.2⟩,?_⟩
  refine (loadFiles_lawful volumes ["a","b","c"] none).2.mpr ?_
  refine ⟨_,document volumes "c",[],_,⟨[⟨"p",[],[],[],[]⟩,⟨"o",[],[],[],[]⟩]⟩,rfl,parts,?_,
    ⟨"o",[],[],[],[]⟩,by simp,by simp [secondVolume]⟩
  decide +kernel

end Api
end LuaStubs
