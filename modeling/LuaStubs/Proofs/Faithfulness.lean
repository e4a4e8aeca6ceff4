import LuaStubs.Api.Load
import LuaStubs.Proofs.Containers

/-! A text and its value say the same: what a reader finds in the text, it finds in the value. The
value holds a repeated key once, and so does what is read of the text, wherever repetition is not
refused. -/
namespace LuaStubs.Json

variable {α σ : Type}

theorem Mode.inside_bind {mode : Mode} {start : Nat} {next : Mode → Except Failure α} {a : α} :
    (mode.inside start >>= next) = .ok a ↔
      1 < mode.room ∧ next ⟨mode.room - 1,mode.ofValue⟩ = .ok a := by
  unfold Mode.inside Json.inside
  split
  · rename_i full
    simp [bind,Except.bind,Except.map,Nat.not_lt.mpr full]
  · rename_i free
    simp [bind,Except.bind,Except.map,Nat.not_le.mp free]

theorem Items.values_eq (items : Items) (room index : Nat) :
    items.values room index = items.readAll (Tree.value room) index := by
  induction items generalizing index with
  | close stop => rfl
  | item start value rest ih =>
    rw [Items.values,Items.readAll,ih]
    cases value.value room <;> rfl
  | broken fault surplus resume => rfl

theorem Members.values_eq (members : Members) (room : Nat) (before : List (Text × Value)) :
    members.values room before = members.readAll (Tree.value room) before := by
  induction members generalizing before with
  | close stop => rfl
  | member comma key colon value rest ih =>
    cases key with
    | error spot => rfl
    | ok key =>
      simp only [Members.values,Members.readAll,ih]
      cases value.value room <;> rfl
  | keyOnly comma key resume spot => cases key <;> rfl
  | broken comma fault => rfl

theorem Tree.value_array {start room : Nat} {items : Items} {v : Value} :
    (Tree.array start items).value room = .ok v ↔ 1 < room ∧
      ∃ vs, items.readAll (Tree.value (room - 1)) 0 = .ok vs ∧ v = .array vs := by
  by_cases full : room ≤ 1
  · simp [Tree.value,inside,full,Nat.not_lt.mpr full]
  · simp only [Tree.value,inside,if_neg full,Items.values_eq,Nat.not_le.mp full,true_and]
    cases items.readAll (Tree.value (room - 1)) 0 <;> simp [Except.map,eq_comm]

theorem Tree.value_object {start room : Nat} {members : Members} {v : Value} :
    (Tree.object start members).value room = .ok v ↔ 1 < room ∧
      ∃ vs, members.readAll (Tree.value (room - 1)) [] = .ok vs ∧ v = .object vs := by
  by_cases full : room ≤ 1
  · simp [Tree.value,inside,full,Nat.not_lt.mpr full]
  · simp only [Tree.value,inside,if_neg full,Members.values_eq,Nat.not_le.mp full,true_and]
    cases members.readAll (Tree.value (room - 1)) [] <;> simp [Except.map,eq_comm]

theorem Tree.eq_null {t : Tree} {room : Nat} (value : t.value room = .ok .null) :
    ∃ stop, t = .null stop := by
  cases t with
  | null stop => exact ⟨stop,rfl⟩
  | bool b stop => cases value
  | number n stop => cases n <;> cases value
  | string s stop => cases s <;> cases value
  | array start items =>
    obtain ⟨_,_,_,same⟩ := Tree.value_array.mp value
    cases same
  | object start members =>
    obtain ⟨_,_,_,same⟩ := Tree.value_object.mp value
    cases same
  | broken fault => cases value

theorem Items.readAll_item {reader : Tree → Except Failure α} {start index : Nat} {value : Tree}
    {rest : Items} {all : List α} :
    (Items.item start value rest).readAll reader index = .ok all ↔ ∃ a later,
      reader value = .ok a ∧ rest.readAll reader (index + 1) = .ok later ∧ all = a :: later := by
  rw [Items.readAll]
  cases reader value with
  | error f => simp
  | ok a => cases rest.readAll reader (index + 1) <;> simp [Except.map,eq_comm]

theorem Members.readAll_member {reader : Tree → Except Failure α} {comma colon : Nat}
    {key : Except Spot Text} {value : Tree} {rest : Members} {before all : List (Text × α)} :
    (Members.member comma key colon value rest).readAll reader before = .ok all ↔ ∃ name a,
      key = .ok name ∧ reader value = .ok a ∧
        rest.readAll reader (putMember before name a) = .ok all := by
  cases key with
  | error spot => simp [Members.readAll]
  | ok name =>
    rw [Members.readAll]
    cases reader value <;> simp

/-- A reader of values finds in the value of a tree what a reader of texts finds in the tree. -/
def Follows (room : Nat) (reader follower : Tree → Except Failure α) (t : Tree) : Prop :=
  ∀ v a, t.value room = .ok v → reader t = .ok a → follower v.toTree = .ok a

theorem Items.readAll_toItems {reader follower : Tree → Except Failure α} {room i j : Nat}
    {items : Items} {vs : List Value} {all : List α}
    (values : items.readAll (Tree.value room) i = .ok vs) (read : items.readAll reader j = .ok all)
    (follows : ∀ t ∈ items.trees, Follows room reader follower t) (k : Nat) :
    (Value.toItems vs).readAll follower k = .ok all := by
  induction items generalizing i j k vs all with
  | close stop =>
    cases values
    cases read
    rfl
  | item start value rest ih =>
    obtain ⟨v,later,first,others,rfl⟩ := Items.readAll_item.mp values
    obtain ⟨a,more,here,behind,rfl⟩ := Items.readAll_item.mp read
    simp only [Items.trees,List.forall_mem_cons] at follows
    exact Items.readAll_item.mpr ⟨a,more,follows.1 v a first here,ih others behind follows.2 _,rfl⟩
  | broken fault surplus resume => cases values

/-- Members that were read from values without repeated keys. -/
theorem Members.readAll_toMembers {follower : Tree → Except Failure α} {vs : List (Text × Value)}
    {before all : List (Text × α)}
    (paired : List.Forall₂ (Paired fun v a => follower v.toTree = .ok a) vs all)
    (distinct : ((before ++ all).map Prod.fst).Nodup) :
    (Value.toMembers vs).readAll follower before = .ok (before ++ all) := by
  induction paired generalizing before with
  | nil => simp [Value.toMembers,Members.readAll]
  | @cons m n vs all first rest ih =>
    obtain ⟨key,v⟩ := m
    obtain ⟨same,a⟩ := n
    obtain ⟨rfl,read⟩ := first
    have fresh : key ∉ before.map Prod.fst := by
      rw [List.map_append] at distinct
      exact fun among => (List.nodup_append.mp distinct).2.2 key among key (by simp) rfl
    have later := ih (show ((before ++ [(key,a)] ++ all).map Prod.fst).Nodup by
      rwa [← List.append_cons])
    refine Members.readAll_member.mpr ⟨key,a,rfl,read,?_⟩
    rw [putMember_of_fresh fresh,later,← List.append_cons]

theorem Members.paired_readAll {reader follower : Tree → Except Failure α} {room : Nat}
    {members : Members} {before vs : List (Text × Value)} {seen all : List (Text × α)}
    (values : members.readAll (Tree.value room) before = .ok vs)
    (read : members.readAll reader seen = .ok all)
    (paired : List.Forall₂ (Paired fun v a => follower v.toTree = .ok a) before seen)
    (follows : ∀ t ∈ members.trees, Follows room reader follower t) :
    List.Forall₂ (Paired fun v a => follower v.toTree = .ok a) vs all := by
  induction members generalizing before seen with
  | close stop =>
    cases values
    cases read
    exact paired
  | member comma key colon value rest ih =>
    obtain ⟨name,v,rfl,first,others⟩ := Members.readAll_member.mp values
    obtain ⟨_,a,same,here,behind⟩ := Members.readAll_member.mp read
    obtain rfl := Except.ok.inj same
    simp only [Members.trees,List.forall_mem_cons] at follows
    exact ih others behind (paired_putMember paired name (follows.1 v a first here)) follows.2
  | keyOnly comma key resume spot => cases key <;> cases values
  | broken comma fault => cases values

/-- What is read of an object is read of its value. -/
theorem Members.readAll_follows {reader follower : Tree → Except Failure α} {room : Nat}
    {members : Members} {vs : List (Text × Value)} {all : List (Text × α)}
    (values : members.readAll (Tree.value room) [] = .ok vs)
    (read : members.readAll reader [] = .ok all)
    (follows : ∀ t ∈ members.trees, Follows room reader follower t) :
    (Value.toMembers vs).readAll follower [] = .ok all := by
  have paired := Members.paired_readAll values read .nil follows
  exact Members.readAll_toMembers paired (Members.nodup_readAll read (by simp))

/-- The value of a value is the value. -/
theorem Tree.value_toTree (t : Tree) (room : Nat) :
    Follows room (Tree.value room) (Tree.value room) t := by
  induction t using Tree.partsInduction generalizing room with
  | step t parts =>
    intro v a value read
    obtain rfl := Except.ok.inj (value.symm.trans read)
    cases t with
    | null stop => cases value; rfl
    | bool b stop => cases value; rfl
    | number n stop => cases n <;> cases value; rfl
    | string s stop => cases s <;> cases value; rfl
    | array start items =>
      obtain ⟨free,vs,items,rfl⟩ := Tree.value_array.mp value
      exact Tree.value_array.mpr ⟨free,vs,Items.readAll_toItems items items (fun t member =>
        parts t member _) 0,rfl⟩
    | object start members =>
      obtain ⟨free,vs,members,rfl⟩ := Tree.value_object.mp value
      exact Tree.value_object.mpr ⟨free,vs,Members.readAll_follows members members fun t member =>
        parts t member _,rfl⟩
    | broken fault => cases value

/-- What the reader finds in a text, it finds in the value of the text. -/
def Reader.Faithful (reader : Reader α) : Prop :=
  ∀ room t, Follows room (reader ⟨room,false⟩) (reader ⟨room,true⟩) t

namespace Reader

variable {reader : Reader α}

theorem list_eq_ok {mode : Mode} {t : Tree} {all : List α} :
    list reader mode t = .ok all ↔ ∃ start items, t = .array start items ∧ 1 < mode.room ∧
      items.readAll (reader ⟨mode.room - 1,mode.ofValue⟩) 0 = .ok all := by
  cases t with
  | array start items =>
    rw [list,Mode.inside_bind]
    simp
  | _ => simp [list]

theorem map_eq_ok {mode : Mode} {t : Tree} {all : List (Text × α)} :
    map reader mode t = .ok all ↔ ∃ start members, t = .object start members ∧ 1 < mode.room ∧
      members.readAll (reader ⟨mode.room - 1,mode.ofValue⟩) [] = .ok all := by
  cases t with
  | object start members =>
    rw [map,Mode.inside_bind]
    simp
  | _ => simp [map]

theorem faithful_text : Faithful text := by
  intro room t v a value read
  cases t with
  | string s stop =>
    cases s with
    | error spot => cases value
    | ok s =>
      cases value
      exact read
  | _ => cases read

theorem faithful_bool : Faithful bool := by
  intro room t v a value read
  cases t with
  | bool b stop =>
    cases value
    exact read
  | _ => cases read

theorem faithful_value : Faithful value :=
  fun room t => t.value_toTree room

theorem faithful_mapped (faithful : reader.Faithful) (f : α → σ) :
    Faithful fun mode t => (reader mode t).map f := by
  intro room t v a value read
  cases found : reader ⟨room,false⟩ t with
  | error e => simp [found,Except.map] at read
  | ok b =>
    simp only [faithful room t v b value found]
    simpa [found] using read

theorem optional_of_ne {mode : Mode} {t : Tree} (some : ∀ stop, t ≠ .null stop) :
    optional reader mode t = (reader mode t).map .some := by
  cases t with
  | null stop => exact absurd rfl (some stop)
  | _ => rfl

theorem faithful_optional (faithful : reader.Faithful) : (optional reader).Faithful := by
  intro room t v a value read
  by_cases some : ∀ stop, t ≠ .null stop
  · have kept : ∀ stop, v.toTree ≠ .null stop := by
      intro stop null
      cases v with
      | null =>
        obtain ⟨stop,rfl⟩ := Tree.eq_null value
        exact some stop rfl
      | _ => cases null
    rw [optional_of_ne some] at read
    rw [optional_of_ne kept]
    exact faithful_mapped faithful .some room t v a value read
  · obtain ⟨stop,rfl⟩ : ∃ stop, t = .null stop := by simpa using some
    cases value
    exact read

theorem faithful_list (faithful : reader.Faithful) : (list reader).Faithful := by
  intro room t v all value read
  obtain ⟨start,items,rfl,free,read⟩ := list_eq_ok.mp read
  obtain ⟨_,vs,values,rfl⟩ := Tree.value_array.mp value
  refine list_eq_ok.mpr ⟨0,_,rfl,free,Items.readAll_toItems values read (fun t _ => ?_) 0⟩
  exact faithful (room - 1) t

theorem faithful_map (faithful : reader.Faithful) : (map reader).Faithful := by
  intro room t v all value read
  obtain ⟨start,members,rfl,free,read⟩ := map_eq_ok.mp read
  obtain ⟨_,vs,values,rfl⟩ := Tree.value_object.mp value
  refine map_eq_ok.mpr ⟨0,_,rfl,free,Members.readAll_follows values read fun t _ => ?_⟩
  exact faithful (room - 1) t

end Reader

mutual
theorem Value.skip_toTree : ∀ v : Value, v.toTree.skip = .ok ()
  | .null | .bool _ | .number _ | .string _ => rfl
  | .array items => Value.skip_toItems items
  | .object members => Value.skip_toMembers members

theorem Value.skip_toItems : ∀ items : List Value, (Value.toItems items).skip = .ok ()
  | [] => rfl
  | v :: rest => by
    rw [Value.toItems,Items.skip,Value.skip_toTree v]
    exact Value.skip_toItems rest

theorem Value.skip_toMembers : ∀ members : List (Text × Value),
    (Value.toMembers members).skip = .ok ()
  | [] => rfl
  | (_,v) :: rest => by
    rw [Value.toMembers,Value.toMember,Members.skip,Value.skip_toTree v]
    exact Value.skip_toMembers rest
end

namespace Record

variable {record : Record σ}

theorem readMembers_member {mode : Mode} {seen : List Text} {s r : σ} {comma colon : Nat}
    {name : Text} {value : Tree} {rest : Members} :
    record.readMembers mode seen s (.member comma (.ok name) colon value rest) = .ok r ↔
      (record.field? name = none ∧ record.closed = false ∧ value.skip = .ok () ∧
        record.readMembers mode seen s rest = .ok r) ∨
      ∃ f update, record.field? name = some f ∧ f.name ∉ seen ∧ f.read mode value = .ok update ∧
        record.readMembers mode (f.name :: seen) (update s) rest = .ok r := by
  rw [readMembers,refuse?]
  cases known : record.field? name with
  | none =>
    cases record.closed with
    | true => simp
    | false => cases value.skip <;> simp
  | some f =>
    by_cases again : f.name ∈ seen
    · simp [again]
    · cases found : f.read mode value <;> simp [again,found]

/-- Members of a value that bring a record from nothing to `s`, and give it the fields `seen`. -/
structure Reached (record : Record σ) (room : Nat) (before : List (Text × Value)) (seen : List Text)
    (s : σ) : Prop where
  reads : ∀ rest r, record.readMembers ⟨room,true⟩ [] record.blank
      (Value.toMembers (before ++ rest)) = .ok r ↔
    record.readMembers ⟨room,true⟩ seen s (Value.toMembers rest) = .ok r
  covered : ∀ key ∈ before.map Prod.fst, ∀ f, record.field? key = some f → f.name ∈ seen

variable {room : Nat} {before : List (Text × Value)} {seen : List Text} {s : σ} {key : Text}

theorem readMembers_toMembers {mode : Mode} {s r : σ} {v : Value} {rest : List (Text × Value)} :
    record.readMembers mode seen s (Value.toMembers ((key,v) :: rest)) = .ok r ↔
      (record.field? key = none ∧ record.closed = false ∧
        record.readMembers mode seen s (Value.toMembers rest) = .ok r) ∨
      ∃ f update, record.field? key = some f ∧ f.name ∉ seen ∧ f.read mode v.toTree = .ok update ∧
        record.readMembers mode (f.name :: seen) (update s) (Value.toMembers rest) = .ok r := by
  rw [Value.toMembers,Value.toMember,readMembers_member,v.skip_toTree]
  simp

/-- A member that is no field is passed over, so its place and its value are of no account. -/
theorem readMembers_putMember {mode : Mode} {r : σ} (unknown : record.field? key = none)
    (accepted : record.closed = false) (v : Value) (rest : List (Text × Value)) :
    record.readMembers mode seen s (Value.toMembers (putMember before key v ++ rest)) = .ok r ↔
      record.readMembers mode seen s (Value.toMembers (before ++ rest)) = .ok r := by
  induction before generalizing seen s with
  | nil => simp [putMember,readMembers_toMembers,unknown,accepted]
  | cons first before ih =>
    obtain ⟨other,old⟩ := first
    rw [putMember]
    split
    · rename_i same
      simp [readMembers_toMembers,same,unknown]
    · simp only [List.cons_append,readMembers_toMembers,ih]

theorem Reached.unknown (reached : Reached record room before seen s)
    (unknown : record.field? key = none) (accepted : record.closed = false) (v : Value) :
    Reached record room (putMember before key v) seen s := by
  refine ⟨fun rest r => ?_,fun other among f field => ?_⟩
  · rw [readMembers_putMember unknown accepted,reached.reads]
  · by_cases known : key ∈ before.map Prod.fst
    · rw [keys_putMember known] at among
      exact reached.covered other among f field
    · rw [putMember_of_fresh known,List.map_append,List.mem_append] at among
      rcases among with old | new
      · exact reached.covered other old f field
      · obtain rfl : other = key := List.mem_singleton.mp new
        simp [unknown] at field

theorem Reached.field (reached : Reached record room before seen s) {f : Entry σ} {update : σ → σ}
    {v : Value} (known : record.field? key = some f) (fresh : f.name ∉ seen)
    (read : f.read ⟨room,true⟩ v.toTree = .ok update) :
    Reached record room (putMember before key v) (f.name :: seen) (update s) := by
  have new : key ∉ before.map Prod.fst := fun among => fresh (reached.covered key among f known)
  rw [putMember_of_fresh new]
  refine ⟨fun rest r => ?_,fun other among g field => ?_⟩
  · rw [List.append_assoc,List.singleton_append,reached.reads,readMembers_toMembers]
    simp [known,fresh,read]
  · rw [List.map_append,List.mem_append] at among
    rcases among with old | last
    · exact List.mem_cons_of_mem _ (reached.covered other old g field)
    · obtain rfl : other = key := List.mem_singleton.mp last
      obtain rfl := Option.some.inj (known.symm.trans field)
      exact List.mem_cons_self

theorem Reached.readMembers {members : Members} {vs : List (Text × Value)} {r : σ}
    (reached : Reached record room before seen s)
    (values : members.readAll (Tree.value room) before = .ok vs)
    (read : record.readMembers ⟨room,false⟩ seen s members = .ok r)
    (faithful : ∀ f ∈ record.fields, f.read.Faithful) :
    record.readMembers ⟨room,true⟩ [] record.blank (Value.toMembers vs) = .ok r := by
  induction members generalizing before seen s with
  | close stop =>
    obtain rfl := Except.ok.inj values
    have whole := reached.reads [] r
    rw [List.append_nil] at whole
    refine whole.mpr ?_
    rw [Record.readMembers] at read
    rw [Value.toMembers,Record.readMembers]
    split at read
    · cases read
    · exact read
  | member comma key colon value rest ih =>
    obtain ⟨name,v,rfl,first,others⟩ := Members.readAll_member.mp values
    rcases readMembers_member.mp read with ⟨unknown,accepted,_,later⟩ | ⟨f,update,known,fresh,found,later⟩
    · exact ih (reached.unknown unknown accepted v) others later
    · have field := faithful f (List.mem_of_find?_eq_some known) room value v update first found
      exact ih (reached.field known fresh field) others later
  | keyOnly comma key resume spot => cases key <;> cases values
  | broken comma fault => cases values

theorem readItems_toItems {fields : List (Entry σ)} {index i : Nat} {items left : Items}
    {vs : List Value} {r : σ} (values : items.readAll (Tree.value room) i = .ok vs)
    (read : record.readItems ⟨room,false⟩ fields index s items = .ok (r,left))
    (done : ∃ stop, left = .close stop) (faithful : ∀ f ∈ fields, f.read.Faithful) :
    record.readItems ⟨room,true⟩ fields index s (Value.toItems vs) = .ok (r,.close 0) := by
  induction fields generalizing index i items vs s with
  | nil =>
    obtain ⟨rfl,rfl⟩ := Prod.mk.inj (Except.ok.inj read)
    obtain ⟨stop,rfl⟩ := done
    cases values
    rfl
  | cons f fields ih =>
    rw [List.forall_mem_cons] at faithful
    cases items with
    | close stop =>
      cases values
      rw [readItems] at read
      rw [Value.toItems,readItems]
      split at read
      · cases read
      · rename_i optional
        have closed : (Items.close stop).readAll (Tree.value room) 0 = .ok [] := rfl
        rw [if_neg optional]
        exact ih closed read faithful.2
    | item start value rest =>
      obtain ⟨v,later,first,others,rfl⟩ := Items.readAll_item.mp values
      rw [readItems] at read
      split at read
      · rename_i update found
        rw [Value.toItems,readItems,faithful.1 room value v update first found]
        exact ih others read faithful.2
      · cases read
    | broken fault surplus resume => cases values

theorem reader_array {mode : Mode} {start : Nat} {items : Items} {r : σ} :
    record.reader mode (.array start items) = .ok r ↔ 1 < mode.room ∧
      ∃ stop, record.readItems ⟨mode.room - 1,mode.ofValue⟩ record.fields 0 record.blank items =
        .ok (r,.close stop) := by
  rw [reader,Mode.inside_bind]
  refine and_congr_right fun _ => ?_
  cases record.readItems ⟨mode.room - 1,mode.ofValue⟩ record.fields 0 record.blank items with
  | error f => simp [bind,Except.bind]
  | ok result =>
    obtain ⟨s,left⟩ := result
    cases left with
    | close stop => simp [bind,Except.bind,endItems,pure,Except.pure]
    | item start value rest => cases given : mode.ofValue <;> simp [bind,Except.bind,endItems,given]
    | broken fault surplus resume => simp [bind,Except.bind,endItems]

theorem faithful_reader (faithful : ∀ f ∈ record.fields, f.read.Faithful) :
    record.reader.Faithful := by
  intro room t v r value read
  cases t with
  | object start members =>
    obtain ⟨free,vs,values,rfl⟩ := Tree.value_object.mp value
    obtain ⟨_,read⟩ := Mode.inside_bind.mp read
    have start : Reached record (room - 1) [] [] record.blank := ⟨by simp,by simp⟩
    exact Mode.inside_bind.mpr ⟨free,start.readMembers values read faithful⟩
  | array start items =>
    obtain ⟨free,vs,values,rfl⟩ := Tree.value_array.mp value
    obtain ⟨_,stop,read⟩ := reader_array.mp read
    exact reader_array.mpr ⟨free,0,readItems_toItems values read ⟨stop,rfl⟩ faithful⟩
  | _ => cases read

end Record
end LuaStubs.Json

namespace LuaStubs.Description

open Json (Tree Items Members Failure Reader Record Follows)

def shapeIn (t : Tree) : Except Failure TypeShape :=
  (shape? t).elim (.error ⟨[],.mismatch (.noVariant "RawType") none⟩) .ok

theorem shapeIn_eq_ok {t : Tree} {shape : TypeShape} : shapeIn t = .ok shape ↔ shape? t = some shape := by
  unfold shapeIn
  cases shape? t <;> simp

theorem itemShapes_eq_some {items : Items} {shapes : List TypeShape} (index : Nat) :
    itemShapes? items = some shapes ↔ items.readAll shapeIn index = .ok shapes := by
  induction items generalizing index shapes with
  | close stop => simp [itemShapes?,Items.readAll]
  | item start value rest ih =>
    simp only [Items.readAll_item,shapeIn_eq_ok,← ih (index + 1),itemShapes?]
    cases shape? value <;> cases itemShapes? rest <;> simp [eq_comm]
  | broken fault surplus resume => simp [itemShapes?,Items.readAll]

theorem memberShapes_eq_some {members : Members} {before fields : List (Text × TypeShape)} :
    memberShapes? before members = some fields ↔ members.readAll shapeIn before = .ok fields := by
  induction members generalizing before with
  | close stop => simp [memberShapes?,Members.readAll]
  | member comma key colon value rest ih =>
    cases key with
    | error spot => simp [memberShapes?,Members.readAll]
    | ok name =>
      simp only [Members.readAll_member,shapeIn_eq_ok,← ih,memberShapes?]
      cases shape? value <;> simp
  | keyOnly comma key resume spot => cases key <;> simp [memberShapes?,Members.readAll]
  | broken comma fault => simp [memberShapes?,Members.readAll]

theorem shapeIn_follows (t : Tree) (room : Nat) : Follows room shapeIn shapeIn t := by
  induction t using Tree.partsInduction generalizing room with
  | step t parts =>
    intro v shape value read
    rw [shapeIn_eq_ok] at read ⊢
    cases t with
    | string s stop =>
      cases s with
      | error spot => cases value
      | ok s =>
        cases value
        exact read
    | array start items =>
      obtain ⟨_,vs,values,rfl⟩ := Tree.value_array.mp value
      obtain ⟨shapes,found,rfl⟩ := Option.map_eq_some_iff.mp read
      have follows := Items.readAll_toItems values ((itemShapes_eq_some 0).mp found) (fun t member =>
        parts t member _) 0
      exact Option.map_eq_some_iff.mpr ⟨shapes,(itemShapes_eq_some 0).mpr follows,rfl⟩
    | object start members =>
      obtain ⟨_,vs,values,rfl⟩ := Tree.value_object.mp value
      obtain ⟨fields,found,rfl⟩ := Option.map_eq_some_iff.mp read
      have follows := Members.readAll_follows values (memberShapes_eq_some.mp found) fun t member =>
        parts t member _
      exact Option.map_eq_some_iff.mpr ⟨fields,memberShapes_eq_some.mpr follows,rfl⟩
    | _ => cases read

theorem faithful_type : typeReader.Faithful := by
  intro room t v shape value read
  unfold typeReader at read ⊢
  simp only [value,t.value_toTree room v v value value] at read ⊢
  cases found : shape? t with
  | none => simp [found] at read
  | some other =>
    have follows := shapeIn_follows t room v other value (shapeIn_eq_ok.mpr found)
    simpa [shapeIn_eq_ok.mp follows,found] using read

open Json.Reader (faithful_text faithful_bool faithful_value faithful_optional faithful_list faithful_map
  faithful_mapped)

theorem faithful_argument : argumentRecord.reader.Faithful := by
  refine Record.faithful_reader ?_
  unfold argumentRecord
  simp only [List.forall_mem_cons]
  exact ⟨faithful_mapped faithful_text _,faithful_mapped faithful_type _,
    faithful_mapped faithful_text _,faithful_mapped (faithful_optional faithful_value) _,
    faithful_mapped (faithful_optional faithful_bool) _,by simp⟩

theorem faithful_return : returnRecord.reader.Faithful := by
  refine Record.faithful_reader ?_
  unfold returnRecord
  simp only [List.forall_mem_cons]
  exact ⟨faithful_mapped (faithful_optional faithful_text) _,faithful_mapped faithful_type _,
    faithful_mapped faithful_text _,faithful_mapped faithful_bool _,by simp⟩

theorem faithful_variant : variantRecord.reader.Faithful := by
  refine Record.faithful_reader ?_
  unfold variantRecord
  simp only [List.forall_mem_cons]
  exact ⟨faithful_mapped faithful_text _,faithful_mapped (faithful_list faithful_argument) _,
    faithful_mapped (faithful_list faithful_return) _,by simp⟩

theorem faithful_function : functionRecord.reader.Faithful := by
  refine Record.faithful_reader ?_
  unfold functionRecord
  simp only [List.forall_mem_cons]
  exact ⟨faithful_mapped faithful_text _,faithful_mapped faithful_text _,
    faithful_mapped (faithful_list faithful_variant) _,by simp⟩

theorem faithful_class : classRecord.reader.Faithful := by
  refine Record.faithful_reader ?_
  unfold classRecord
  simp only [List.forall_mem_cons]
  exact ⟨faithful_mapped faithful_text _,faithful_mapped faithful_text _,
    faithful_mapped (faithful_list faithful_text) _,
    faithful_mapped (faithful_list faithful_function) _,by simp⟩

theorem faithful_constant : constantRecord.reader.Faithful := by
  refine Record.faithful_reader ?_
  unfold constantRecord
  simp only [List.forall_mem_cons]
  exact ⟨faithful_mapped faithful_text _,faithful_mapped faithful_text _,by simp⟩

theorem faithful_enum : enumRecord.reader.Faithful := by
  refine Record.faithful_reader ?_
  unfold enumRecord
  simp only [List.forall_mem_cons]
  exact ⟨faithful_mapped faithful_text _,faithful_mapped faithful_text _,
    faithful_mapped (faithful_list faithful_constant) _,by simp⟩

theorem faithful_module : moduleRecord.reader.Faithful := by
  refine Record.faithful_reader ?_
  unfold moduleRecord
  simp only [List.forall_mem_cons]
  exact ⟨faithful_mapped faithful_text _,faithful_mapped (faithful_list faithful_class) _,
    faithful_mapped (faithful_list faithful_function) _,
    faithful_mapped (faithful_list faithful_enum) _,by simp⟩

theorem faithful_reader : reader.Faithful := faithful_map faithful_module

end LuaStubs.Description

namespace LuaStubs.Api

theorem mapError_eq_ok {ε δ α : Type} {x : Except ε α} {f : ε → δ} {a : α} :
    x.mapError f = .ok a ↔ x = .ok a := by
  cases x with
  | error e => constructor <;> intro same <;> cases same
  | ok b =>
    constructor
    · intro same
      exact congrArg Except.ok (Except.ok.inj same)
    · intro same
      exact congrArg Except.ok (Except.ok.inj same)

/-- A document that is a value has the same description as that value. -/
theorem describe_whole {source origin : Text} {d : Description} {v : Json.Value}
    (direct : describe source origin none = .ok d)
    (value : Json.Reader.value.ofText origin source = .ok v) :
    describe source origin (some []) = .ok d := by
  have read := mapError_eq_ok.mp direct
  have whole := mapError_eq_ok.mp value
  have follows := Description.faithful_reader Json.maxRoom _ v d whole read
  rw [describe,value]
  exact mapError_eq_ok.mpr follows

/-- Selecting the whole of a document gives the API that its text gives. -/
theorem load_whole_document {source origin : Text} {api whole : Api}
    (direct : load source origin none = .ok api)
    (selected : load source origin (some "") = .ok whole) : whole = api := by
  cases described : describe source origin none with
  | error e =>
    rw [load,described] at direct
    cases direct
  | ok d =>
    cases value : Json.Reader.value.ofText origin source with
    | error e =>
      rw [load,describe,value] at selected
      cases selected
    | ok v =>
      rw [load,described] at direct
      have same := describe_whole described value
      change (describe source origin (some []) >>= Description.load) = _ at selected
      rw [same] at selected
      exact Except.ok.inj (selected.symm.trans direct)

def repetitive : Text :=
  "\x7b\"m\":\x7b\"functions\":[]\x7d,\"n\":\x7b\"x\":1,\"x\":[null]\x7d,\"m\":[\"d\",[\x7b\"name\":\"C\"," ++
  "\"methods\":[\x7b\"name\":\"f\",\"variants\":[[\"v\",[\x7b\"name\":\"x\",\"type\":[\"a\",\x7b\"k\":\"b\"," ++
  "\"l\":[],\"k\":\"c\"\x7d],\"default\":\x7b\"p\":1,\"q\":-2,\"p\":[true]\x7d\x7d]]]\x7d]\x7d]]\x7d rest"

def repeated : Api :=
  ⟨[⟨"m","d",[⟨"C",[],[],[⟨"f",.ofClass "C",[],[⟨[⟨"x","a or \x7bk: c, l: \x7d",true,
    some "\x7b\"p\":[true],\"q\":-2\x7d",[]⟩],[],"v"⟩]⟩]⟩],[],[]⟩,⟨"n",[],[],[],[]⟩]⟩

theorem repetitive_loads : load repetitive "t" none = .ok repeated ∧
    ∃ whole, load repetitive "t" (some "") = .ok whole ∧ whole = repeated := by
  have direct : load repetitive "t" none = .ok repeated := by decide +kernel
  have selected : load repetitive "t" (some "") = .ok repeated := by decide +kernel
  exact ⟨direct,_,selected,load_whole_document direct selected⟩

end LuaStubs.Api
