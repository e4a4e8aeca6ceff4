import LuaStubs.Text.Basic

/-! Faults and the places where they stand. A check that looks at one part after another tells the
faults in the order of their places, so the first fault that it tells is the one at the first place. -/
namespace LuaStubs

/-- A place, by the numbers of the parts that lead to it from outside in. -/
abbrev Address := List Nat

namespace Address

/-- The order of a dictionary: the outermost part in which two places differ decides. -/
def Before (a b : Address) : Prop := List.Lex (· < ·) a b

theorem before_under {a b : Address} (n : Nat) (before : Before a b) : Before (n :: a) (n :: b) :=
  .cons before

theorem before_of_lt {m n : Nat} (less : m < n) (a b : Address) : Before (m :: a) (n :: b) := .rel less

theorem Before.asymm {a b : Address} (before : Before a b) : ¬Before b a := by
  induction before with
  | nil => intro back; cases back
  | cons _ ih =>
    intro back
    cases back with
    | cons inner => exact ih inner
    | rel less => exact Nat.lt_irrefl _ less
  | rel less =>
    intro back
    cases back with
    | cons _ => exact Nat.lt_irrefl _ less
    | rel more => exact Nat.lt_asymm less more

end Address

variable {α β : Type}

def IsFirst (stands : Address → α → Prop) (fault : α) : Prop :=
  ∃ place, stands place fault ∧ ∀ other more, stands other more → ¬Address.Before other place

/-- The faults, each as often as there are places for it, from the first place to the last. -/
def Told (stands : Address → α → Prop) (faults : List α) : Prop :=
  ∃ placed : List (Address × α), placed.map Prod.snd = faults ∧
    placed.Pairwise (fun a b => Address.Before a.1 b.1) ∧
    ∀ place fault, (place,fault) ∈ placed ↔ stands place fault

section

variable {stands before after : Address → α → Prop} {faults more : List α}

theorem Told.congr (told : Told before faults)
    (same : ∀ place fault, before place fault ↔ stands place fault) : Told stands faults := by
  obtain ⟨placed,all,ordered,exact⟩ := told
  exact ⟨placed,all,ordered,fun place fault => (exact place fault).trans (same place fault)⟩

/-- What is told first is the fault at the first place. -/
theorem Told.head (told : Told stands faults) (fault : α) :
    faults.head? = some fault ↔ IsFirst stands fault := by
  obtain ⟨placed,rfl,ordered,exact⟩ := told
  cases placed with
  | nil =>
    constructor
    · intro none
      cases none
    · rintro ⟨place,here,_⟩
      cases (exact place fault).mpr here
  | cons first rest =>
    obtain ⟨place,found⟩ := first
    have least := (List.pairwise_cons.mp ordered).1
    have here : stands place found := (exact place found).mp List.mem_cons_self
    rw [List.map_cons,List.head?_cons,Option.some_inj]
    constructor
    · rintro rfl
      refine ⟨place,here,fun other further stood back => ?_⟩
      rcases List.mem_cons.mp ((exact other further).mpr stood) with same | later
      · obtain ⟨rfl,_⟩ := Prod.mk.inj same
        exact back.asymm back
      · exact (least _ later).asymm back
    · rintro ⟨other,stood,first⟩
      rcases List.mem_cons.mp ((exact other fault).mpr stood) with same | later
      · exact (Prod.mk.inj same).2.symm
      · exact absurd (least _ later) (first place found here)

theorem Told.eq_nil (told : Told stands faults) :
    faults = [] ↔ ∀ place fault, ¬stands place fault := by
  obtain ⟨placed,rfl,_,exact⟩ := told
  rw [List.map_eq_nil_iff]
  constructor
  · rintro rfl place fault stood
    cases (exact place fault).mpr stood
  · intro none
    apply List.eq_nil_iff_forall_not_mem.mpr
    rintro ⟨place,fault⟩ member
    exact none place fault ((exact place fault).mp member)

theorem told_none (none : ∀ place fault, ¬stands place fault) : Told stands [] :=
  ⟨[],rfl,.nil,by simpa using none⟩

/-- A check of one rule, which names one fault. -/
theorem told_if {broken : Prop} [Decidable broken] {fault : α} (sound : broken → stands [] fault)
    (complete : ∀ place other, stands place other → broken ∧ place = [] ∧ other = fault) :
    Told stands (if broken then [fault] else []) := by
  by_cases holds : broken
  · rw [if_pos holds]
    refine ⟨[([],fault)],rfl,List.pairwise_singleton _ _,fun place other => ?_⟩
    rw [List.mem_singleton]
    constructor
    · intro same
      obtain ⟨rfl,rfl⟩ := Prod.mk.inj same
      exact sound holds
    · intro stood
      obtain ⟨_,rfl,rfl⟩ := complete place other stood
      rfl
  · rw [if_neg holds]
    apply told_none
    intro place other stood
    exact holds (complete place other stood).1

/-- The same with what the rule demands. -/
theorem told_unless {holds : Prop} [Decidable holds] {fault : α} (sound : ¬holds → stands [] fault)
    (complete : ∀ place other, stands place other → ¬holds ∧ place = [] ∧ other = fault) :
    Told stands (if holds then [] else [fault]) := by
  rw [← ite_not]
  exact told_if sound complete

theorem Told.append (first : Told before faults) (second : Told after more)
    (apart : ∀ place fault other further, before place fault → after other further →
      Address.Before place other)
    (both : ∀ place fault, stands place fault ↔ before place fault ∨ after place fault) :
    Told stands (faults ++ more) := by
  obtain ⟨placed,rfl,ordered,exact⟩ := first
  obtain ⟨others,rfl,sorted,certain⟩ := second
  refine ⟨placed ++ others,List.map_append,List.pairwise_append.mpr ⟨ordered,sorted,?_⟩,?_⟩
  · intro a inside b behind
    exact apart a.1 a.2 b.1 b.2 ((exact _ _).mp inside) ((certain _ _).mp behind)
  · intro place fault
    rw [List.mem_append,exact,certain,both]

/-- The faults of a part are those of the whole at places that go through it. -/
theorem Told.under (n : Nat) (told : Told (fun rest => stands (n :: rest)) faults) :
    Told (fun place fault => ∃ rest, place = n :: rest ∧ stands place fault) faults := by
  obtain ⟨placed,rfl,ordered,exact⟩ := told
  refine ⟨placed.map fun entry => (n :: entry.1,entry.2),by simp,?_,?_⟩
  · rw [List.pairwise_map]
    exact ordered.imp (Address.before_under n)
  · intro place fault
    rw [List.mem_map]
    constructor
    · rintro ⟨⟨rest,found⟩,member,same⟩
      obtain ⟨rfl,rfl⟩ := Prod.mk.inj same
      exact ⟨rest,rfl,(exact rest found).mp member⟩
    · rintro ⟨rest,rfl,stood⟩
      exact ⟨(rest,fault),(exact rest fault).mpr stood,rfl⟩

end

def EachTold (stands : Address → α → Prop) : (n : Nat) → (parts : List (List α)) → Prop
  | _, [] => True
  | n, part :: rest => Told (fun place => stands (n :: place)) part ∧ EachTold stands (n + 1) rest

section

variable {stands : Address → α → Prop}

theorem told_from {n : Nat} {parts : List (List α)} (each : EachTold stands n parts) :
    Told (fun place fault => (∃ i rest, place = i :: rest ∧ n ≤ i ∧ i < n + parts.length) ∧
      stands place fault) parts.flatten := by
  induction parts generalizing n with
  | nil =>
    apply told_none
    rintro place fault ⟨⟨i,_,_,least,most⟩,_⟩
    rw [List.length_nil] at most
    omega
  | cons first rest ih =>
    -- the first part has the least number, so its faults come before those of the others
    apply each.1.under.append (ih each.2)
    · rintro _ fault _ further ⟨a,rfl,_⟩ ⟨⟨i,b,rfl,least,_⟩,_⟩
      exact Address.before_of_lt least a b
    · intro place fault
      rw [List.length_cons]
      constructor
      · rintro ⟨⟨i,deeper,rfl,least,most⟩,stood⟩
        by_cases here : i = n
        · subst here
          exact Or.inl ⟨deeper,rfl,stood⟩
        · exact Or.inr ⟨⟨i,deeper,rfl,by omega,by omega⟩,stood⟩
      · rintro (⟨deeper,rfl,stood⟩ | ⟨⟨i,deeper,rfl,least,most⟩,stood⟩)
        · exact ⟨⟨n,deeper,rfl,by omega,by omega⟩,stood⟩
        · exact ⟨⟨i,deeper,rfl,by omega,by omega⟩,stood⟩

/-- What stands in the parts is told part by part. -/
theorem told_parts {parts : List (List α)} (each : EachTold stands 0 parts)
    (inside : ∀ place fault, stands place fault → ∃ i rest, place = i :: rest ∧ i < parts.length) :
    Told stands parts.flatten := by
  apply (told_from each).congr
  intro place fault
  constructor
  · exact And.right
  · intro stood
    obtain ⟨i,rest,same,below⟩ := inside place fault stood
    exact ⟨⟨i,rest,same,by omega,by omega⟩,stood⟩

theorem eachTold_of {n : Nat} {parts : List (List α)}
    (each : ∀ i part, parts[i]? = some part → Told (fun rest => stands ((n + i) :: rest)) part) :
    EachTold stands n parts := by
  induction parts generalizing n with
  | nil => trivial
  | cons first rest ih =>
    refine ⟨each 0 first rfl,ih fun i part listed => ?_⟩
    rw [Nat.add_assoc,Nat.add_comm 1 i]
    exact each (i + 1) part listed

/-- The elements of a list are parts that are numbered from 0. -/
theorem told_mapIdx {elements : List β} {faults : Nat → β → List α}
    {broken : Nat → β → Address → α → Prop}
    (each : ∀ i x, elements[i]? = some x → Told (broken i x) (faults i x))
    (sound : ∀ {i x rest fault}, elements[i]? = some x → broken i x rest fault →
      stands (i :: rest) fault)
    (complete : ∀ place fault, stands place fault →
      ∃ i x rest, place = i :: rest ∧ elements[i]? = some x ∧ broken i x rest fault) :
    Told stands (elements.mapIdx faults).flatten := by
  apply told_parts
  · apply eachTold_of
    intro i part listed
    rw [List.getElem?_mapIdx] at listed
    obtain ⟨x,member,rfl⟩ := Option.map_eq_some_iff.mp listed
    rw [Nat.zero_add]
    apply (each i x member).congr
    intro rest fault
    constructor
    · exact sound member
    · intro stood
      obtain ⟨j,y,others,equal,found,inside⟩ := complete _ fault stood
      obtain ⟨rfl,rfl⟩ := List.cons.inj equal
      obtain rfl := Option.some.inj (member.symm.trans found)
      exact inside
  · intro place fault stood
    obtain ⟨i,x,rest,rfl,member,_⟩ := complete place fault stood
    rw [List.length_mapIdx]
    exact ⟨i,rest,rfl,(List.getElem?_eq_some_iff.mp member).1⟩

theorem told_flatMap {elements : List β} {faults : β → List α} {broken : β → Address → α → Prop}
    (each : ∀ x, Told (broken x) (faults x))
    (sound : ∀ {i x rest fault}, elements[i]? = some x → broken x rest fault →
      stands (i :: rest) fault)
    (complete : ∀ place fault, stands place fault →
      ∃ i x rest, place = i :: rest ∧ elements[i]? = some x ∧ broken x rest fault) :
    Told stands (elements.flatMap faults) := by
  have indexed : elements.flatMap faults = (elements.mapIdx fun _ x => faults x).flatten := by
    rw [List.flatMap_def]
    apply congrArg List.flatten
    apply List.ext_getElem
    · rw [List.length_map,List.length_mapIdx]
    · intro i _ _
      rw [List.getElem_map,List.getElem_mapIdx]
  rw [indexed]
  exact told_mapIdx (fun _ x _ => each x) sound complete

end

end LuaStubs
