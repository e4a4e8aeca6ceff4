import LuaStubs.Json.Shape
import Mathlib.Data.List.Forall2

/-! The containers of a JSON text, read part by part. A key that comes again keeps its place among the
members, so the keys that are read are different. -/
namespace LuaStubs.Json

variable {α β : Type}

@[induction_eliminator]
theorem Items.induction {motive : Items → Prop} (close : ∀ stop, motive (.close stop))
    (item : ∀ start value rest, motive rest → motive (.item start value rest))
    (broken : ∀ fault surplus resume, motive (.broken fault surplus resume)) :
    ∀ items, motive items
  | .close stop => close stop
  | .item start value rest => item start value rest (induction close item broken rest)
  | .broken fault surplus resume => broken fault surplus resume

@[induction_eliminator]
theorem Members.induction {motive : Members → Prop} (close : ∀ stop, motive (.close stop))
    (member : ∀ comma key colon value rest, motive rest →
      motive (.member comma key colon value rest))
    (keyOnly : ∀ comma key resume spot, motive (.keyOnly comma key resume spot))
    (broken : ∀ comma fault, motive (.broken comma fault)) : ∀ members, motive members
  | .close stop => close stop
  | .member comma key colon value rest =>
    member comma key colon value rest (induction close member keyOnly broken rest)
  | .keyOnly comma key resume spot => keyOnly comma key resume spot
  | .broken comma fault => broken comma fault

def Items.trees : Items → List Tree
  | .item _ value rest => value :: rest.trees
  | _ => []

def Members.trees : Members → List Tree
  | .member _ _ _ value rest => value :: rest.trees
  | _ => []

def Tree.parts : Tree → List Tree
  | .array _ items => items.trees
  | .object _ members => members.trees
  | _ => []

mutual
/-- What holds of a tree once it holds of its parts holds of every tree. -/
theorem Tree.partsInduction {motive : Tree → Prop}
    (step : ∀ t : Tree, (∀ part ∈ t.parts, motive part) → motive t) : ∀ t : Tree, motive t
  | .array _ items => step _ (Items.partsInduction step items)
  | .object _ members => step _ (Members.partsInduction step members)
  | .null _ => step _ (by simp [Tree.parts])
  | .bool _ _ => step _ (by simp [Tree.parts])
  | .number _ _ => step _ (by simp [Tree.parts])
  | .string _ _ => step _ (by simp [Tree.parts])
  | .broken _ => step _ (by simp [Tree.parts])

theorem Items.partsInduction {motive : Tree → Prop}
    (step : ∀ t : Tree, (∀ part ∈ t.parts, motive part) → motive t) :
    ∀ items : Items, ∀ part ∈ items.trees, motive part
  | .close _ => by simp [Items.trees]
  | .item _ value rest => by
    simp only [Items.trees,List.forall_mem_cons]
    exact ⟨Tree.partsInduction step value,Items.partsInduction step rest⟩
  | .broken _ _ _ => by simp [Items.trees]

theorem Members.partsInduction {motive : Tree → Prop}
    (step : ∀ t : Tree, (∀ part ∈ t.parts, motive part) → motive t) :
    ∀ members : Members, ∀ part ∈ members.trees, motive part
  | .close _ => by simp [Members.trees]
  | .member _ _ _ value rest => by
    simp only [Members.trees,List.forall_mem_cons]
    exact ⟨Tree.partsInduction step value,Members.partsInduction step rest⟩
  | .keyOnly _ _ _ _ => by simp [Members.trees]
  | .broken _ _ => by simp [Members.trees]
end

theorem putMember_of_fresh {members : List (Text × α)} {key : Text}
    (fresh : key ∉ members.map Prod.fst) (value : α) :
    putMember members key value = members ++ [(key,value)] := by
  induction members with
  | nil => rfl
  | cons first rest ih =>
    obtain ⟨other,old⟩ := first
    simp only [List.map_cons,List.mem_cons,not_or] at fresh
    rw [putMember,if_neg (Ne.symm fresh.1),ih fresh.2,List.cons_append]

theorem keys_putMember {members : List (Text × α)} {key : Text}
    (known : key ∈ members.map Prod.fst) (value : α) :
    (putMember members key value).map Prod.fst = members.map Prod.fst := by
  induction members with
  | nil => simp at known
  | cons first rest ih =>
    obtain ⟨other,old⟩ := first
    rw [putMember]
    split
    · rfl
    · rename_i different
      have later : key ∈ rest.map Prod.fst := by simpa [Ne.symm different] using known
      rw [List.map_cons,List.map_cons,ih later]

theorem nodup_putMember {members : List (Text × α)} (distinct : (members.map Prod.fst).Nodup)
    (key : Text) (value : α) : ((putMember members key value).map Prod.fst).Nodup := by
  by_cases known : key ∈ members.map Prod.fst
  · rwa [keys_putMember known]
  · rw [putMember_of_fresh known,List.map_append]
    refine List.nodup_append.mpr ⟨distinct,by simp,?_⟩
    rintro other among _ last rfl
    obtain rfl : other = key := List.mem_singleton.mp last
    exact known among

/-- Members with the same keys, and with values that belong together. -/
def Paired (related : β → α → Prop) (m : Text × β) (n : Text × α) : Prop :=
  m.1 = n.1 ∧ related m.2 n.2

theorem paired_putMember {related : β → α → Prop} {a : List (Text × β)} {b : List (Text × α)}
    (paired : List.Forall₂ (Paired related) a b) (key : Text) {v : β} {w : α} (values : related v w) :
    List.Forall₂ (Paired related) (putMember a key v) (putMember b key w) := by
  induction paired with
  | nil => exact .cons ⟨rfl,values⟩ .nil
  | @cons m n a b first rest ih =>
    obtain ⟨other,old⟩ := m
    obtain ⟨same,new⟩ := n
    obtain ⟨rfl,related⟩ := first
    rw [putMember,putMember]
    split
    · exact .cons ⟨rfl,values⟩ rest
    · exact .cons ⟨rfl,related⟩ ih

theorem Members.nodup_readAll {reader : Tree → Except Failure α} {members : Members}
    {before entries : List (Text × α)} (read : members.readAll reader before = .ok entries)
    (distinct : (before.map Prod.fst).Nodup) : (entries.map Prod.fst).Nodup := by
  induction members generalizing before with
  | close stop => exact Except.ok.inj read ▸ distinct
  | member comma key colon value rest ih =>
    cases key with
    | error spot => cases read
    | ok key =>
      rw [Members.readAll] at read
      split at read
      · exact ih read (nodup_putMember distinct _ _)
      · cases read
  | keyOnly comma key resume spot => cases key <;> cases read
  | broken comma fault => cases read

end LuaStubs.Json
