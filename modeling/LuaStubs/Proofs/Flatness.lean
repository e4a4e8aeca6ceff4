import LuaStubs.Proofs.Rendering
import LuaStubs.Stub

/-! The shape of resolved types: their unions are flat and hold no text twice, and only a parameter for
all further arguments has a type of its own for them, at the root. -/
namespace LuaStubs

namespace LuaType

def children : LuaType → List LuaType
  | .primitive _ | .named _ => []
  | .union arms => arms
  | .table fields _ => fields.map Prod.snd
  | .varargs inner => [inner]

inductive Occurs (node : LuaType) : LuaType → Prop where
  | here : Occurs node node
  | under {type child : LuaType} : child ∈ type.children → Occurs node child → Occurs node type

structure FlatArms (arms : List LuaType) : Prop where
  several : 2 ≤ arms.length
  flat : ∀ arm ∈ arms, ∀ inner, arm ≠ .union inner
  distinct : (arms.map render).Nodup

/-- What every node of a resolved type is. -/
structure FlatNode (node : LuaType) : Prop where
  union : ∀ arms, node = .union arms → FlatArms arms
  varargs : ∀ inner, node ≠ .varargs inner

def Flat (type : LuaType) : Prop := ∀ node, Occurs node type → FlatNode node

theorem flat_iff {type : LuaType} :
    type.Flat ↔ FlatNode type ∧ ∀ child ∈ type.children, child.Flat := by
  constructor
  · intro flat
    exact ⟨flat type .here,fun child member node occurs => flat node (.under member occurs)⟩
  · rintro ⟨root,children⟩ node occurs
    cases occurs with
    | here => exact root
    | under member occurs => exact children _ member node occurs

theorem flat_primitive (name : Text) : (primitive name).Flat :=
  flat_iff.mpr ⟨⟨by simp,by simp⟩,by simp [children]⟩

theorem flat_named (name : Text) : (named name).Flat :=
  flat_iff.mpr ⟨⟨by simp,by simp⟩,by simp [children]⟩

theorem flat_table {fields : List (Text × LuaType)} (isOpen : Bool)
    (each : ∀ field ∈ fields, field.2.Flat) : (table fields isOpen).Flat := by
  refine flat_iff.mpr ⟨⟨by simp,by simp⟩,fun child member => ?_⟩
  obtain ⟨field,among,rfl⟩ := List.mem_map.mp member
  exact each field among

/-- The arms that a flat type brings into a union are flat and none of them is a union. -/
theorem Flat.arms {type : LuaType} (flat : type.Flat) : type.arms ≠ [] ∧
    ∀ arm ∈ type.arms, arm.Flat ∧ ∀ inner, arm ≠ .union inner := by
  obtain ⟨root,children⟩ := flat_iff.mp flat
  cases type with
  | union arms =>
    have shape := root.union arms rfl
    refine ⟨?_,fun arm member => ⟨children arm member,shape.flat arm member⟩⟩
    rintro rfl
    simpa using shape.several
  | _ => exact ⟨by simp [LuaType.arms],by simpa [LuaType.arms] using flat⟩

theorem firstOfEach_distinct (seen : List Text) (types : List LuaType) :
    ((firstOfEach seen types).map render).Nodup ∧
      ∀ text ∈ (firstOfEach seen types).map render, text ∉ seen := by
  induction types generalizing seen with
  | nil => simp [firstOfEach]
  | cons type rest ih =>
    rw [firstOfEach]
    split
    · exact ih seen
    · rename_i fresh
      obtain ⟨distinct,unseen⟩ := ih (type.render :: seen)
      refine ⟨List.nodup_cons.mpr ⟨fun again => ?_,distinct⟩,fun text member => ?_⟩
      · exact unseen _ again (by simp)
      · rcases List.mem_cons.mp member with rfl | later
        · simpa using fresh
        · exact fun known => unseen text later (List.mem_cons_of_mem _ known)

def kept (types : List LuaType) : List LuaType := firstOfEach [] (types.flatMap arms)

theorem kept_flat {types : List LuaType} (nonempty : types ≠ [])
    (all : ∀ type ∈ types, type.Flat) : kept types ≠ [] ∧
      ∀ arm ∈ kept types, arm.Flat ∧ ∀ inner, arm ≠ .union inner := by
  constructor
  · apply firstOfEach_ne_nil
    obtain ⟨first,rest,rfl⟩ := List.exists_cons_of_ne_nil nonempty
    have some := (all first (by simp)).arms.1
    simp [some]
  · intro arm member
    obtain ⟨type,among,inside⟩ := List.mem_flatMap.mp ((firstOfEach_sublist _ _).subset member)
    exact (all type among).arms.2 arm inside

theorem flat_unionOf {types : List LuaType} (nonempty : types ≠ [])
    (all : ∀ type ∈ types, type.Flat) : (unionOf types).Flat := by
  obtain ⟨some,each⟩ := kept_flat nonempty all
  unfold unionOf
  split
  · rename_i arm alone
    exact (each arm (by simp [kept,alone])).1
  · rename_i other
    have several : 2 ≤ (kept types).length := by
      obtain ⟨arm,rest,arms⟩ := List.exists_cons_of_ne_nil some
      cases rest with
      | nil => exact absurd arms (other arm)
      | cons second rest => simp [arms]
    refine flat_iff.mpr ⟨⟨?_,by simp⟩,fun arm member => (each arm member).1⟩
    rintro arms same
    obtain rfl := union.inj same
    exact ⟨several,fun arm member => (each arm member).2,(firstOfEach_distinct [] _).1⟩

/-- The arms of a union of flat types are those that are kept. -/
theorem arms_unionOf {types : List LuaType} (nonempty : types ≠ [])
    (all : ∀ type ∈ types, type.Flat) : (unionOf types).arms = kept types := by
  obtain ⟨_,each⟩ := kept_flat nonempty all
  unfold unionOf
  split
  · rename_i arm alone
    have single := (each arm (by simp [kept,alone])).2
    rw [kept,alone]
    cases arm with
    | union inner => exact absurd rfl (single inner)
    | _ => rfl
  · rfl

end LuaType

namespace Resolver

variable (r : Resolver)

theorem phraseType_flat (phrase : Text) : (r.phraseType phrase).Flat := by
  unfold phraseType nameType
  split
  · exact LuaType.flat_primitive _
  · split
    · exact LuaType.flat_primitive _
    · exact LuaType.flat_named _
  · split
    · exact LuaType.flat_named _
    · exact LuaType.flat_named _

theorem treeType_flat {tree : Phrase.Tree} (worded : tree.Worded) : (r.treeType tree).Flat :=
  treeType_induction worded (fun p _ => r.phraseType_flat p)
    (fun _ nonempty all => LuaType.flat_unionOf nonempty all)
    fun _ isOpen _ all => LuaType.flat_table isOpen all

theorem typeOr_flat {other : Phrase.Error → LuaType} (kept : ∀ e, (other e).Flat) (raw : Text) :
    (r.typeOr other raw).Flat := by
  rcases r.typeOr_shape other raw with ⟨entry,_,_,same⟩ | ⟨tree,parsed,same⟩ | ⟨e,_,same⟩
  · exact same ▸ LuaType.flat_primitive _
  · exact same ▸ r.treeType_flat (Phrase.parse_worded parsed)
  · exact same ▸ kept e

/-- Alternatives of a text outside the grammar are resolved one by one, and their arms made flat as
those of a tree are. -/
theorem type_flat (raw : Text) : (r.type raw).Flat := by
  have alone (raw : Text) : (r.aloneType raw).Flat :=
    r.typeOr_flat (fun _ => LuaType.flat_named _) raw
  refine r.typeOr_flat (fun _ => ?_) raw
  split
  · refine LuaType.flat_unionOf (by simp) fun type member => ?_
    obtain ⟨segment,_,rfl⟩ := List.mem_map.mp member
    exact alone segment
  · exact LuaType.flat_named _

/-- Every union in the type of a text is flat with different arms, whatever the text is, and the type
for further arguments stands at the root of the type of a parameter for them, and nowhere else. -/
theorem types_wellFormed :
    (∀ raw optional node, LuaType.Occurs node (r.normalize raw optional).type →
      LuaType.FlatNode node) ∧
    ∀ p : Api.Param, ((∃ inner, (r.stubParam p).type = .varargs inner) ↔ p.name = ("..." : Text)) ∧
      ∀ child ∈ (r.stubParam p).type.children, ∀ node, LuaType.Occurs node child →
        ∀ inner, node ≠ .varargs inner := by
  refine ⟨fun raw _ => r.type_flat raw,?_⟩
  intro p
  have flat := r.type_flat p.type
  have root := flat _ .here
  by_cases further : p.name = ("..." : Text)
  · have type : (r.stubParam p).type = .varargs (r.type p.type) :=
      if_pos (decide_eq_true further)
    refine ⟨⟨fun _ => further,fun _ => ⟨_,type⟩⟩,?_⟩
    intro child member node occurs
    rw [type] at member
    obtain rfl := List.mem_singleton.mp member
    exact (flat node occurs).varargs
  · have type : (r.stubParam p).type = r.type p.type := if_neg (mt of_decide_eq_true further)
    rw [type]
    refine ⟨⟨fun found => ?_,fun named => absurd named further⟩,?_⟩
    · obtain ⟨inner,same⟩ := found
      exact absurd same (root.varargs inner)
    · intro child member node occurs
      exact (flat node (.under member occurs)).varargs

end Resolver
end LuaStubs
