import LuaStubs.Proofs.Stubs

/-! Which variant of a function comes first and in which order the others follow. The sort is stable,
so no two variants ever share a rank and the ranking is the only list in its order. -/
namespace LuaStubs

/-- How two elements stand to each other behind a stable sort: `le` allows their order, and where it
allows the other one too they stood `before` in this one. -/
def InOrder (le : α → α → Bool) (before : α → α → Prop) (a b : α) : Prop :=
  le a b = true ∧ (le b a = true → before a b)

/-- Elements that may go in any order stay in the order they have. -/
theorem insertBy_filter {le : α → α → Bool} {tied : α → Bool}
    (free : ∀ a b, tied a = true → tied b = true → le a b = true) (x : α) (l : List α) :
    (insertBy le x l).filter tied = (x :: l).filter tied := by
  induction l with
  | nil => rfl
  | cons y rest ih =>
    rw [insertBy]
    by_cases precedes : le x y = true
    · rw [if_pos precedes]
    · rw [if_neg precedes,List.filter_cons,ih]
      cases here : tied x with
      | false => simp [List.filter_cons,here]
      | true =>
        have other : tied y = false := Bool.eq_false_iff.mpr fun tie => precedes (free x y here tie)
        simp [here,other]

theorem sortBy_filter {le : α → α → Bool} {tied : α → Bool}
    (free : ∀ a b, tied a = true → tied b = true → le a b = true) (l : List α) :
    (sortBy le l).filter tied = l.filter tied := by
  induction l with
  | nil => rfl
  | cons x rest ih => rw [sortBy,insertBy_filter free,List.filter_cons,List.filter_cons,ih]

section

variable {le : α → α → Bool} {before : α → α → Prop}
  (total : ∀ a b, le a b = true ∨ le b a = true)
  (trans : ∀ a b c, le a b = true → le b c = true → le a c = true)
include total trans

/-- An element that stood before all others goes behind those that it may not precede. -/
theorem insertBy_inOrder {x : α} {l : List α} (first : ∀ y ∈ l, before x y)
    (ordered : l.Pairwise (InOrder le before)) : (insertBy le x l).Pairwise (InOrder le before) := by
  induction l with
  | nil => exact List.pairwise_singleton _ x
  | cons y rest ih =>
    obtain ⟨ahead,later⟩ := List.pairwise_cons.mp ordered
    rw [insertBy]
    by_cases precedes : le x y = true
    · rw [if_pos precedes]
      apply List.Pairwise.cons _ ordered
      intro z member
      have allowed : le x z = true := by
        rcases List.mem_cons.mp member with rfl | inside
        · exact precedes
        · exact trans x y z precedes (ahead z inside).1
      exact ⟨allowed,fun _ => first z member⟩
    · rw [if_neg precedes]
      apply List.Pairwise.cons _ (ih (fun z inside => first z (by simp [inside])) later)
      intro z member
      rcases List.mem_cons.mp ((insertBy_perm le x rest).mem_iff.mp member) with rfl | inside
      · exact ⟨(total z y).resolve_left precedes,fun back => absurd back precedes⟩
      · exact ahead z inside

theorem sortBy_inOrder {l : List α} (source : l.Pairwise before) :
    (sortBy le l).Pairwise (InOrder le before) := by
  induction l with
  | nil => exact .nil
  | cons x rest ih =>
    obtain ⟨first,later⟩ := List.pairwise_cons.mp source
    apply insertBy_inOrder total trans _ (ih later)
    intro y member
    exact first y ((sortBy_perm le rest).mem_iff.mp member)

end

namespace Api

def Variant.EndsOpen (v : Variant) : Prop :=
  ∃ p, v.params.getLast? = some p ∧ p.name = ("..." : Text)

theorem Variant.isVariadic_iff {v : Variant} : v.isVariadic = true ↔ v.EndsOpen := by
  unfold isVariadic EndsOpen
  cases v.params.getLast? with
  | none => simp
  | some p =>
    constructor
    · exact fun last => ⟨p,rfl,of_decide_eq_true last⟩
    · rintro ⟨q,same,named⟩
      obtain rfl := Option.some.inj same
      exact decide_eq_true named

/-- The variant with number `i` goes before the one with number `j`: it has more parameters, or as
many and it alone takes further arguments, or neither tells them apart and it is described first. -/
def Outranks (variants : List Variant) (i j : Nat) : Prop :=
  ∃ a b, variants[i]? = some a ∧ variants[j]? = some b ∧
    (b.params.length < a.params.length ∨ a.params.length = b.params.length ∧
      (a.EndsOpen ∧ ¬b.EndsOpen ∨ (a.EndsOpen ↔ b.EndsOpen) ∧ i < j))

theorem Variant.ranksBefore_iff {a b : Variant} : a.ranksBefore b = true ↔
    b.params.length < a.params.length ∨
      a.params.length = b.params.length ∧ (b.EndsOpen → a.EndsOpen) := by
  rw [← isVariadic_iff,← isVariadic_iff]
  change _ ↔ b.arity < a.arity ∨ a.arity = b.arity ∧ _
  cases opens : a.isVariadic <;> cases closes : b.isVariadic <;> simp [ranksBefore,opens,closes]

theorem Variant.ranksBefore_total (a b : Variant) :
    a.ranksBefore b = true ∨ b.ranksBefore a = true := by
  rw [ranksBefore_iff,ranksBefore_iff]
  by_cases opens : a.EndsOpen
  · simp only [opens,implies_true,and_true,forall_const]
    omega
  · simp only [opens,false_implies,and_true]
    omega

theorem Variant.ranksBefore_trans (a b c : Variant) (first : a.ranksBefore b = true)
    (second : b.ranksBefore c = true) : a.ranksBefore c = true := by
  rw [ranksBefore_iff] at first second ⊢
  rcases first with more | ⟨same,opens⟩
  · left
    omega
  · rcases second with more | ⟨equal,closes⟩
    · left
      omega
    · exact Or.inr ⟨by omega,fun last => opens (closes last)⟩

/-- Nothing goes before what it comes behind. -/
theorem Outranks.asymm {variants : List Variant} {i j : Nat} (first : Outranks variants i j) :
    ¬Outranks variants j i := by
  rintro ⟨d,c,atJ,atI,back⟩
  obtain ⟨a,b,here,there,rank⟩ := first
  obtain rfl : a = c := Option.some.inj (here.symm.trans atI)
  obtain rfl : b = d := Option.some.inj (there.symm.trans atJ)
  rcases rank with more | ⟨same,alone | ⟨tied,less⟩⟩
  · omega
  · rcases back with more | ⟨_,other | ⟨again,_⟩⟩
    · omega
    · exact alone.2 other.1
    · exact alone.2 (again.mpr alone.1)
  · rcases back with more | ⟨_,other | ⟨_,greater⟩⟩
    · omega
    · exact other.2 (tied.mpr other.1)
    · omega

variable {variants : List Variant}

theorem getElem?_of_mem_numbered {numbered : Numbered}
    (member : numbered ∈ variants.mapIdx Prod.mk) : variants[numbered.1]? = some numbered.2 := by
  obtain ⟨i,inside,rfl⟩ := List.mem_mapIdx.mp member
  exact List.getElem?_eq_getElem inside

theorem numbered_increasing (variants : List Variant) :
    (variants.mapIdx Prod.mk).Pairwise fun a b => a.1 < b.1 := by
  rw [List.pairwise_iff_getElem]
  intro i j inI inJ less
  simpa using less

theorem numbers_eq_range (variants : List Variant) :
    (variants.mapIdx Prod.mk).map Prod.fst = List.range variants.length := by
  apply List.ext_getElem
  · simp
  · intro i inside below
    simp

theorem mem_ranked {numbered : Numbered} (member : numbered ∈ ranked variants) :
    variants[numbered.1]? = some numbered.2 :=
  getElem?_of_mem_numbered ((sortBy_perm _ _).mem_iff.mp member)

theorem ranked_perm (variants : List Variant) :
    ((ranked variants).map Prod.fst).Perm (List.range variants.length) :=
  numbers_eq_range variants ▸ (sortBy_perm _ _).map Prod.fst

theorem ranked_outranks (variants : List Variant) :
    ((ranked variants).map Prod.fst).Pairwise (Outranks variants) := by
  have sorted := sortBy_inOrder (fun a b => Variant.ranksBefore_total a.2 b.2)
    (fun a b c => Variant.ranksBefore_trans a.2 b.2 c.2) (numbered_increasing variants)
  rw [List.pairwise_map]
  apply sorted.imp_of_mem
  intro a b memberA memberB order
  refine ⟨a.2,b.2,mem_ranked memberA,mem_ranked memberB,?_⟩
  obtain ⟨precedes,stable⟩ := order
  rw [Variant.ranksBefore_iff] at precedes stable
  -- stability decides only where the sort would allow the other order too
  rcases precedes with more | ⟨same,opens⟩
  · exact Or.inl more
  · right
    by_cases tied : a.2.EndsOpen → b.2.EndsOpen
    · exact ⟨same,Or.inr ⟨⟨tied,opens⟩,stable (Or.inr ⟨same.symm,tied⟩)⟩⟩
    · exact ⟨same,Or.inl (Classical.not_imp.mp tied)⟩

/-- A list of all numbers in which each outranks those behind it is the ranking. -/
theorem eq_ranked {order : List Nat} (all : order.Perm (List.range variants.length))
    (ordered : order.Pairwise (Outranks variants)) : order = (ranked variants).map Prod.fst := by
  apply List.Perm.eq_of_pairwise _ ordered (ranked_outranks variants)
    (all.trans (ranked_perm variants).symm)
  intro i j _ _ first back
  exact absurd back first.asymm

/-- The variant that gives the signature, and the others behind it: together all variants, each before
those that it outranks. No other order has all of them so, and no variant has more parameters than the
first. -/
theorem ranking_unique (nonempty : variants ≠ []) : ∃ primary alternates,
    (ranked variants).map Prod.fst = primary :: alternates ∧
    (∀ numbered ∈ ranked variants, variants[numbered.1]? = some numbered.2) ∧
    (primary :: alternates).Perm (List.range variants.length) ∧
    (primary :: alternates).Pairwise (Outranks variants) ∧
    (∀ order : List Nat, order.Perm (List.range variants.length) →
      order.Pairwise (Outranks variants) → order = primary :: alternates) ∧
    ∀ i ∈ alternates, ∀ a b, variants[primary]? = some a → variants[i]? = some b →
      b.params.length ≤ a.params.length := by
  have all := ranked_perm variants
  have ordered := ranked_outranks variants
  cases numbers : (ranked variants).map Prod.fst with
  | nil =>
    rw [numbers] at all
    have none := all.length_eq
    rw [List.length_range] at none
    exact absurd (List.eq_nil_of_length_eq_zero none.symm) nonempty
  | cons primary alternates =>
    rw [numbers] at all ordered
    refine ⟨primary,alternates,rfl,fun _ => mem_ranked,all,ordered,?_,?_⟩
    · intro order complete sorted
      rw [← numbers]
      exact eq_ranked complete sorted
    · intro i member a b first other
      obtain ⟨c,d,atPrimary,atI,rank⟩ := (List.pairwise_cons.mp ordered).1 i member
      obtain rfl : a = c := Option.some.inj (first.symm.trans atPrimary)
      obtain rfl : b = d := Option.some.inj (other.symm.trans atI)
      rcases rank with more | ⟨same,_⟩
      · omega
      · omega

def plainVariant (names : List Text) : Variant :=
  ⟨names.map fun name => ⟨name,[],false,none,[]⟩,[],[]⟩

def mixed : List Variant :=
  [plainVariant ["a","b"],plainVariant ["a","..."],plainVariant ["x","y"],
    plainVariant ["a","b","c"],plainVariant []]

theorem mixed_ranking : (ranked mixed).map Prod.fst = [3,1,0,2,4] ∧
    ∀ order : List Nat, order.Perm (List.range 5) → order.Pairwise (Outranks mixed) →
      order = [3,1,0,2,4] := by
  have ranking : (ranked mixed).map Prod.fst = [3,1,0,2,4] := by decide +kernel
  have nonempty : mixed ≠ [] := List.cons_ne_nil _ _
  obtain ⟨primary,alternates,same,_,_,_,unique,_⟩ := ranking_unique nonempty
  rw [← same,ranking] at unique
  exact ⟨ranking,unique⟩

end Api
end LuaStubs
