import LuaStubs.Files.Path

/-! The order of paths, and of the texts in them: lists by their first difference. -/
namespace LuaStubs

structure Linear (le : α → α → Bool) : Prop where
  total : ∀ a b, le a b = true ∨ le b a = true
  trans : ∀ a b c, le a b = true → le b c = true → le a c = true
  antisymm : ∀ a b, le a b = true → le b a = true → a = b

/-- Lists by their first difference; a list goes before those that it begins. -/
def lexBy [DecidableEq α] (le : α → α → Bool) : List α → List α → Bool
  | [], _ => true
  | _ :: _, [] => false
  | a :: as, b :: bs => if a = b then lexBy le as bs else le a b

section

variable [DecidableEq α] {le : α → α → Bool}

theorem lexBy_cons {a b : α} {as bs : List α} : lexBy le (a :: as) (b :: bs) = true ↔
    a = b ∧ lexBy le as bs = true ∨ a ≠ b ∧ le a b = true := by
  by_cases same : a = b <;> simp [lexBy,same]

theorem Linear.lexBy (linear : Linear le) : Linear (lexBy le) := by
  constructor
  · intro as bs
    induction as generalizing bs with
    | nil => exact Or.inl rfl
    | cons a as ih =>
      cases bs with
      | nil => exact Or.inr rfl
      | cons b bs =>
        rw [lexBy_cons,lexBy_cons]
        by_cases same : a = b
        · simpa [same] using ih bs
        · simpa [same,Ne.symm same] using linear.total a b
  · intro as bs cs first second
    induction as generalizing bs cs with
    | nil => rfl
    | cons a as ih =>
      cases bs with
      | nil => contradiction
      | cons b bs =>
        cases cs with
        | nil => contradiction
        | cons c cs =>
          rw [lexBy_cons] at first second ⊢
          rcases first with ⟨rfl,first⟩ | ⟨differ,less⟩
          · exact second.imp_left fun later => ⟨later.1,ih bs cs first later.2⟩
          · rcases second with ⟨rfl,_⟩ | ⟨_,more⟩
            · exact Or.inr ⟨differ,less⟩
            · refine Or.inr ⟨?_,linear.trans a b c less more⟩
              rintro rfl
              exact differ (linear.antisymm a b less more)
  · intro as bs first second
    induction as generalizing bs with
    | nil =>
      cases bs with
      | nil => rfl
      | cons b bs => contradiction
    | cons a as ih =>
      cases bs with
      | nil => contradiction
      | cons b bs =>
        rw [lexBy_cons] at first second
        rcases first with ⟨rfl,first⟩ | ⟨differ,less⟩
        · rw [ih bs first (second.elim And.right fun other => absurd rfl other.1)]
        · rcases second with ⟨same,_⟩ | ⟨_,more⟩
          · exact absurd same.symm differ
          · exact absurd (linear.antisymm a b less more) differ

end

theorem linear_char : Linear fun a b : Char => decide (a.toNat ≤ b.toNat) := by
  refine ⟨fun a b => ?_,fun a b c first second => ?_,fun a b first second => ?_⟩
  · simpa using Nat.le_total a.toNat b.toNat
  · simp only [decide_eq_true_eq] at first second ⊢
    omega
  · simp only [decide_eq_true_eq] at first second
    exact Char.toNat_inj.mp (by omega)

theorem Text.le_eq_lexBy (s t : Text) : le s t = lexBy (fun a b => decide (a.toNat ≤ b.toNat)) s t := by
  induction s generalizing t with
  | nil => rfl
  | cons a s ih =>
    cases t with
    | nil => rfl
    | cons b t =>
      by_cases same : a = b
      · simp [le,lexBy,same,ih]
      · have differ : a.toNat ≠ b.toNat := mt Char.toNat_inj.mp same
        simp only [le,lexBy,same,if_false,decide_eq_decide]
        omega

theorem Text.linear_le : Linear Text.le := by
  have same : Text.le = lexBy fun a b => decide (a.toNat ≤ b.toNat) :=
    funext fun s => funext (le_eq_lexBy s)
  rw [same]
  exact linear_char.lexBy

namespace Files

namespace Component

def text : Component → Text
  | name text => text
  | _ => []

theorem ext_rank {a b : Component} (ranks : a.rank = b.rank) (texts : a.text = b.text) : a = b := by
  cases a <;> cases b <;> simp_all [rank,text]

theorem le_iff {a b : Component} :
    a.le b = true ↔ a.rank < b.rank ∨ a.rank = b.rank ∧ Text.le a.text b.text = true := by
  cases a <;> cases b <;> simp [le,rank,text,Text.le]

theorem linear_le : Linear le := by
  refine ⟨fun a b => ?_,fun a b c first second => ?_,fun a b first second => ?_⟩
  · rw [le_iff,le_iff]
    rcases Nat.lt_trichotomy a.rank b.rank with less | same | more
    · exact Or.inl (Or.inl less)
    · exact (Text.linear_le.total a.text b.text).imp (fun le => Or.inr ⟨same,le⟩)
        fun le => Or.inr ⟨same.symm,le⟩
    · exact Or.inr (Or.inl more)
  · rw [le_iff] at first second ⊢
    rcases first with less | ⟨same,first⟩
    · left
      omega
    · rcases second with more | ⟨equal,second⟩
      · left
        omega
      · exact Or.inr ⟨same.trans equal,Text.linear_le.trans _ _ _ first second⟩
  · rw [le_iff] at first second
    rcases first with less | ⟨same,first⟩
    · omega
    · rcases second with more | ⟨_,second⟩
      · omega
      · exact ext_rank same (Text.linear_le.antisymm _ _ first second)

end Component

theorem leComponents_eq_lexBy (as bs : List Component) : leComponents as bs = lexBy Component.le as bs := by
  induction as generalizing bs with
  | nil => rfl
  | cons a as ih =>
    cases bs with
    | nil => rfl
    | cons b bs => rw [leComponents,lexBy,ih]

theorem linear_leComponents : Linear leComponents := by
  have same : leComponents = lexBy Component.le := funext fun as => funext (leComponents_eq_lexBy as)
  rw [same]
  exact Component.linear_le.lexBy

namespace Path

def Precedes (a b : Path) : Prop := le a b = true ∧ le b a = false

instance (a b : Path) : Decidable (Precedes a b) := inferInstanceAs (Decidable (_ ∧ _))

theorem Precedes.asymm {a b : Path} (first : Precedes a b) : ¬Precedes b a := fun back =>
  Bool.false_ne_true (first.2.symm.trans back.1)

theorem le_total (a b : Path) : le a b = true ∨ le b a = true := linear_leComponents.total _ _

theorem le_trans (a b c : Path) (first : le a b = true) (second : le b c = true) : le a c = true :=
  linear_leComponents.trans _ _ _ first second

end Path

end Files
end LuaStubs
