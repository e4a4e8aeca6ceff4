import LuaStubs.Proofs.Words

/-! Brackets in a text: how many are open at a place, and texts with white space inside brackets
only. -/
namespace LuaStubs.Phrase

def depth : Text → Int
  | [] => 0
  | c :: t => nesting c + depth t

@[simp] theorem depth_nil : depth [] = 0 := rfl

@[simp] theorem depth_cons (c : Char) (t : Text) : depth (c :: t) = nesting c + depth t := rfl

@[simp] theorem depth_append (a b : Text) : depth (a ++ b) = depth a + depth b := by
  induction a with
  | nil => simp
  | cons c a ih => simp [ih,Int.add_assoc]

theorem depth_of_level {t : Text} (level : ∀ c ∈ t, nesting c = 0) : depth t = 0 := by
  induction t with
  | nil => rfl
  | cons c t ih =>
    rw [depth_cons,level c (by simp),ih fun d member => level d (by simp [member])]
    rfl

theorem nesting_of_blank {c : Char} (blank : Text.isBlank c = true) : nesting c = 0 := by
  unfold nesting
  split <;> first | rfl | exact absurd blank (by decide)

theorem nesting_of_wordPart {c : Char} (part : isWordPart c = true) : nesting c = 0 := by
  unfold nesting
  split <;> first | rfl | exact absurd part (by decide)

theorem foldr_consFirst (t piece : Text) (rest : List Text) :
    t.foldr consFirst (piece :: rest) = (t ++ piece) :: rest := by
  induction t with
  | nil => rfl
  | cons c t ih => rw [List.foldr_cons,ih,consFirst,List.cons_append]

/-- White space stands only where a bracket is open; `before` are open before the text. -/
def BlanksInside : (before : Int) → Text → Prop
  | _, [] => True
  | before, c :: t => (Text.isBlank c = true → 0 < before) ∧ BlanksInside (before + nesting c) t

instance decideBlanksInside : (before : Int) → (t : Text) → Decidable (BlanksInside before t)
  | _, [] => .isTrue trivial
  | before, c :: t =>
    have := decideBlanksInside (before + nesting c) t
    inferInstanceAs (Decidable (_ ∧ _))

theorem blanksInside_append {before : Int} {a b : Text} :
    BlanksInside before (a ++ b) ↔ BlanksInside before a ∧ BlanksInside (before + depth a) b := by
  induction a generalizing before with
  | nil => simp [BlanksInside]
  | cons c a ih => simp [BlanksInside,ih,and_assoc,Int.add_assoc]

theorem BlanksInside.mono {before more : Int} (le : before ≤ more) {t : Text}
    (inside : BlanksInside before t) : BlanksInside more t := by
  induction t generalizing before more with
  | nil => trivial
  | cons c t ih =>
    refine ⟨fun blank => ?_,ih (by omega) inside.2⟩
    have := inside.1 blank
    omega

/-- A text that closes the brackets it opens, with white space in brackets only, where `around` are
open around it. -/
structure Enclosed (around : Int) (t : Text) : Prop where
  closed : depth t = 0
  blanks : BlanksInside around t

namespace Enclosed

variable {around : Int} {a b : Text}

theorem nil : Enclosed around [] := ⟨rfl,trivial⟩

theorem append (first : Enclosed around a) (second : Enclosed around b) : Enclosed around (a ++ b) := by
  refine ⟨by simp [first.closed,second.closed],blanksInside_append.mpr ⟨first.blanks,?_⟩⟩
  simpa [first.closed] using second.blanks

theorem mono {more : Int} (le : around ≤ more) (enclosed : Enclosed around a) : Enclosed more a :=
  ⟨enclosed.closed,enclosed.blanks.mono le⟩

theorem cons {c : Char} (level : nesting c = 0) (kept : Text.isBlank c = true → 0 < around)
    (rest : Enclosed around a) : Enclosed around (c :: a) := by
  refine ⟨by simp [level,rest.closed],kept,?_⟩
  simpa [level] using rest.blanks

theorem of_wordParts (parts : ∀ c ∈ a, isWordPart c = true) : Enclosed around a := by
  induction a with
  | nil => exact .nil
  | cons c a ih =>
    have part := parts c (by simp)
    refine .cons (nesting_of_wordPart part) ?_ (ih fun d member => parts d (by simp [member]))
    simp [unblank_of_wordPart part]

/-- Any text without brackets, inside one. -/
theorem of_level (level : ∀ c ∈ a, nesting c = 0) (inside : 0 < around) : Enclosed around a := by
  induction a with
  | nil => exact .nil
  | cons c a ih =>
    exact .cons (level c (by simp)) (fun _ => inside) (ih fun d member => level d (by simp [member]))

theorem bracketed {opening closing : Char} (opens : nesting opening = 1)
    (closes : nesting closing = -1) (inside : Enclosed (around + 1) a) :
    Enclosed around (opening :: (a ++ [closing])) := by
  refine ⟨by simp [opens,closes,inside.closed],?_,?_⟩
  · intro blank
    simp [nesting_of_blank blank] at opens
  · rw [opens,blanksInside_append]
    refine ⟨inside.blanks,?_,trivial⟩
    intro blank
    simp [nesting_of_blank blank] at closes

theorem join {sep : Text} {parts : List Text} (between : Enclosed around sep)
    (each : ∀ part ∈ parts, Enclosed around part) : Enclosed around (Text.join sep parts) := by
  induction parts with
  | nil => exact .nil
  | cons first rest ih =>
    have here := each first (by simp)
    have later := ih fun part member => each part (by simp [member])
    cases rest with
    | nil => simpa using here
    | cons second rest =>
      rw [Text.join_cons_cons]
      exact (here.append between).append later

/-- Outside all brackets there is no white space, so there is none at the ends. -/
theorem trimmed (enclosed : Enclosed 0 a) : Text.Trimmed a := by
  constructor
  · intro c head
    obtain ⟨rest,rfl⟩ := List.head?_eq_some_iff.mp head
    refine Bool.eq_false_iff.mpr fun blank => ?_
    have := enclosed.blanks.1 blank
    omega
  · intro c last
    obtain ⟨start,rfl⟩ := List.getLast?_eq_some_iff.mp last
    refine Bool.eq_false_iff.mpr fun blank => ?_
    have closed : depth start = 0 := by simpa [nesting_of_blank blank] using enclosed.closed
    obtain ⟨_,inside,_⟩ := blanksInside_append.mp enclosed.blanks
    have := inside blank
    omega

end Enclosed

end LuaStubs.Phrase
