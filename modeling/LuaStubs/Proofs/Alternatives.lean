import LuaStubs.Proofs.Brackets

/-! What is left of a union in words by the cuts between alternatives: ` or ` only where the brackets
before it are not all closed. -/
namespace LuaStubs.Phrase

/-- No ` or ` stands where all brackets are closed; `before` are open before the text. -/
def OrsInside (before : Int) (t : Text) : Prop := ∀ u v, t = u ++ " or " ++ v → before + depth u ≠ 0

theorem OrsInside.cons {before : Int} {c : Char} {t : Text}
    (inside : OrsInside (before + nesting c) t) (here : ∀ v, c :: t = " or " ++ v → before ≠ 0) :
    OrsInside before (c :: t) := by
  intro u v same
  cases u with
  | nil => simpa using here v same
  | cons d u =>
    obtain ⟨rfl,rfl⟩ := List.cons.inj same
    simpa [Int.add_assoc] using inside u v (by simp)

inductive Cuts : Int → Text → List Text → Prop where
  | last {before : Int} {t : Text} : OrsInside before t → Cuts before t [t]
  | more {before : Int} {piece sep rest : Text} {pieces : List Text} : OrsInside before piece →
      before + depth piece = 0 → depth sep = 0 → Cuts 0 rest pieces →
      Cuts before (piece ++ sep ++ rest) (piece :: pieces)

namespace Cuts

theorem cons {before : Int} {c : Char} {t : Text} {pieces : List Text}
    (cuts : Cuts (before + nesting c) t pieces) (here : ∀ v, c :: t = " or " ++ v → before ≠ 0) :
    Cuts before (c :: t) (consFirst c pieces) := by
  cases cuts with
  | last inside => exact .last (inside.cons here)
  | @more _ piece sep rest pieces inside closed between cuts =>
    have first : OrsInside before (c :: piece) := by
      refine inside.cons fun v same => here (v ++ sep ++ rest) ?_
      rw [← List.cons_append,← List.cons_append,same]
      simp
    have level : before + depth (c :: piece) = 0 := by
      rw [depth_cons,← Int.add_assoc]
      exact closed
    exact .more first level between cuts

theorem separator {t sep : Text} {pieces : List Text} (between : depth sep = 0)
    (cuts : Cuts 0 t pieces) : Cuts 0 (sep ++ t) ([] :: pieces) := by
  have none : OrsInside 0 [] := by simp [OrsInside]
  exact .more none rfl between cuts

/-- A piece starts where all brackets are closed. -/
theorem within {before : Int} {t : Text} {pieces : List Text} (cuts : Cuts before t pieces)
    (closed : before = 0) : ∀ piece ∈ pieces, ∃ a b, t = a ++ piece ++ b ∧ depth a = 0 := by
  induction cuts with
  | @last _ t _ =>
    intro piece member
    exact ⟨[],[],by simp [List.mem_singleton.mp member],rfl⟩
  | @more _ piece sep rest pieces _ level between _ ih =>
    intro other member
    rcases List.mem_cons.mp member with rfl | later
    · exact ⟨[],sep ++ rest,by simp,rfl⟩
    · obtain ⟨a,b,rfl,start⟩ := ih rfl other later
      have first : depth piece = 0 := by simpa [closed] using level
      exact ⟨piece ++ sep ++ a,b,by simp,by simp [first,between,start]⟩

theorem inside {before : Int} {t : Text} {pieces : List Text} (cuts : Cuts before t pieces)
    (closed : before = 0) : ∀ piece ∈ pieces, OrsInside 0 piece := by
  induction cuts with
  | last inside => simpa [← closed] using inside
  | more inside _ _ _ ih =>
    intro other member
    rcases List.mem_cons.mp member with rfl | later
    · exact closed ▸ inside
    · exact ih rfl other later

/-- Before a cut all brackets of a piece are closed. -/
theorem closed {before : Int} {t : Text} {pieces : List Text} (cuts : Cuts before t pieces)
    (closed : before = 0) : pieces.Pairwise fun piece _ => depth piece = 0 := by
  induction cuts with
  | last _ => simp
  | more _ level _ _ ih =>
    refine List.pairwise_cons.mpr ⟨fun _ _ => ?_,ih rfl⟩
    simpa [closed] using level

end Cuts

theorem cuts_cut (before : Int) (t : Text) : Cuts before t (cut before t) := by
  fun_induction cut before t with
  | case1 before => exact .last (by simp [OrsInside])
  | case2 rest ih => exact ih.separator (show depth " or " = 0 from rfl)
  | case3 before rest opened ih =>
    have step {c : Char} {t : Text} {pieces : List Text} (level : nesting c = 0)
        (cuts : Cuts before t pieces) : Cuts before (c :: t) (consFirst c pieces) := by
      rw [← Int.add_zero before,← level] at cuts
      exact cuts.cons fun _ _ => opened
    exact step rfl (step rfl (step rfl (step rfl ih)))
  | case4 before c rest other after cuts ih =>
    obtain ⟨rfl,closed⟩ : c = '|' ∧ after = 0 := by simpa using cuts
    have level : before = 0 := by simpa [after,nesting] using closed
    rw [closed] at ih ⊢
    exact level ▸ ih.separator (show depth "|" = 0 from rfl)
  | case5 before c rest other after kept ih =>
    refine ih.cons fun v same => ?_
    obtain ⟨rfl,rfl⟩ := List.cons.inj same
    exact absurd rfl (other v rfl)

theorem depth_of_blank {t : Text} (blank : ∀ c ∈ t, Text.isBlank c = true) : depth t = 0 :=
  depth_of_level fun c member => nesting_of_blank (blank c member)

/-- An alternative starts where all brackets are closed, with ` or ` in its brackets only. -/
theorem mem_alternatives {raw segment : Text} (member : segment ∈ alternatives raw) :
    (∃ a b, raw = a ++ segment ++ b ∧ depth a = 0) ∧ OrsInside 0 segment := by
  obtain ⟨piece,among,rfl⟩ := List.mem_map.mp (List.mem_filter.mp member).1
  obtain ⟨a,b,whole,before,_⟩ := Text.eq_trim piece
  have level := depth_of_blank before
  have cuts := cuts_cut 0 raw
  constructor
  · obtain ⟨start,rest,text,closed⟩ := cuts.within rfl piece among
    refine ⟨start ++ a,b ++ rest,?_,by simp [closed,level]⟩
    have around : start ++ piece ++ rest = start ++ (a ++ Text.trim piece ++ b) ++ rest := by
      rw [← whole]
    simpa [text] using around
  · intro u v same
    have inside := cuts.inside rfl piece among (a ++ u) (v ++ b) (by rw [whole,same]; simp)
    simpa [level] using inside

theorem alternatives_closed (raw : Text) :
    (alternatives raw).Pairwise fun segment _ => depth segment = 0 := by
  refine List.Pairwise.filter _ (List.pairwise_map.mpr ?_)
  refine ((cuts_cut 0 raw).closed rfl).imp fun {piece _} closed => ?_
  obtain ⟨a,b,whole,before,after⟩ := Text.eq_trim piece
  rw [whole] at closed
  simpa [depth_of_blank before,depth_of_blank after] using closed

theorem not_mem_space {t : Text} (unblank : ∀ c ∈ t, Text.isBlank c = false) : ' ' ∉ t := by
  intro member
  exact absurd (unblank ' ' member) (by decide)

/-- The first word of a collapsed text, with white space before and behind it. -/
theorem collapse_first {w v t : Text} (single : ' ' ∉ w)
    (same : Text.collapse t = w ++ ' ' :: v) :
    ∃ a d b, t = a ++ w ++ d :: b ∧ (∀ c ∈ a, Text.isBlank c = true) ∧ Text.isBlank d = true := by
  induction t using Text.wordInduction with
  | word t unblank =>
    rw [Text.collapse_of_unblank unblank] at same
    exact absurd (by simp [same]) (not_mem_space unblank)
  | blank word c rest unblank blank ih =>
    cases word with
    | nil =>
      rw [List.nil_append,Text.collapse_blank blank] at same
      obtain ⟨a,d,b,rfl,before,after⟩ := ih same
      exact ⟨c :: a,d,b,by simp,by simpa [blank] using before,after⟩
    | cons e word =>
      rcases Text.collapse_word (List.cons_ne_nil e word) unblank blank rest with ⟨none,alone⟩ | more
      · have text : e :: word = w ++ ' ' :: v := alone.symm.trans same
        exact absurd (by simp [text]) (not_mem_space unblank)
      · rw [more] at same
        rcases Text.append_cons_cases (not_mem_space unblank) same with ⟨rfl,_⟩ | ⟨m,rfl,_⟩
        · exact ⟨[],c,rest,by simp,by simp,blank⟩
        · simp at single

/-- The last of some white space. -/
theorem blanks_last {c : Char} {a : Text} (blank : ∀ d ∈ c :: a, Text.isBlank d = true) :
    ∃ start last, c :: a = start ++ [last] ∧ Text.isBlank last = true ∧ depth start = 0 := by
  obtain ⟨start,last,same⟩ := (List.eq_nil_or_concat (c :: a)).resolve_left (by simp)
  rw [List.concat_eq_append] at same
  rw [same] at blank ⊢
  exact ⟨start,last,rfl,blank last (by simp),depth_of_blank fun d member => blank d (by simp [member])⟩

/-- A union in words in a collapsed text comes from one in the text, at the same depth, with any
white space around its word. -/
theorem collapse_or {t u v : Text} (same : Text.collapse t = u ++ " or " ++ v) :
    ∃ x c d y, t = x ++ c :: 'o' :: 'r' :: d :: y ∧ Text.isBlank c = true ∧
      Text.isBlank d = true ∧ depth x = depth u := by
  have spaced : Text.collapse t = u ++ ' ' :: ("or " ++ v) := by simpa using same
  clear same
  induction t using Text.wordInduction generalizing u with
  | word t unblank =>
    rw [Text.collapse_of_unblank unblank] at spaced
    exact absurd (by simp [spaced]) (not_mem_space unblank)
  | blank word c rest unblank blank ih =>
    cases word with
    | nil =>
      rw [List.nil_append,Text.collapse_blank blank] at spaced
      obtain ⟨x,e,d,y,rfl,before,after,level⟩ := ih spaced
      exact ⟨c :: x,e,d,y,by simp,before,after,by simp [nesting_of_blank blank,level]⟩
    | cons e word =>
      rcases Text.collapse_word (List.cons_ne_nil e word) unblank blank rest with ⟨none,alone⟩ | more
      · have text : e :: word = u ++ ' ' :: ("or " ++ v) := alone.symm.trans spaced
        exact absurd (by simp [text]) (not_mem_space unblank)
      · rw [more] at spaced
        rcases Text.append_cons_cases (not_mem_space unblank) spaced with ⟨rfl,next⟩ | ⟨m,rfl,next⟩
        · obtain ⟨a,d,b,rfl,before,after⟩ := collapse_first (w := "or") (by decide) next
          obtain ⟨start,f,last,white,level⟩ := blanks_last (List.forall_mem_cons.mpr ⟨blank,before⟩)
          have text : c :: (a ++ "or" ++ d :: b) = start ++ f :: 'o' :: 'r' :: d :: b := by
            simpa using congrArg (· ++ 'o' :: 'r' :: d :: b) last
          refine ⟨e :: word ++ start,f,d,b,?_,white,after,by simp [level]⟩
          rw [text,List.append_assoc]
        · obtain ⟨x,f,d,y,rfl,before,after,level⟩ := ih next
          refine ⟨e :: word ++ c :: x,f,d,y,by simp,before,after,?_⟩
          simp [nesting_of_blank blank,level,show nesting ' ' = 0 from rfl]

theorem depth_collapse (t : Text) : depth (Text.collapse t) = depth t := by
  induction t using Text.wordInduction with
  | word t unblank => rw [Text.collapse_of_unblank unblank]
  | blank word c rest unblank blank ih =>
    have level := nesting_of_blank blank
    cases word with
    | nil => simpa [Text.collapse_blank blank,level] using ih
    | cons e word =>
      rcases Text.collapse_word (List.cons_ne_nil e word) unblank blank rest with ⟨none,alone⟩ | more
      · rw [none] at ih
        rw [alone]
        simp [← ih,level]
      · rw [more]
        simp [ih,level,show nesting ' ' = 0 from rfl]

def startsPlain : Text → Bool
  | c :: 'o' :: 'r' :: d :: _ => !(Text.isBlank c && Text.isBlank d) || (c == ' ' && d == ' ')
  | _ => true

/-- Outside brackets the word `or` has a space on each side, and where it has, there are two
alternatives at least. -/
structure Separable (raw : Text) : Prop where
  spaced : ∀ x y, raw = x ++ y → depth x = 0 → startsPlain y = true
  parted : ∀ x y, raw = x ++ " or " ++ y → depth x = 0 → 2 ≤ (alternatives raw).length

theorem separable_iff {raw : Text} : Separable raw ↔
    ∀ i ∈ List.range (raw.length + 1), depth (raw.take i) = 0 → startsPlain (raw.drop i) = true ∧
      (Text.startsWith (raw.drop i) " or " = true → 2 ≤ (alternatives raw).length) := by
  constructor
  · intro separable i _ closed
    have whole := (List.take_append_drop i raw).symm
    refine ⟨separable.spaced _ _ whole closed,fun starts => ?_⟩
    obtain ⟨y,rest⟩ := Text.startsWith_iff.mp starts
    exact separable.parted (raw.take i) y (by rw [List.append_assoc,← rest,← whole]) closed
  · intro each
    have place (x y : Text) (same : raw = x ++ y) (closed : depth x = 0) := by
      have below : x.length < raw.length + 1 := by
        rw [same,List.length_append]
        omega
      have here := each x.length (List.mem_range.mpr below)
      rw [same,List.take_left,List.drop_left] at here
      exact here closed
    refine ⟨fun x y same closed => (place x y same closed).1,fun x y same closed => ?_⟩
    have starts := (place x (" or " ++ y) (by simp [same]) closed).2
    rw [same,List.append_assoc]
    exact starts (Text.startsWith_iff.mpr ⟨y,rfl⟩)

instance (raw : Text) : Decidable (Separable raw) := decidable_of_iff _ separable_iff.symm

theorem startsPlain_of_append {t more : Text} (plain : startsPlain (t ++ more) = true) :
    startsPlain t = true := by
  unfold startsPlain
  split
  · exact plain
  · rfl

/-- What is kept of a text with its white space collapsed has ` or ` in brackets only, as the text has. -/
theorem orsInside_collapse {t : Text}
    (spaced : ∀ x y, t = x ++ y → depth x = 0 → startsPlain y = true) (inside : OrsInside 0 t) :
    OrsInside 0 (Text.collapse t) := by
  intro u v same closed
  obtain ⟨x,c,d,y,rfl,before,after,level⟩ := collapse_or same
  have start : depth x = 0 := by rw [level]; simpa using closed
  have plain : c = ' ' ∧ d = ' ' := by
    simpa [startsPlain,before,after] using spaced x _ rfl start
  obtain ⟨rfl,rfl⟩ := plain
  exact inside x y (by simp) (by simpa using start)

namespace Separable

variable {raw : Text}

theorem alternative (separable : Separable raw) {segment : Text}
    (member : segment ∈ alternatives raw) : OrsInside 0 (Text.collapse segment) := by
  obtain ⟨⟨a,b,rfl,start⟩,inside⟩ := mem_alternatives member
  refine orsInside_collapse (fun x y same closed => ?_) inside
  exact startsPlain_of_append (separable.spaced (a ++ x) (y ++ b) (by simp [same])
    (by simp [start,closed]))

theorem alone (separable : Separable raw) (few : (alternatives raw).length < 2) :
    OrsInside 0 (Text.collapse raw) := by
  refine orsInside_collapse separable.spaced fun u v same closed => ?_
  have := separable.parted u v same (by simpa using closed)
  omega

end Separable

end LuaStubs.Phrase
