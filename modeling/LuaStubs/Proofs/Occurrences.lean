import LuaStubs.Proofs.Text
import LuaStubs.Tag.Types

/-! Where a word stands in the text of a type. `FieldOnly` is kept by the ways in which types are put
together, and where it holds, the scans for fragments and for unions in words find nothing. -/
namespace LuaStubs.Tag

structure IsRun (word : Text) : Prop where
  nonempty : word ≠ []
  path : ∀ c ∈ word, isPathChar c = true

/-- Where `word` stands with no part of a name beside it, it is the name of a field. -/
def FieldOnly (word t : Text) : Prop := ∀ u v, t = u ++ word ++ v →
  (∀ c ∈ u.getLast?, isPathChar c = false) → (∀ c ∈ v.head?, isPathChar c = false) →
    v.head? = some ':'

namespace FieldOnly

variable {word a b : Text}

theorem of_run (run : IsRun a) (other : a ≠ word) : FieldOnly word a := by
  intro u v same left right
  have first : u = [] := by
    rcases List.eq_nil_or_concat u with rfl | ⟨before,last,rfl⟩
    · rfl
    · have path := run.path last (by simp [same])
      simp [left last (by simp)] at path
  have rest : v = [] := by
    cases v with
    | nil => rfl
    | cons c v =>
      have path := run.path c (by simp [same])
      simp [right c (by simp)] at path
  subst first rest
  exact absurd (by simpa using same) other

theorem of_marks (run : IsRun word) (marks : ∀ c ∈ a, isPathChar c = false) : FieldOnly word a := by
  intro u v same _ _
  obtain ⟨c,rest,rfl⟩ := List.exists_cons_of_ne_nil run.nonempty
  have path := run.path c (by simp)
  simp [marks c (by simp [same])] at path

/-- Two texts with a mark at the seam: an occurrence is on one side of it. -/
theorem append (first : FieldOnly word a) (run : IsRun word) (second : FieldOnly word b)
    (seam : (∃ c ∈ a.getLast?, isPathChar c = false) ∨ ∃ c ∈ b.head?, isPathChar c = false) :
    FieldOnly word (a ++ b) := by
  intro u v same left right
  rw [List.append_assoc,List.append_eq_append_iff] at same
  rcases same with ⟨before,rfl,rfl⟩ | ⟨after,rfl,cut⟩
  · refine second before v (by simp) ?_ right
    intro c last
    exact left c (by simp [Option.mem_def.mp last])
  rw [List.append_eq_append_iff] at cut
  rcases cut with ⟨more,rfl,rfl⟩ | ⟨more,rfl,rfl⟩
  · have next : more.head? = some ':' := by
      refine first u more (by simp) left ?_
      intro c head
      exact right c (by simp [Option.mem_def.mp head])
    simp [next]
  · -- the word would end behind the seam
    cases more with
    | nil => simpa using first u [] (by simp) left (by simp)
    | cons d more =>
      rcases List.eq_nil_or_concat after with rfl | ⟨start,last,rfl⟩
      · exact second [] v (by simp) (by simp) right
      · have before : isPathChar last = true := run.path last (by simp)
        have behind : isPathChar d = true := run.path d (by simp)
        simp [before,behind] at seam

/-- Two texts with marks between them. -/
theorem append_marks (first : FieldOnly word a) (run : IsRun word) {marks : Text}
    (some : marks ≠ []) (each : ∀ c ∈ marks, isPathChar c = false) (second : FieldOnly word b) :
    FieldOnly word (a ++ marks ++ b) := by
  refine (first.append run (of_marks run each) (Or.inr ?_)).append run second (Or.inl ?_)
  · obtain ⟨c,rest,rfl⟩ := List.exists_cons_of_ne_nil some
    exact ⟨c,rfl,each c (by simp)⟩
  · obtain ⟨start,c,rfl⟩ := (List.eq_nil_or_concat marks).resolve_left some
    exact ⟨c,by simp,each c (by simp)⟩

theorem join (run : IsRun word) {sep : Text} {parts : List Text} (some : sep ≠ [])
    (marks : ∀ c ∈ sep, isPathChar c = false) (each : ∀ part ∈ parts, FieldOnly word part) :
    FieldOnly word (Text.join sep parts) := by
  induction parts with
  | nil => exact of_marks run (by simp)
  | cons first rest ih =>
    have here := each first (by simp)
    have later := ih fun part member => each part (by simp [member])
    cases rest with
    | nil => simpa using here
    | cons second rest =>
      rw [Text.join_cons_cons]
      exact here.append_marks run some marks later

theorem of_fieldName (run : IsRun word) {name : Text} (path : ∀ c ∈ name, isPathChar c = true) :
    FieldOnly word (name ++ ":") := by
  intro u v same _ right
  rcases List.eq_nil_or_concat v with rfl | ⟨more,last,rfl⟩
  · -- the word would end in the colon
    obtain ⟨start,c,rfl⟩ := (List.eq_nil_or_concat word).resolve_left run.nonempty
    have colon : ':' = c := by simpa using congrArg List.getLast? same
    exact absurd (run.path c (by simp)) (colon ▸ by decide)
  · have ends : name ++ [':'] = (u ++ word ++ more) ++ [last] := by simpa using same
    obtain ⟨rfl,_⟩ := List.append_inj' ends rfl
    cases more with
    | nil => simpa using congrArg List.getLast? ends.symm
    | cons d more =>
      have part := path d (by simp)
      simp [right d (by simp)] at part

/-- The name of a field, then its type. -/
theorem field (run : IsRun word) {name type : Text} (path : ∀ c ∈ name, isPathChar c = true)
    (typed : FieldOnly word type) : FieldOnly word (name ++ ": " ++ type) := by
  have text : name ++ ": " ++ type = name ++ ":" ++ " " ++ type := by simp
  rw [text]
  exact (of_fieldName run path).append_marks run (by decide) (by decide) typed

theorem ne (fields : FieldOnly word a) : a ≠ word := by
  rintro rfl
  simpa using fields [] [] (by simp) (by simp) (by simp)

end FieldOnly

theorem anyOccurrence_cases {word : Text} {holds : Option Char → Text → Bool} {skip : Nat}
    {before : Option Char} {t : Text} (found : anyOccurrence word holds skip before t = true) :
    ∃ u v, t = u ++ word ++ v ∧ holds (u.getLast?.or before) (word ++ v) = true := by
  induction t generalizing skip before with
  | nil =>
    cases skip with
    | zero =>
      simp only [anyOccurrence,Bool.and_eq_true,List.isEmpty_iff] at found
      exact ⟨[],[],by simp [found.1],by simpa [found.1] using found.2⟩
    | succ skip => simp [anyOccurrence] at found
  | cons c rest ih =>
    have later {skip : Nat} (found : anyOccurrence word holds skip (some c) rest = true) :
        ∃ u v, c :: rest = u ++ word ++ v ∧ holds (u.getLast?.or before) (word ++ v) = true := by
      obtain ⟨u,v,rfl,here⟩ := ih found
      refine ⟨c :: u,v,by simp,?_⟩
      rwa [List.getLast?_cons,Option.some_or,← Option.or_some]
    cases skip with
    | zero =>
      rw [anyOccurrence] at found
      split at found
      · rename_i starts
        rcases (Bool.or_eq_true _ _).mp found with here | behind
        · obtain ⟨v,same⟩ := Text.startsWith_iff.mp starts
          exact ⟨[],v,by simp [same],by simpa [← same] using here⟩
        · exact later behind
      · exact later found
    | succ skip => exact later found

/-- An occurrence is not passed by where no end of what stands before it begins the word. -/
theorem anyOccurrence_of_apart {word : Text} {holds : Option Char → Text → Bool}
    (nonempty : word ≠ []) {u v : Text} {skip : Nat} {before : Option Char}
    (apart : ∀ a b, u = a ++ b → b ≠ [] → ¬ b <+: word) (short : skip ≤ u.length)
    (here : holds (u.getLast?.or before) (word ++ v) = true) :
    anyOccurrence word holds skip before (u ++ word ++ v) = true := by
  induction u generalizing skip before with
  | nil =>
    obtain rfl : skip = 0 := by simpa using short
    obtain ⟨c,rest,rfl⟩ := List.exists_cons_of_ne_nil nonempty
    have starts : Text.startsWith (c :: (rest ++ v)) (c :: rest) = true :=
      Text.startsWith_iff.mpr ⟨v,rfl⟩
    rw [List.nil_append,List.cons_append,anyOccurrence,if_pos starts,Bool.or_eq_true]
    exact Or.inl (by simpa using here)
  | cons c u ih =>
    have later {skip : Nat} (short : skip ≤ u.length) :
        anyOccurrence word holds skip (some c) (u ++ word ++ v) = true := by
      refine ih (fun a b cut => apart (c :: a) b (by simp [cut])) short ?_
      rwa [List.getLast?_cons,Option.some_or,← Option.or_some] at here
    cases skip with
    | zero =>
      rw [List.cons_append,List.cons_append,anyOccurrence]
      split
      · rename_i starts
        obtain ⟨rest,same⟩ := Text.startsWith_iff.mp starts
        have cut : (c :: u) ++ (word ++ v) = word ++ rest := by simpa using same
        rw [Bool.or_eq_true]
        refine Or.inr (later ?_)
        -- what is skipped ends before the occurrence, or it would begin the word
        rcases List.append_eq_append_iff.mp cut with ⟨more,whole,_⟩ | ⟨more,whole,_⟩
        · exact absurd ⟨more,whole.symm⟩ (apart [] (c :: u) rfl (List.cons_ne_nil c u))
        · have length := congrArg List.length whole
          simp only [List.length_cons,List.length_append] at length
          omega
      · exact later (Nat.zero_le _)
    | succ skip => exact later (by simpa using short)

/-- Behind a mark no part of a name has been skipped. -/
theorem anyOccurrence_of_split {word : Text} {holds : Option Char → Text → Bool} (run : IsRun word)
    {u v : Text} {skip : Nat} {before : Option Char} (left : ∀ c ∈ u.getLast?, isPathChar c = false)
    (short : skip ≤ u.length) (here : holds (u.getLast?.or before) (word ++ v) = true) :
    anyOccurrence word holds skip before (u ++ word ++ v) = true := by
  refine anyOccurrence_of_apart run.nonempty (fun a b cut some begins => ?_) short here
  obtain ⟨start,d,rfl⟩ := (List.eq_nil_or_concat b).resolve_left some
  have part := run.path d (begins.subset (by simp))
  simp [left d (by simp [cut])] at part

theorem hasBareFragment_iff {word t : Text} {completions : List Text} (run : IsRun word) :
    hasBareFragment t word completions = true ↔
      ∃ u v, t = u ++ word ++ v ∧ isBare word completions u.getLast? (word ++ v) = true := by
  constructor
  · intro found
    obtain ⟨u,v,same,bare⟩ := anyOccurrence_cases found
    exact ⟨u,v,same,by simpa using bare⟩
  · rintro ⟨u,v,rfl,bare⟩
    have left : ∀ c ∈ u.getLast?, isPathChar c = false := by
      simp only [isBare,Bool.and_eq_true,Bool.not_eq_true',Option.any_eq_false] at bare
      simpa using bare.1.1.1
    exact anyOccurrence_of_split run left (Nat.zero_le _) (by simpa using bare)

theorem hasBareFragment_eq_false {word t : Text} {completions : List Text}
    (fields : FieldOnly word t) : hasBareFragment t word completions = false := by
  refine Bool.eq_false_iff.mpr fun found => ?_
  obtain ⟨u,v,same,bare⟩ := anyOccurrence_cases found
  simp only [isBare,List.drop_left,Option.or_none,Bool.and_eq_true,Bool.not_eq_true',
    Option.any_eq_false] at bare
  obtain ⟨⟨⟨left,right⟩,colon⟩,_⟩ := bare
  have next := fields u v same (by simpa using left) (by simpa using right)
  obtain ⟨rest,rfl⟩ := List.head?_eq_some_iff.mp next
  rw [Text.trimStart_cons (by decide)] at colon
  simp [Text.startsWith,Text.after] at colon

def braceDepth : Text → Int
  | [] => 0
  | c :: t => braceNesting c + braceDepth t

theorem hasOrAt_iff {before : Int} {t : Text} : hasOrAt before t = true ↔
    ∃ u v, t = u ++ " or " ++ v ∧ before + braceDepth u = 0 := by
  induction t generalizing before with
  | nil => simp [hasOrAt]
  | cons c rest ih =>
    rw [hasOrAt,Bool.or_eq_true,ih]
    simp only [Bool.and_eq_true,beq_iff_eq,Text.startsWith_iff]
    constructor
    · rintro (⟨⟨rfl,level⟩,v,rfl⟩ | ⟨u,v,rfl,level⟩)
      · exact ⟨[],v,by simp,by simpa [braceDepth] using level⟩
      · exact ⟨c :: u,v,by simp,by simpa [braceDepth,Int.add_assoc] using level⟩
    · rintro ⟨u,v,same,level⟩
      cases u with
      | nil =>
        obtain ⟨rfl,rfl⟩ := List.cons.inj same
        exact Or.inl ⟨⟨rfl,by simpa [braceDepth] using level⟩,v,rfl⟩
      | cons d u =>
        obtain ⟨rfl,rfl⟩ := List.cons.inj same
        exact Or.inr ⟨u,v,by simp,by simpa [braceDepth,Int.add_assoc] using level⟩

theorem hasTopLevelOr_iff {t : Text} :
    hasTopLevelOr t = true ↔ ∃ u v, t = u ++ " or " ++ v ∧ braceDepth u = 0 := by
  rw [hasTopLevelOr,hasOrAt_iff]
  simp

theorem hasTopLevelOr_eq_false {t : Text} (fields : FieldOnly "or" t) : hasTopLevelOr t = false := by
  refine Bool.eq_false_iff.mpr fun found => ?_
  obtain ⟨u,v,same,_⟩ := hasTopLevelOr_iff.mp found
  have colon := fields (u ++ " ") (" " ++ v) (by simp [same]) (by simp; decide) (by simp; decide)
  simp at colon

end LuaStubs.Tag
