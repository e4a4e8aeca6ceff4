import LuaStubs.Text.Basic

/-! Laws of the cuts in a text. A cut is known by two equations: it separates at a character of its
class, and it leaves a text without such a character whole. -/
namespace LuaStubs.Text

/-- What is said of all characters of a text is decided one by one, whatever is known of the type. -/
instance decideAll {holds : Char → Prop} [DecidablePred holds] (t : Text) :
    Decidable (∀ c ∈ t, holds c) := List.decidableBAll holds t

theorem alpha_bounds {c : Char} (alpha : c.isAlpha = true) :
    (65 ≤ c.toNat ∧ c.toNat ≤ 90) ∨ 97 ≤ c.toNat ∧ c.toNat ≤ 122 := by
  unfold Char.isAlpha Char.isUpper Char.isLower at alpha
  simp only [Bool.or_eq_true,Bool.and_eq_true,decide_eq_true_eq,ge_iff_le,
    UInt32.le_iff_toNat_le] at alpha
  exact alpha

theorem digit_bounds {c : Char} (digit : c.isDigit = true) : 48 ≤ c.toNat ∧ c.toNat ≤ 57 := by
  unfold Char.isDigit at digit
  simp only [Bool.and_eq_true,decide_eq_true_eq,ge_iff_le,UInt32.le_iff_toNat_le] at digit
  exact digit

/-- The first of a mark is where the text before it holds none. -/
theorem append_cons_cases {mark : Char} {a x u y : Text} (none : mark ∉ a)
    (same : a ++ mark :: x = u ++ mark :: y) :
    (u = a ∧ x = y) ∨ ∃ m, u = a ++ mark :: m ∧ x = m ++ mark :: y := by
  rcases List.append_eq_append_iff.mp same with ⟨m,rfl,rest⟩ | ⟨m,rfl,rest⟩
  · cases m with
    | nil => exact Or.inl ⟨by simp,(List.cons.inj rest).2⟩
    | cons c m =>
      obtain ⟨rfl,rfl⟩ := List.cons.inj rest
      exact Or.inr ⟨m,rfl,rfl⟩
  · cases m with
    | nil => exact Or.inl ⟨by simp,(List.cons.inj rest).2.symm⟩
    | cons c m =>
      obtain ⟨rfl,_⟩ := List.cons.inj rest
      simp at none

/-- A word that does not hold a mark stands before it or behind it. -/
theorem append_cons_occurrence {mark : Char} {a b u w v : Text} (none : mark ∉ w)
    (same : a ++ mark :: b = u ++ w ++ v) :
    (∃ rest, a = u ++ w ++ rest) ∨ ∃ m, u = a ++ mark :: m ∧ b = m ++ w ++ v := by
  rcases List.append_eq_append_iff.mp same with ⟨m,before,rest⟩ | ⟨m,rfl,_⟩
  · cases m with
    | nil => exact Or.inl ⟨[],by simpa using before.symm⟩
    | cons c m =>
      obtain ⟨rfl,rfl⟩ := List.cons.inj rest
      rcases List.append_eq_append_iff.mp before with ⟨n,rfl,cut⟩ | ⟨n,rfl,cut⟩
      · exact absurd (by simp [cut]) none
      · cases n with
        | nil => exact absurd (by simp [← show mark :: m = w from cut]) none
        | cons d n =>
          obtain ⟨rfl,rfl⟩ := List.cons.inj cut
          exact Or.inr ⟨n,rfl,by simp⟩
  · exact Or.inl ⟨m,rfl⟩

theorem splitAt_ne_nil (cut : Char → Bool) (t : Text) : splitAt cut t ≠ [] := by
  induction t with
  | nil => simp [splitAt]
  | cons c t ih =>
    simp only [splitAt]
    split
    · simp
    · split <;> simp

theorem splitAt_cons_of_uncut {cut : Char → Bool} {c : Char} (uncut : cut c = false) {t : Text}
    {piece : Text} {rest : List Text} (pieces : splitAt cut t = piece :: rest) :
    splitAt cut (c :: t) = (c :: piece) :: rest := by
  simp [splitAt,uncut,pieces]

theorem splitAt_append_cons {cut : Char → Bool} {c : Char} (cuts : cut c = true) (a b : Text) :
    splitAt cut (a ++ c :: b) = splitAt cut a ++ splitAt cut b := by
  induction a with
  | nil => simp [splitAt,cuts]
  | cons d a ih =>
    obtain ⟨piece,rest,pieces⟩ := List.exists_cons_of_ne_nil (splitAt_ne_nil cut a)
    by_cases here : cut d = true
    · simp [splitAt,here,ih]
    · have uncut : cut d = false := Bool.eq_false_iff.mpr here
      have joined : splitAt cut (a ++ c :: b) = piece :: (rest ++ splitAt cut b) := by
        rw [ih,pieces,List.cons_append]
      rw [List.cons_append,splitAt_cons_of_uncut uncut joined,splitAt_cons_of_uncut uncut pieces,
        List.cons_append]

theorem splitAt_of_uncut {cut : Char → Bool} {t : Text} (uncut : ∀ c ∈ t, cut c = false) :
    splitAt cut t = [t] := by
  induction t with
  | nil => rfl
  | cons c t ih =>
    exact splitAt_cons_of_uncut (uncut c (by simp)) (ih fun d member => uncut d (by simp [member]))

/-- The pieces hold what was not cut away, and nothing that was. -/
theorem mem_splitAt {cut : Char → Bool} {t piece : Text} (member : piece ∈ splitAt cut t) :
    ∀ c ∈ piece, c ∈ t ∧ cut c = false := by
  induction t generalizing piece with
  | nil =>
    have empty : piece = [] := by simpa [splitAt] using member
    simp [empty]
  | cons d t ih =>
    obtain ⟨first,rest,pieces⟩ := List.exists_cons_of_ne_nil (splitAt_ne_nil cut t)
    have inherited : ∀ other ∈ splitAt cut t, ∀ c ∈ other, c ∈ d :: t ∧ cut c = false := by
      intro other inner c inside
      exact ⟨List.mem_cons_of_mem _ (ih inner c inside).1, (ih inner c inside).2⟩
    by_cases here : cut d = true
    · rcases List.mem_cons.mp (by simpa [splitAt,here] using member) with rfl | later
      · simp
      · exact inherited piece later
    · have uncut : cut d = false := Bool.eq_false_iff.mpr here
      rw [splitAt_cons_of_uncut uncut pieces] at member
      rcases List.mem_cons.mp member with rfl | later
      · intro c inside
        rcases List.mem_cons.mp inside with rfl | further
        · exact ⟨by simp,uncut⟩
        · exact inherited first (by simp [pieces]) c further
      · exact inherited piece (by simp [pieces,later])

theorem words_append_blank {c : Char} (blank : isBlank c = true) (a b : Text) :
    words (a ++ c :: b) = words a ++ words b := by
  simp [words,splitAt_append_cons blank]

@[simp] theorem words_nil : words [] = [] := rfl

theorem words_cons_blank {c : Char} (blank : isBlank c = true) (t : Text) :
    words (c :: t) = words t := by
  simpa using words_append_blank blank [] t

theorem words_of_unblank {t : Text} (nonempty : t ≠ []) (unblank : ∀ c ∈ t, isBlank c = false) :
    words t = [t] := by
  simp [words,splitAt_of_uncut unblank,nonempty]

theorem words_ne_nil {t : Text} {c : Char} (member : c ∈ t) (unblank : isBlank c = false) :
    words t ≠ [] := by
  induction t with
  | nil => simp at member
  | cons d t ih =>
    obtain ⟨first,rest,pieces⟩ := List.exists_cons_of_ne_nil (splitAt_ne_nil isBlank t)
    by_cases blank : isBlank d = true
    · rw [words_cons_blank blank]
      apply ih
      rcases List.mem_cons.mp member with rfl | later
      · simp [unblank] at blank
      · exact later
    · simp [words,splitAt_cons_of_uncut (Bool.eq_false_iff.mpr blank) pieces]

theorem mem_words {t word : Text} (member : word ∈ words t) :
    word ≠ [] ∧ ∀ c ∈ word, c ∈ t ∧ isBlank c = false := by
  obtain ⟨piece,nonempty⟩ := List.mem_filter.mp member
  exact ⟨by simpa using nonempty,mem_splitAt piece⟩

@[simp] theorem join_nil (sep : Text) : join sep [] = [] := rfl

@[simp] theorem join_singleton (sep piece : Text) : join sep [piece] = piece := by
  simp [join]

@[simp] theorem join_cons_cons (sep first second : Text) (rest : List Text) :
    join sep (first :: second :: rest) = first ++ sep ++ join sep (second :: rest) := by
  simp [join,List.intercalate_cons_cons]

theorem mem_join {sep : Text} {pieces : List Text} {c : Char} (member : c ∈ join sep pieces) :
    c ∈ sep ∨ ∃ piece ∈ pieces, c ∈ piece := by
  induction pieces with
  | nil => simp at member
  | cons first rest ih =>
    cases rest with
    | nil => exact Or.inr ⟨first,by simp,by simpa using member⟩
    | cons second rest =>
      rw [join_cons_cons,List.mem_append,List.mem_append] at member
      rcases member with (inside | separator) | later
      · exact Or.inr ⟨first,by simp,inside⟩
      · exact Or.inl separator
      · rcases ih later with separator | ⟨piece,among,inside⟩
        · exact Or.inl separator
        · exact Or.inr ⟨piece,List.mem_cons_of_mem _ among,inside⟩

theorem mem_collapse {t : Text} {c : Char} (member : c ∈ collapse t) :
    c = ' ' ∨ c ∈ t ∧ isBlank c = false := by
  rcases mem_join member with separator | ⟨word,among,inside⟩
  · exact Or.inl (by simpa using separator)
  · exact Or.inr ((mem_words among).2 c inside)

theorem wordInduction {motive : Text → Prop}
    (word : ∀ t, (∀ c ∈ t, isBlank c = false) → motive t)
    (blank : ∀ a c b, (∀ d ∈ a, isBlank d = false) → isBlank c = true → motive b →
      motive (a ++ c :: b)) (t : Text) : motive t := by
  have behind (a : Text) (unblank : ∀ c ∈ a, isBlank c = false) : motive (a ++ t) := by
    induction t generalizing a with
    | nil => exact word _ (by simpa using unblank)
    | cons c t ih =>
      cases white : isBlank c with
      | true => exact blank a c t unblank white (ih [] (by simp))
      | false =>
        rw [List.append_cons]
        refine ih _ fun d member => ?_
        rcases List.mem_append.mp member with inside | last
        · exact unblank d inside
        · exact List.mem_singleton.mp last ▸ white
  exact behind [] (by simp)

theorem collapse_of_unblank {t : Text} (unblank : ∀ c ∈ t, isBlank c = false) : collapse t = t := by
  cases t with
  | nil => rfl
  | cons c t => rw [collapse,words_of_unblank (by simp) unblank,join_singleton]

theorem collapse_blank {c : Char} (blank : isBlank c = true) (t : Text) : collapse (c :: t) = collapse t := by
  rw [collapse,words_cons_blank blank,collapse]

/-- A word and what follows it. -/
theorem collapse_word {w : Text} {c : Char} (nonempty : w ≠ []) (unblank : ∀ d ∈ w, isBlank d = false)
    (blank : isBlank c = true) (t : Text) : collapse t = [] ∧ collapse (w ++ c :: t) = w ∨
      collapse (w ++ c :: t) = w ++ ' ' :: collapse t := by
  unfold collapse
  rw [words_append_blank blank,words_of_unblank nonempty unblank,List.singleton_append]
  cases words t with
  | nil => simp
  | cons first rest => simp

theorem trimStart_cons {c : Char} (unblank : isBlank c = false) (t : Text) :
    trimStart (c :: t) = c :: t := by
  simp [trimStart,unblank]

structure Trimmed (t : Text) : Prop where
  head : ∀ c ∈ t.head?, isBlank c = false
  last : ∀ c ∈ t.getLast?, isBlank c = false

theorem Trimmed.trimStart {t : Text} (trimmed : Trimmed t) : trimStart t = t := by
  cases t with
  | nil => rfl
  | cons c t => exact trimStart_cons (trimmed.head c (by simp)) t

theorem Trimmed.trimEnd {t : Text} (trimmed : Trimmed t) : trimEnd t = t := by
  rcases List.eq_nil_or_concat t with rfl | ⟨start,c,rfl⟩
  · rfl
  · have unblank := trimmed.last c (by simp)
    simp [Text.trimEnd,unblank]

theorem Trimmed.trim {t : Text} (trimmed : Trimmed t) : trim t = t := by
  rw [Text.trim,trimmed.trimStart,trimmed.trimEnd]

theorem trimmed_of_unblank {t : Text} (unblank : ∀ c ∈ t, isBlank c = false) : Trimmed t :=
  ⟨fun c head => unblank c (List.mem_of_head? head),
    fun c last => unblank c (List.mem_of_getLast? last)⟩

theorem Trimmed.append {a b : Text} (between : Text) (first : Trimmed a) (nonempty : a ≠ [])
    (last : Trimmed b) (some : b ≠ []) : Trimmed (a ++ between ++ b) := by
  obtain ⟨d,a,rfl⟩ := List.exists_cons_of_ne_nil nonempty
  refine ⟨first.head,?_⟩
  obtain ⟨start,e,rfl⟩ := (List.eq_nil_or_concat b).resolve_left some
  simpa [List.getLast?_cons] using last.last

theorem Trimmed.append_cons {a b : Text} (c : Char) (first : Trimmed a) (nonempty : a ≠ [])
    (last : Trimmed b) (some : b ≠ []) : Trimmed (a ++ c :: b) := by
  rw [List.append_cons]
  exact first.append [c] nonempty last some

theorem join_ne_nil {sep : Text} {parts : List Text} (some : parts ≠ [])
    (each : ∀ part ∈ parts, part ≠ []) : join sep parts ≠ [] := by
  obtain ⟨first,rest,rfl⟩ := List.exists_cons_of_ne_nil some
  have here := each first (by simp)
  cases rest with
  | nil => simpa using here
  | cons second rest => simp [here]

theorem Trimmed.join {sep : Text} {parts : List Text} (each : ∀ part ∈ parts, Trimmed part)
    (nonempty : ∀ part ∈ parts, part ≠ []) : Trimmed (Text.join sep parts) := by
  induction parts with
  | nil => exact ⟨by simp,by simp⟩
  | cons first rest ih =>
    have here := each first (by simp)
    cases rest with
    | nil => simpa using here
    | cons second rest =>
      have others : ∀ part ∈ second :: rest, part ≠ [] := fun part member =>
        nonempty part (List.mem_cons_of_mem _ member)
      have later := ih (fun part member => each part (List.mem_cons_of_mem _ member)) others
      rw [join_cons_cons]
      exact here.append sep (nonempty first (by simp)) later (join_ne_nil (by simp) others)

/-- Where a part stands in a joined text: at its start or behind a separator, and before its end or
another separator. -/
theorem join_split (sep : Text) {part : Text} {parts : List Text} (member : part ∈ parts) :
    ∃ u v, join sep parts = u ++ part ++ v ∧ (u = [] ∨ ∃ start, u = start ++ sep) ∧
      (v = [] ∨ ∃ rest, v = sep ++ rest) := by
  induction parts with
  | nil => simp at member
  | cons first rest ih =>
    cases rest with
    | nil =>
      obtain rfl := List.mem_singleton.mp member
      exact ⟨[],[],by simp,Or.inl rfl,Or.inl rfl⟩
    | cons second rest =>
      rw [join_cons_cons]
      rcases List.mem_cons.mp member with rfl | later
      · exact ⟨[],sep ++ join sep (second :: rest),by simp,Or.inl rfl,Or.inr ⟨_,rfl⟩⟩
      · obtain ⟨u,v,same,begins,ends⟩ := ih later
        refine ⟨first ++ sep ++ u,v,by simp [same],Or.inr ?_,ends⟩
        rcases begins with rfl | ⟨start,rfl⟩
        · exact ⟨first,by simp⟩
        · exact ⟨first ++ sep ++ start,by simp⟩

theorem trimEnd_append_blank {c : Char} (blank : isBlank c = true) (t : Text) :
    trimEnd (t ++ [c]) = trimEnd t := by
  simp [trimEnd,blank]

theorem trim_append_blank {c : Char} (blank : isBlank c = true) (t : Text) :
    trim (t ++ [c]) = trim t := by
  rw [trim,trimStart,List.dropWhile_append]
  split
  · rename_i none
    have empty : trimStart t = [] := List.isEmpty_iff.mp none
    simp [trim,empty,blank]
  · rw [trimEnd_append_blank blank]
    rfl

theorem trim_cons_blank {c : Char} (blank : isBlank c = true) (t : Text) : trim (c :: t) = trim t := by
  simp [trim,trimStart,blank]

theorem trimStart_trimStart (t : Text) : trimStart (trimStart t) = trimStart t := by
  induction t with
  | nil => rfl
  | cons c t ih =>
    cases blank : isBlank c with
    | true => simpa [trimStart,blank] using ih
    | false => simp [trimStart,blank]

theorem trimEnd_trimEnd (t : Text) : trimEnd (trimEnd t) = trimEnd t := by
  have again := trimStart_trimStart t.reverse
  unfold trimStart at again
  simp [trimEnd,again]

/-- Only what stands before and behind a trimmed text is trimmed off. -/
theorem Trimmed.trimStart_around {w : Text} (trimmed : Trimmed w) (some : w ≠ []) (u v : Text) :
    Text.trimStart (u ++ w ++ v) = Text.trimStart u ++ w ++ v := by
  obtain ⟨c,w,rfl⟩ := List.exists_cons_of_ne_nil some
  have unblank := trimmed.head c (by simp)
  rw [List.append_assoc,Text.trimStart,List.dropWhile_append]
  split
  · rename_i none
    have empty : Text.trimStart u = [] := List.isEmpty_iff.mp none
    simp [empty,unblank]
  · simp [Text.trimStart]

theorem Trimmed.trimEnd_around {w : Text} (trimmed : Trimmed w) (some : w ≠ []) (u v : Text) :
    Text.trimEnd (u ++ w ++ v) = u ++ w ++ Text.trimEnd v := by
  have reversed : Trimmed w.reverse := ⟨by simpa using trimmed.last,by simpa using trimmed.head⟩
  have around := reversed.trimStart_around (by simpa using some) v.reverse u.reverse
  unfold Text.trimStart at around
  simp [Text.trimEnd,List.append_assoc] at around ⊢
  simp [around]

theorem Trimmed.trim_around {w : Text} (trimmed : Trimmed w) (some : w ≠ []) (u v : Text) :
    Text.trim (u ++ w ++ v) = Text.trimStart u ++ w ++ Text.trimEnd v := by
  rw [Text.trim,trimmed.trimStart_around some,trimmed.trimEnd_around some]

theorem trimEnd_cons_ne_nil {c : Char} (unblank : isBlank c = false) (t : Text) :
    trimEnd (c :: t) ≠ [] := by
  rw [trimEnd,List.reverse_cons,List.dropWhile_append]
  split
  · simp [unblank]
  · simp

theorem eq_trimStart (t : Text) : ∃ a, t = a ++ trimStart t ∧ ∀ c ∈ a, isBlank c = true :=
  ⟨t.takeWhile isBlank,List.takeWhile_append_dropWhile.symm,List.all_eq_true.mp List.all_takeWhile⟩

theorem eq_trimEnd (t : Text) : ∃ b, t = trimEnd t ++ b ∧ ∀ c ∈ b, isBlank c = true := by
  obtain ⟨a,reversed,blank⟩ := eq_trimStart t.reverse
  refine ⟨a.reverse,?_,by simpa using blank⟩
  rw [trimEnd,← List.reverse_append]
  exact List.reverse_eq_iff.mp reversed

/-- What is trimmed off is white space. -/
theorem eq_trim (t : Text) : ∃ a b, t = a ++ trim t ++ b ∧ (∀ c ∈ a, isBlank c = true) ∧
    ∀ c ∈ b, isBlank c = true := by
  obtain ⟨a,start,before⟩ := eq_trimStart t
  obtain ⟨b,rest,after⟩ := eq_trimEnd (trimStart t)
  refine ⟨a,b,?_,before,after⟩
  rw [List.append_assoc,trim,← rest,← start]

theorem after_append (start t : Text) : after start (start ++ t) = some t := by
  induction start with
  | nil => rfl
  | cons c start ih => simp [after,ih]

theorem eq_append_of_after {start t rest : Text} (found : after start t = some rest) :
    t = start ++ rest := by
  induction start generalizing t with
  | nil => exact Option.some.inj found
  | cons s start ih =>
    cases t with
    | nil => simp [after] at found
    | cons c t =>
      rw [after] at found
      split at found
      · rename_i same
        rw [eq_of_beq same,List.cons_append,ih found]
      · simp at found

theorem startsWith_iff {t start : Text} : startsWith t start = true ↔ ∃ rest, t = start ++ rest := by
  constructor
  · intro starts
    obtain ⟨rest,found⟩ := Option.isSome_iff_exists.mp starts
    exact ⟨rest,eq_append_of_after found⟩
  · rintro ⟨rest,rfl⟩
    simp [startsWith,after_append]

theorem endsWith_iff {t ending : Text} : endsWith t ending = true ↔ ending <:+ t := by
  rw [endsWith,startsWith_iff]
  constructor
  · rintro ⟨rest,reversed⟩
    exact ⟨rest.reverse,by simpa using (congrArg List.reverse reversed).symm⟩
  · rintro ⟨start,rfl⟩
    exact ⟨start.reverse,List.reverse_append⟩

end LuaStubs.Text
