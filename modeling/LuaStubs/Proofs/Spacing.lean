import LuaStubs.Proofs.Fragments
import LuaStubs.Proofs.Structures

/-! White space in written types. The words of a text and the brackets around them say where it is cut
into alternatives, if the word between alternatives is set apart by plain spaces; then the type does not
depend on the white space. -/
namespace LuaStubs

namespace Text

theorem trimmed_collapse (t : Text) : Trimmed (collapse t) :=
  .join (fun _ member => trimmed_of_unblank fun c inside => ((mem_words member).2 c inside).2)
    fun _ member => (mem_words member).1

structure Tidy (t : Text) : Prop where
  collapsed : collapse t = t
  nonempty : t ≠ []

namespace Tidy

variable {a b : Text}

theorem of_unblank (nonempty : a ≠ []) (unblank : ∀ c ∈ a, isBlank c = false) : Tidy a :=
  ⟨collapse_of_unblank unblank,nonempty⟩

theorem words_ne_nil (tidy : Tidy a) : words a ≠ [] := by
  intro none
  apply tidy.nonempty
  rw [← tidy.collapsed,collapse,none,join_nil]

theorem space (first : Tidy a) (second : Tidy b) : Tidy (a ++ ' ' :: b) := by
  refine ⟨?_,by simp⟩
  calc collapse (a ++ ' ' :: b)
    _ = collapse a ++ " " ++ collapse b := by
      rw [collapse,words_append_blank (by decide),join_append _ first.words_ne_nil second.words_ne_nil]
      rfl
    _ = a ++ ' ' :: b := by rw [first.collapsed,second.collapsed]; simp

/-- The white space behind the first word is one space, and more follows. -/
theorem behind_word {w : Text} {c : Char} (nonempty : w ≠ []) (unblank : ∀ d ∈ w, isBlank d = false)
    (blank : isBlank c = true) (tidy : Tidy (w ++ c :: b)) : c = ' ' ∧ Tidy b := by
  have same := tidy.collapsed
  rcases collapse_word nonempty unblank blank b with ⟨_,alone⟩ | more
  · rw [alone] at same
    simp at same
  · rw [more] at same
    obtain ⟨space,collapsed⟩ := List.cons.inj (List.append_cancel_left same)
    refine ⟨space.symm,collapsed,?_⟩
    rintro rfl
    have last := (trimmed_collapse (w ++ [c])).last c (by rw [tidy.collapsed]; simp)
    rw [blank] at last
    contradiction

theorem head_unblank {c : Char} (tidy : Tidy (c :: a)) : isBlank c = false :=
  (trimmed_collapse (c :: a)).head c (by rw [tidy.collapsed]; rfl)

theorem append_word {w : Text} (unblank : ∀ c ∈ w, isBlank c = false) (tidy : Tidy b) :
    Tidy (w ++ b) := by
  induction b using wordInduction with
  | word b plain =>
    refine .of_unblank (by simp [tidy.nonempty]) fun c member => ?_
    rcases List.mem_append.mp member with first | second
    · exact unblank c first
    · exact plain c second
  | blank v c rest plain blank _ =>
    cases v with
    | nil =>
      rw [List.nil_append] at tidy
      rw [tidy.head_unblank] at blank
      contradiction
    | cons d v =>
      obtain ⟨rfl,further⟩ := tidy.behind_word (List.cons_ne_nil d v) plain blank
      rw [← List.append_assoc]
      refine (Tidy.of_unblank (by simp) fun e member => ?_).space further
      rcases List.mem_append.mp member with first | second
      · exact unblank e first
      · exact plain e second

/-- No white space is at the end of the first text or at the start of the second. -/
theorem append (first : Tidy a) (second : Tidy b) : Tidy (a ++ b) := by
  induction a using wordInduction with
  | word a unblank => exact second.append_word unblank
  | blank w c rest unblank blank ih =>
    cases w with
    | nil =>
      rw [List.nil_append] at first
      rw [first.head_unblank] at blank
      contradiction
    | cons d w =>
      obtain ⟨rfl,further⟩ := first.behind_word (List.cons_ne_nil d w) unblank blank
      rw [List.append_assoc]
      exact (Tidy.of_unblank (List.cons_ne_nil d w) unblank).space (ih further)

theorem join {sep : Text} (between : ∀ {a b}, Tidy a → Tidy b → Tidy (a ++ sep ++ b))
    {parts : List Text} (nonempty : parts ≠ []) (each : ∀ part ∈ parts, Tidy part) :
    Tidy (Text.join sep parts) := by
  induction parts with
  | nil => contradiction
  | cons first rest ih =>
    have here := each first (by simp)
    cases rest with
    | nil => simpa using here
    | cons second rest =>
      rw [join_cons_cons]
      exact between here (ih (by simp) fun part member => each part (by simp [member]))

end Tidy

theorem blank_of_words {t : Text} (none : words t = []) : ∀ c ∈ t, isBlank c = true := by
  intro c member
  cases blank : isBlank c with
  | true => rfl
  | false => exact absurd none (words_ne_nil member blank)

theorem words_of_blank {t : Text} (blank : ∀ c ∈ t, isBlank c = true) : words t = [] := by
  induction t with
  | nil => rfl
  | cons c t ih =>
    rw [words_cons_blank (blank c (by simp))]
    exact ih fun d member => blank d (by simp [member])

/-- A text that starts with white space, or is empty, goes on with words of its own. -/
theorem words_append_of_blank {a b : Text} (begins : ∀ c ∈ b.head?, isBlank c = true) :
    words (a ++ b) = words a ++ words b := by
  cases b with
  | nil => simp
  | cons c b =>
    have blank := begins c rfl
    rw [words_append_blank blank,words_cons_blank blank]

theorem words_trim (t : Text) : words (trim t) = words t := by
  obtain ⟨a,b,whole,before,after⟩ := eq_trim t
  have behind : words (trim t ++ b) = words (trim t) := by
    rw [words_append_of_blank fun c head => after c (List.mem_of_head? head),words_of_blank after,
      List.append_nil]
  have front : words (a ++ (trim t ++ b)) = words (trim t ++ b) := by
    clear whole behind
    induction a with
    | nil => rfl
    | cons c a ih =>
      rw [List.cons_append,words_cons_blank (before c (by simp))]
      exact ih fun d member => before d (by simp [member])
  rw [← behind,← front,← List.append_assoc,← whole]

theorem trim_eq_nil {t : Text} : trim t = [] ↔ words t = [] := by
  constructor
  · intro none
    rw [← words_trim,none,words_nil]
  · intro none
    have start : trimStart t = [] := by
      have blank := blank_of_words none
      clear none
      induction t with
      | nil => rfl
      | cons c t ih =>
        rw [trimStart,List.dropWhile_cons,if_pos (blank c (by simp))]
        exact ih fun d member => blank d (by simp [member])
    rw [trim,start]
    rfl

theorem words_collapse (t : Text) : words (collapse t) = words t :=
  words_join (fun _ member => (mem_words member).1) fun _ member c inside =>
    ((mem_words member).2 c inside).2

theorem collapse_collapse (t : Text) : collapse (collapse t) = collapse t := by
  rw [collapse,words_collapse,collapse]

end Text

namespace Phrase

/-- Two rows of pieces in one, where the last of the first row and the first of the second are one
piece. -/
def glue : List (List α) → List (List α) → List (List α)
  | [last], next :: rest => (last ++ next) :: rest
  | piece :: rest, second => piece :: glue rest second
  | [], second => second

@[simp] theorem glue_single (last next : List α) (rest : List (List α)) :
    glue [last] (next :: rest) = (last ++ next) :: rest := rfl

@[simp] theorem glue_cons (piece next : List α) (rest second : List (List α)) :
    glue (piece :: next :: rest) second = piece :: glue (next :: rest) second := by
  cases second <;> rfl

theorem glue_empty {first : List (List α)} (some : first ≠ []) : glue first [[]] = first := by
  induction first with
  | nil => contradiction
  | cons piece rest ih =>
    cases rest with
    | nil => simp
    | cons next rest => rw [glue_cons,ih (by simp)]

theorem map_glue {f : List α → List β} {first second : List (List α)} (some : first ≠ [])
    (apart : ∀ next ∈ second.head?, ∀ last, f (last ++ next) = f last ++ f next) :
    (glue first second).map f = glue (first.map f) (second.map f) := by
  induction first with
  | nil => contradiction
  | cons piece rest ih =>
    cases rest with
    | cons next rest =>
      rw [glue_cons,List.map_cons,ih (by simp)]
      simp
    | nil =>
      cases second with
      | nil => rfl
      | cons next second => simp [apart next rfl]

theorem cut_ne_nil (before : Int) (t : Text) : cut before t ≠ [] := by
  have put (c : Char) (pieces : List Text) : consFirst c pieces ≠ [] := by
    cases pieces <;> simp [consFirst]
  fun_induction cut before t <;> first | exact put _ _ | simp

theorem consFirst_glue (c : Char) {first : List Text} (some : first ≠ []) (second : List Text) :
    consFirst c (glue first second) = glue (consFirst c first) second := by
  obtain ⟨piece,rest,rfl⟩ := List.exists_cons_of_ne_nil some
  cases rest with
  | nil => cases second <;> rfl
  | cons next rest => rw [glue_cons,consFirst,consFirst,glue_cons]

/-- What stands before the first space is cut at bars only, whatever follows. -/
theorem cut_word {w : Text} (solid : ' ' ∉ w) (before : Int) (t : Text) :
    cut before (w ++ t) = glue (cut before w) (cut (before + depth w) t) := by
  induction w generalizing before with
  | nil =>
    obtain ⟨piece,rest,pieces⟩ := List.exists_cons_of_ne_nil (cut_ne_nil before t)
    simp [cut,pieces]
  | cons c w ih =>
    have other : c ≠ ' ' := fun space => solid (by simp [space])
    have later := ih (fun member => solid (List.mem_cons_of_mem _ member)) (before + nesting c)
    have some := cut_ne_nil (before + nesting c) w
    have step (t : Text) : cut before (c :: t) =
        if c = '|' && before + nesting c = 0 then [] :: cut (before + nesting c) t
        else consFirst c (cut (before + nesting c) t) := cut.eq_3 _ _ _ fun _ space => absurd space other
    rw [List.cons_append,step,step,later,depth_cons,← Int.add_assoc]
    split
    · obtain ⟨piece,rest,pieces⟩ := List.exists_cons_of_ne_nil some
      rw [pieces,glue_cons]
    · exact consFirst_glue c some _

/-- A character that can neither separate nor begin a separator belongs to the piece behind it. -/
theorem cut_plain {before : Int} {c : Char} {t : Text} (level : nesting c = 0) (noBar : c ≠ '|')
    (other : ∀ rest, c = ' ' → t = 'o' :: 'r' :: ' ' :: rest → False) :
    cut before (c :: t) = consFirst c (cut before t) := by
  rw [cut.eq_3 _ _ _ other]
  simp [noBar,level]

/-- Inside brackets a space never begins a separator, also where another one seems to follow. -/
theorem cut_space {before : Int} (opened : before ≠ 0) (t : Text) :
    cut before (' ' :: t) = consFirst ' ' (cut before t) := by
  by_cases separator : ∃ rest, t = 'o' :: 'r' :: ' ' :: rest
  · obtain ⟨rest,rfl⟩ := separator
    have later := cut_space opened rest
    rw [cut,if_neg opened,cut_plain rfl (by decide) (by simp),cut_plain rfl (by decide) (by simp),later]
  · exact cut_plain rfl (by decide) fun rest _ same => separator ⟨rest,same⟩
termination_by t.length

/-- White space that no separator begins with belongs to the piece behind it. -/
theorem cut_blank {before : Int} {c : Char} {t : Text} (blank : Text.isBlank c = true)
    (whole : before = 0 → c = ' ' → ∀ rest, t ≠ 'o' :: 'r' :: ' ' :: rest) :
    cut before (c :: t) = consFirst c (cut before t) := by
  have noBar : c ≠ '|' := by
    rintro rfl
    exact absurd blank (by decide)
  by_cases opened : before = 0
  · exact cut_plain (nesting_of_blank blank) noBar fun rest space => whole opened space rest
  · by_cases space : c = ' '
    · subst space
      exact cut_space opened t
    · exact cut_plain (nesting_of_blank blank) noBar fun _ same => absurd same space

theorem map_words_consFirst {c : Char} (blank : Text.isBlank c = true) {pieces : List Text}
    (some : pieces ≠ []) : (consFirst c pieces).map Text.words = pieces.map Text.words := by
  obtain ⟨piece,rest,rfl⟩ := List.exists_cons_of_ne_nil some
  rw [consFirst,List.map_cons,List.map_cons,Text.words_cons_blank blank]

/-- Behind white space a piece begins with it, if it is not cut off there. -/
theorem head_cut_blank {before : Int} {c : Char} {t : Text} (blank : Text.isBlank c = true) :
    ∀ next ∈ (cut before (c :: t)).head?, ∀ d ∈ next.head?, Text.isBlank d = true := by
  have begins (pieces : List Text) :
      ∀ next ∈ (consFirst c pieces).head?, ∀ d ∈ next.head?, Text.isBlank d = true := by
    cases pieces <;> simp [consFirst,blank]
  by_cases separator : before = 0 ∧ c = ' ' ∧ ∃ rest, t = 'o' :: 'r' :: ' ' :: rest
  · obtain ⟨rfl,rfl,rest,rfl⟩ := separator
    have apart : cut 0 (' ' :: 'o' :: 'r' :: ' ' :: rest) = [] :: cut 0 rest := rfl
    simp [apart]
  · rw [cut_blank blank fun closed space rest same => separator ⟨closed,space,rest,same⟩]
    exact begins _

/-- The pieces of a text, told by its words: `or` separates where it stands between words, all brackets
are closed and the word before it does not separate. `led` says that a word stands before. -/
def wordPieces : (led : Bool) → (before : Int) → List Text → List (List Text)
  | _, _, [] => [[]]
  | led, before, w :: rest =>
    if led = true ∧ w = ("or" : Text) ∧ before = 0 ∧ rest ≠ [] then [] :: wordPieces false 0 rest
    else glue ((cut before w).map Text.words) (wordPieces true (before + depth w) rest)

/-- A word `or` behind the white space `c`: it has a plain space on each side exactly where words
stand before and behind it, and if another one follows with a word behind it, no more than that space is
between them. -/
def OrPlain (led : Bool) (c : Char) : Text → Prop
  | 'o' :: 'r' :: d :: t => Text.isBlank d = true →
      ((c = ' ' ∧ d = ' ') ↔ (led = true ∧ Text.words t ≠ [])) ∧
      (c = ' ' ∧ d = ' ' → t.head?.any Text.isBlank = true →
        (Text.words t).head? = some ("or" : Text) → (Text.words t).tail = [])
  | _ => True

instance (led : Bool) (c : Char) : (t : Text) → Decidable (OrPlain led c t) := fun t => by
  unfold OrPlain
  split <;> infer_instance

/-- Wherever all brackets are closed the word `or` is set apart plainly. `before` brackets are open before
the text, and `led` says that a word stands before it. -/
def Spaced : (led : Bool) → (before : Int) → Text → Prop
  | _, _, [] => True
  | led, before, c :: t =>
    (before = 0 → Text.isBlank c = true → OrPlain led c t) ∧
      Spaced (led || !Text.isBlank c) (before + nesting c) t

instance decideSpaced : (led : Bool) → (before : Int) → (t : Text) → Decidable (Spaced led before t)
  | _, _, [] => .isTrue trivial
  | led, before, c :: t =>
    have := decideSpaced (led || !Text.isBlank c) (before + nesting c) t
    inferInstanceAs (Decidable (_ ∧ _))

open Text (isBlank words)

namespace Spaced

variable {led : Bool} {before : Int} {c : Char} {t w : Text}

theorem behind_blank (spaced : Spaced led before (c :: t)) (blank : isBlank c = true) :
    Spaced led before t := by
  simpa [Spaced,blank,nesting_of_blank blank] using spaced.2

theorem word_append (nonempty : w ≠ []) (unblank : ∀ d ∈ w, isBlank d = false) :
    Spaced led before (w ++ t) ↔ Spaced true (before + depth w) t := by
  induction w generalizing led before with
  | nil => contradiction
  | cons d w ih =>
    have first : Spaced led before (d :: (w ++ t)) ↔ Spaced true (before + nesting d) (w ++ t) := by
      simp [Spaced,unblank d (by simp)]
    rw [List.cons_append,first,depth_cons,← Int.add_assoc]
    by_cases last : w = []
    · subst last
      simp
    · exact ih last fun e member => unblank e (by simp [member])

theorem of_unblank (unblank : ∀ d ∈ w, isBlank d = false) : Spaced led before w := by
  by_cases none : w = []
  · subst none
    trivial
  · rw [← List.append_nil w]
    exact (word_append none unblank).mpr trivial

/-- The words before a text matter only to a word `or` at its start. -/
theorem unled (spaced : Spaced true before t)
    (other : t.head?.any isBlank = true → (words t).head? = some ("or" : Text) → (words t).tail = []) :
    Spaced false before t := by
  induction t generalizing before with
  | nil => trivial
  | cons c t ih =>
    cases blank : isBlank c with
    | false =>
      refine ⟨fun _ white => by simp [blank] at white,?_⟩
      simpa [blank] using spaced.2
    | true =>
      have alone := other (by simp [blank])
      rw [Text.words_cons_blank blank] at alone
      refine ⟨fun closed _ => ?_,?_⟩
      · have plain := spaced.1 closed blank
        unfold OrPlain at plain ⊢
        split at plain
        · rename_i d t
          intro white
          have word : words ('o' :: 'r' :: d :: t) = ("or" : Text) :: words t := by
            have apart : words ('o' :: 'r' :: d :: t) = words ("or" : Text) ++ words t :=
              Text.words_append_blank white ("or" : Text) t
            rw [apart,Text.words_of_unblank (by decide) (by decide),List.singleton_append]
          have none : words t = [] := by simpa [word] using alone
          have unplain : ¬(c = ' ' ∧ d = ' ') := by
            rw [(plain white).1]
            simp [none]
          exact ⟨iff_of_false unplain (by simp),fun both => absurd both unplain⟩
        · trivial
      · have rest := ih (spaced.behind_blank blank) fun _ => alone
        simpa [blank,nesting_of_blank blank] using rest

end Spaced

theorem orPlain_word {led : Bool} {c d : Char} {t : Text} (plain : OrPlain led c (("or" : Text) ++ d :: t))
    (blank : isBlank d = true) : ((c = ' ' ∧ d = ' ') ↔ (led = true ∧ words t ≠ [])) ∧
      (c = ' ' ∧ d = ' ' → t.head?.any isBlank = true → (words t).head? = some ("or" : Text) →
        (words t).tail = []) :=
  plain blank

/-- The first word of a text, and what white space ends it. -/
theorem eq_or_of_append {w rest : Text} {c : Char} {t : Text} (unblank : ∀ d ∈ w, isBlank d = false)
    (blank : isBlank c = true) (same : w ++ c :: t = 'o' :: 'r' :: ' ' :: rest) :
    w = ("or" : Text) ∧ c = ' ' ∧ t = rest := by
  have split : w ++ c :: t = ("or" : Text) ++ ' ' :: rest := same
  rcases List.append_eq_append_iff.mp split with ⟨m,text,behind⟩ | ⟨m,text,behind⟩
  · cases m with
    | nil =>
      obtain ⟨rfl,rfl⟩ := List.cons.inj behind
      exact ⟨by simpa using text.symm,rfl,rfl⟩
    | cons d m =>
      obtain ⟨rfl,_⟩ := List.cons.inj behind
      have letter : c ∈ ("or" : Text) := by rw [text]; simp
      have visible : ∀ d ∈ ("or" : Text), isBlank d = false := by decide
      simp [visible c letter] at blank
  · cases m with
    | nil =>
      obtain ⟨rfl,rfl⟩ := List.cons.inj behind
      exact ⟨by simpa using text,rfl,rfl⟩
    | cons d m =>
      obtain ⟨rfl,_⟩ := List.cons.inj behind
      have inside := unblank ' ' (by rw [text]; simp)
      exact absurd inside (by decide)

/-- What the cuts leave of a text depends on its words only. The words behind the first one are cut as
words behind white space are, so both kinds of texts are in one induction. -/
theorem cut_words (t : Text) : ∀ before : Int,
    (Spaced false before t → (cut before t).map words = wordPieces false before (words t)) ∧
      ∀ c, isBlank c = true → Spaced true before (c :: t) →
        (cut before (c :: t)).map words = wordPieces true before (words t) := by
  induction t using Text.wordInduction with
  | word t unblank =>
    have pieces (led : Bool) (before : Int) : (cut before t).map words = wordPieces led before (words t) := by
      by_cases none : t = []
      · subst none
        rfl
      · rw [Text.words_of_unblank none unblank,wordPieces,if_neg (by simp),wordPieces,glue_empty]
        simpa using cut_ne_nil before t
    intro before
    refine ⟨fun _ => pieces false before,fun c blank _ => ?_⟩
    have whole : ∀ rest, t ≠ 'o' :: 'r' :: ' ' :: rest := by
      rintro rest rfl
      exact absurd (unblank ' ' (by simp)) (by decide)
    rw [cut_blank blank fun _ _ => whole,map_words_consFirst blank (cut_ne_nil before t)]
    exact pieces true before
  | blank w d b unblank white ih =>
    intro before
    by_cases none : w = []
    · subst none
      rw [List.nil_append,Text.words_cons_blank white]
      constructor
      · intro spaced
        have whole : before = 0 → d = ' ' → ∀ rest, b ≠ 'o' :: 'r' :: ' ' :: rest := by
          rintro closed rfl rest rfl
          have plain := orPlain_word (t := rest) (d := ' ') (spaced.1 closed white) (by decide)
          simp at plain
        rw [cut_blank white whole,map_words_consFirst white (cut_ne_nil before b)]
        exact (ih before).1 (spaced.behind_blank white)
      · intro c blank spaced
        have whole : ∀ rest, d :: b ≠ 'o' :: 'r' :: ' ' :: rest := by
          rintro rest same
          obtain ⟨rfl,_⟩ := List.cons.inj same
          exact absurd white (by decide)
        rw [cut_blank blank fun _ _ => whole,map_words_consFirst blank (cut_ne_nil before _)]
        exact (ih before).2 d white (spaced.behind_blank blank)
    · have solid : ' ' ∉ w := not_mem_space unblank
      have text : words (w ++ d :: b) = w :: words b := by
        rw [Text.words_append_blank white,Text.words_of_unblank none unblank,List.singleton_append]
      -- the first word is cut at its bars, the rest goes on behind it
      have first {led : Bool} (spaced : Spaced led before (w ++ d :: b)) :
          (cut before (w ++ d :: b)).map words =
          glue ((cut before w).map words) (wordPieces true (before + depth w) (words b)) := by
        rw [cut_word solid,map_glue (cut_ne_nil before w)]
        · rw [(ih _).2 d white ((Spaced.word_append none unblank).mp spaced)]
        · intro next head last
          exact Text.words_append_of_blank (head_cut_blank white next head)
      constructor
      · intro spaced
        rw [first spaced,text,wordPieces,if_neg (by simp)]
      · intro c blank spaced
        rw [text,wordPieces]
        split
        · rename_i separates
          obtain ⟨_,rfl,rfl,some⟩ := separates
          obtain ⟨plain,single⟩ := orPlain_word (spaced.1 rfl blank) white
          obtain ⟨rfl,rfl⟩ := plain.mpr ⟨rfl,some⟩
          have apart : cut 0 (' ' :: (("or" : Text) ++ ' ' :: b)) = [] :: cut 0 b := rfl
          have later : Spaced true 0 (' ' :: b) :=
            (Spaced.word_append (w := "or") (by decide) (by decide)).mp (spaced.behind_blank blank)
          have behind := later.behind_blank white
          rw [apart,List.map_cons,(ih 0).1 (behind.unled (single ⟨rfl,rfl⟩))]
          rfl
        · rename_i kept
          have whole : before = 0 → c = ' ' → ∀ rest, w ++ d :: b ≠ 'o' :: 'r' :: ' ' :: rest := by
            rintro rfl rfl rest same
            obtain ⟨rfl,rfl,rfl⟩ := eq_or_of_append unblank white same
            have plain := (orPlain_word (spaced.1 rfl blank) white).1
            exact kept ⟨rfl,rfl,rfl,(plain.mp ⟨rfl,rfl⟩).2⟩
          rw [cut_blank blank whole,map_words_consFirst blank (cut_ne_nil before _)]
          exact first (spaced.behind_blank blank)

/-- A collapsed text sets everything apart plainly. -/
theorem spaced_collapse (led : Bool) (before : Int) (t : Text) : Spaced led before (Text.collapse t) := by
  induction t using Text.wordInduction generalizing led before with
  | word t unblank =>
    rw [Text.collapse_of_unblank unblank]
    exact .of_unblank unblank
  | blank w c b unblank blank ih =>
    cases w with
    | nil =>
      rw [List.nil_append,Text.collapse_blank blank]
      exact ih led before
    | cons e w =>
      rcases Text.collapse_word (List.cons_ne_nil e w) unblank blank b with ⟨_,alone⟩ | more
      · rw [alone]
        exact .of_unblank unblank
      · rw [more]
        refine (Spaced.word_append (List.cons_ne_nil e w) unblank).mpr ⟨fun _ _ => ?_,ih _ _⟩
        unfold OrPlain
        split
        · rename_i d t text
          intro white
          have tidy : Text.Tidy (("or" : Text) ++ d :: t) := by
            refine ⟨?_,by simp⟩
            change Text.collapse ('o' :: 'r' :: d :: t) = 'o' :: 'r' :: d :: t
            rw [← text,Text.collapse_collapse]
          obtain ⟨rfl,rest⟩ := tidy.behind_word (by decide) (by decide) white
          refine ⟨iff_of_true ⟨rfl,rfl⟩ ⟨rfl,rest.words_ne_nil⟩,fun _ begins => ?_⟩
          obtain ⟨f,t,rfl⟩ := List.exists_cons_of_ne_nil rest.nonempty
          simp [rest.head_unblank] at begins
        · trivial

/-- The alternatives of a text that is spaced plainly have the words of those of the collapsed text. -/
theorem alternatives_collapse {raw : Text} (spaced : Spaced false 0 raw) :
    (alternatives (Text.collapse raw)).map words = (alternatives raw).map words := by
  have kept (t : Text) : (alternatives t).map words = ((cut 0 t).map words).filter (!·.isEmpty) := by
    have some (piece : Text) : (!(words piece).isEmpty) = !(Text.trim piece).isEmpty := by
      rw [Bool.eq_iff_iff]
      simp [Text.trim_eq_nil]
    rw [alternatives,List.filter_map,List.filter_map,List.map_map]
    simp only [Function.comp_def,Text.words_trim,some]
  rw [kept,kept,((cut_words _ 0).1 (spaced_collapse false 0 raw)),((cut_words _ 0).1 spaced),
    Text.words_collapse]

end Phrase

namespace Resolver

variable {r : Resolver}

/-- A text that is neither a name of several words nor read is resolved alternative by alternative, if it
has several. -/
theorem type_of_rejected {raw : Text} (unlisted : Text.collapse raw ∉ r.config.table.names)
    (rejected : (Phrase.parse raw).isOk = false) : r.type raw =
      if 2 ≤ (Phrase.alternatives raw).length then .unionOf ((Phrase.alternatives raw).map r.aloneType)
      else .named (Text.collapse raw) := by
  obtain ⟨e,failed⟩ := Phrase.error_of_not_isOk rejected
  unfold Resolver.type typeOr
  rw [TypeTable.spelling?_eq_none_iff.mpr unlisted,failed]
  simp only
  split
  · rename_i first second rest several
    rw [several,if_pos (by simp)]
  · rename_i few
    refine (if_neg fun several => ?_).symm
    cases found : Phrase.alternatives raw with
    | nil => simp [found] at several
    | cons first rest =>
      cases rest with
      | nil => simp [found] at several
      | cons second rest => exact few first second rest found

theorem isOk_collapse (raw : Text) :
    (Phrase.parse (Text.collapse raw)).isOk = (Phrase.parse raw).isOk := by
  rw [Bool.eq_iff_iff]
  constructor <;> intro accepted
  · obtain ⟨tree,parsed⟩ := Phrase.parse_of_isOk accepted
    rw [Phrase.parse_collapse.mp parsed]
    rfl
  · obtain ⟨tree,parsed⟩ := Phrase.parse_of_isOk accepted
    rw [Phrase.parse_collapse.mpr parsed]
    rfl

/-- Up to where a text turns out to be outside the grammar its white space does not matter. -/
theorem typeOr_collapse (type : LuaType) (t : Text) :
    r.typeOr (fun _ => type) (Text.collapse t) = r.typeOr (fun _ => type) t := by
  unfold typeOr
  rw [Text.collapse_collapse]
  cases r.config.table.spelling? (Text.collapse t) with
  | some spelling => rfl
  | none =>
    cases parsed : Phrase.parse t with
    | ok tree => rw [Phrase.parse_collapse.mpr parsed]
    | error e =>
      cases again : Phrase.parse (Text.collapse t) with
      | error other => rfl
      | ok tree =>
        rw [Phrase.parse_collapse.mp again] at parsed
        contradiction

theorem aloneType_collapse (t : Text) : r.aloneType (Text.collapse t) = r.aloneType t := by
  unfold aloneType
  rw [Text.collapse_collapse,typeOr_collapse]

theorem map_aloneType {texts others : List Text} (same : texts.map Text.words = others.map Text.words) :
    texts.map r.aloneType = others.map r.aloneType := by
  have through (t : Text) : r.aloneType t = r.aloneType (Text.join " " (Text.words t)) :=
    (aloneType_collapse t).symm
  have all (texts : List Text) : texts.map r.aloneType =
      (texts.map Text.words).map fun read => r.aloneType (Text.join " " read) := by
    rw [List.map_map]
    exact List.map_congr_left fun t _ => through t
  rw [all,all,same]

/-- A text outside the grammar whose word between alternatives has a tab beside it: it is kept whole, and
taken apart when the white space is collapsed. -/
theorem tabbed_kept_whole :
    let r : Resolver := ⟨.default,[]⟩
    (r.normalize "a-\tor\tb" false).rendered = "a- or b" ∧
      (r.normalize (Text.collapse "a-\tor\tb") false).rendered = "a-|b" := by
  decide +kernel

/-- White space does not change a type that is read or named in the table, nor one outside the grammar
where the word between alternatives is set apart plainly. -/
theorem normalize_collapsed {raw : Text} (plain : (Phrase.parse raw).isOk = true ∨
      Text.collapse raw ∈ r.config.table.names ∨ Phrase.Spaced false 0 raw) (optional : Bool) :
    r.normalize (Text.collapse raw) optional = r.normalize raw optional := by
  have same : r.type (Text.collapse raw) = r.type raw := by
    by_cases listed : Text.collapse raw ∈ r.config.table.names
    · obtain ⟨spelling,found⟩ := TypeTable.exists_lookup listed
      have whole : r.config.table.spelling? (Text.collapse raw) = some spelling := found
      unfold Resolver.type typeOr
      rw [Text.collapse_collapse,whole]
    · have unlisted : Text.collapse (Text.collapse raw) ∉ r.config.table.names := by
        rwa [Text.collapse_collapse]
      cases accepted : (Phrase.parse raw).isOk with
      | true =>
        obtain ⟨tree,parsed⟩ := Phrase.parse_of_isOk accepted
        unfold Resolver.type typeOr
        rw [Text.collapse_collapse,parsed,Phrase.parse_collapse.mpr parsed]
      | false =>
        have spaced : Phrase.Spaced false 0 raw := by simpa [accepted,listed] using plain
        have words := Phrase.alternatives_collapse spaced
        have length : (Phrase.alternatives (Text.collapse raw)).length =
            (Phrase.alternatives raw).length := by simpa using congrArg List.length words
        rw [type_of_rejected unlisted ((isOk_collapse raw).trans accepted),
          type_of_rejected listed accepted,length,map_aloneType words,Text.collapse_collapse]
  unfold normalize
  rw [same]

def loose : Text := "\t a-  or \n light\u3000userdata |  \x7bx: c\tor\td-\x7d or   or"

theorem loose_collapsed :
    let r : Resolver := ⟨.default,[]⟩
    ((Phrase.parse loose).isOk = false ∧ Phrase.Spaced false 0 loose) ∧
      r.normalize (Text.collapse loose) true = r.normalize loose true ∧
      (r.normalize loose true).rendered = "(a-|lightuserdata|\x7bx: c or d-\x7d|or)?" := by
  intro r
  have spaced : Phrase.Spaced false 0 loose := by decide +kernel
  refine ⟨⟨by decide +kernel,spaced⟩,?_,by decide +kernel⟩
  exact normalize_collapsed (Or.inr (Or.inr spaced)) true

end Resolver

end LuaStubs
