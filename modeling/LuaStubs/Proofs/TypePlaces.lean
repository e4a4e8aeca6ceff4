import LuaStubs.Proofs.Fragments
import LuaStubs.Proofs.RoundTrip

/-! Where names stand in the text of a type: between marks, at its start or at its end. The checks find
a fragment at such a place, also where a name stands behind the type, unless that name is taken for the
rest of a longer one. -/
namespace LuaStubs

open Phrase (Phrasal)

theorem Text.trimmed_trim (t : Text) : Trimmed (trim t) := by
  have unblank (t : Text) : ∀ c ∈ (trimStart t).head?, isBlank c = false := by
    intro c head
    have first := List.head?_dropWhile_not isBlank t
    rwa [show (t.dropWhile isBlank).head? = some c from head] at first
  refine ⟨fun c head => unblank t c ?_,fun c last => ?_⟩
  · obtain ⟨b,same,_⟩ := eq_trimEnd (trimStart t)
    rw [same,List.head?_append]
    simp [show (trimEnd (trimStart t)).head? = some c from head]
  · rw [trim,trimEnd,List.getLast?_reverse] at last
    exact unblank _ c last

/-- The last white space in a text, where no more follows. -/
theorem Text.append_blank_inj {a b x y : Text} {c d : Char} (same : a ++ c :: x = b ++ d :: y)
    (first : isBlank c = true) (second : isBlank d = true) (inFirst : ∀ e ∈ x, isBlank e = false)
    (inSecond : ∀ e ∈ y, isBlank e = false) : a = b ∧ x = y := by
  rcases List.append_eq_append_iff.mp same with ⟨front,rfl,rest⟩ | ⟨front,rfl,rest⟩
  · cases front with
    | nil => exact ⟨by simp,(List.cons.inj rest).2⟩
    | cons e front =>
      have unblank := inFirst d (by simp [(List.cons.inj rest).2])
      rw [second] at unblank
      contradiction
  · cases front with
    | nil => exact ⟨by simp,(List.cons.inj rest).2.symm⟩
    | cons e front =>
      have unblank := inSecond c (by simp [(List.cons.inj rest).2])
      rw [first] at unblank
      contradiction

theorem Text.splitAt_join (mark : Char) {pieces : List Text} (nonempty : pieces ≠ [])
    (unmarked : ∀ piece ∈ pieces, mark ∉ piece) :
    splitAt (· == mark) (join [mark] pieces) = pieces := by
  induction pieces with
  | nil => exact absurd rfl nonempty
  | cons first rest ih =>
    have whole : splitAt (· == mark) first = [first] := splitAt_of_uncut fun c member => by
      have other : c ≠ mark := fun same => unmarked first (by simp) (same ▸ member)
      simpa using other
    cases rest with
    | nil => simpa using whole
    | cons second rest =>
      have later := ih (by simp) fun piece member => unmarked piece (List.mem_cons_of_mem _ member)
      rw [join_cons_cons,List.append_assoc,List.singleton_append,splitAt_append_cons (by simp),whole,
        later,List.singleton_append]

namespace Phrase

theorem Phrasal.nonempty {t : Text} (phrasal : Phrasal t) : t ≠ [] := by
  obtain ⟨c,rest,rfl,_⟩ := phrasal.head
  exact List.cons_ne_nil c rest

/-- The words before a space are a phrase. -/
theorem Phrasal.before_space {a b : Text} (phrasal : Phrasal (a ++ ' ' :: b)) : Phrasal a := by
  obtain ⟨read,nonempty,words,same⟩ := phrasal
  have pieces : Text.splitAt (· == ' ') a ++ Text.splitAt (· == ' ') b = read := by
    rw [← Text.splitAt_append_cons (c := ' ') (by decide),same]
    refine Text.splitAt_join ' ' nonempty fun w member space => ?_
    exact absurd ((words w member).parts ' ' space) (by decide)
  refine ⟨Text.splitAt (· == ' ') a,Text.splitAt_ne_nil _ a,fun w member => words w ?_,?_⟩
  · exact pieces ▸ List.mem_append_left _ member
  · exact (Text.join_splitAt ' ' a).symm

end Phrase

theorem TypeTable.completions_before_space {table : TypeTable} {a b : Text}
    (begun : table.completions (a ++ ' ' :: b) ≠ []) : table.completions a ≠ [] := by
  obtain ⟨full,member⟩ := List.exists_mem_of_ne_nil _ begun
  obtain ⟨listed,more,rfl⟩ := mem_completions.mp member
  exact List.ne_nil_of_mem (mem_completions.mpr ⟨listed,b ++ ' ' :: more,by simp⟩)

namespace Tag

def isMark (c : Char) : Bool := !isPathChar c && !Text.isBlank c

/-- Where a text ends, a name can stand: it is empty or ends in a mark. -/
def Marked (u : Text) : Prop := ∀ c ∈ u.getLast?, isMark c = true

def Led (u : Text) : Prop := Marked u ∨ ∃ start c, isMark c = true ∧ u = start ++ [c,' ']

/-- What can stand behind a name that is no field's. -/
def Followed (v : Text) : Prop := ∀ c ∈ v.head?, isMark c = true ∧ c ≠ ':'

def Stands (word t : Text) : Prop := ∃ u v, t = u ++ word ++ v ∧ Led u ∧ Followed v

/-- A word in the text of a type. No space stands before it where it is the end of the type. -/
def StandsFree (word t : Text) : Prop :=
  ∃ u v, t = u ++ word ++ v ∧ Led u ∧ Followed v ∧ (v = [] → Marked u)

theorem isMark_eq {c : Char} (mark : isMark c = true) : isPathChar c = false ∧ Text.isBlank c = false := by
  simpa [isMark] using mark

theorem marked_nil : Marked [] := by simp [Marked]

theorem marked_concat {c : Char} (mark : isMark c = true) (start : Text) : Marked (start ++ [c]) := by
  simpa [Marked] using mark

theorem followed_nil : Followed [] := by simp [Followed]

theorem followed_cons {c : Char} (mark : isMark c = true) (other : c ≠ ':') (rest : Text) :
    Followed (c :: rest) := by
  simpa [Followed] using ⟨mark,other⟩

theorem Marked.append {a u : Text} (outer : Marked a) (inner : Marked u) : Marked (a ++ u) := by
  intro c last
  rw [List.getLast?_append,Option.mem_def,Option.or_eq_some_iff] at last
  rcases last with own | ⟨_,before⟩
  · exact inner c own
  · exact outer c before

theorem Led.append {a u : Text} (outer : Led a) (inner : Led u) : Led (a ++ u) := by
  rcases inner with marked | ⟨start,c,mark,rfl⟩
  · rcases List.eq_nil_or_concat u with rfl | ⟨start,c,rfl⟩
    · simpa using outer
    · exact Or.inl fun d last => marked d (by simpa using last)
  · exact Or.inr ⟨a ++ start,c,mark,by simp⟩

theorem Followed.append {v b : Text} (inner : Followed v) (outer : Followed b) : Followed (v ++ b) := by
  cases v with
  | nil => exact outer
  | cons c v => exact fun d head => inner d (by simpa using head)

section

variable {word part : Text}

theorem StandsFree.stands (free : StandsFree word part) : Stands word part := by
  obtain ⟨u,v,same,left,right,_⟩ := free
  exact ⟨u,v,same,left,right⟩

theorem Stands.within {a b : Text} (stands : Stands word part) (left : Led a) (right : Followed b) :
    Stands word (a ++ part ++ b) := by
  obtain ⟨u,v,rfl,before,behind⟩ := stands
  exact ⟨a ++ u,v ++ b,by simp,left.append before,behind.append right⟩

theorem StandsFree.within {a b : Text} (free : StandsFree word part) (left : Led a)
    (right : Followed b) (ends : b = [] → Marked a) : StandsFree word (a ++ part ++ b) := by
  obtain ⟨u,v,rfl,before,behind,last⟩ := free
  refine ⟨a ++ u,v ++ b,by simp,left.append before,behind.append right,fun none => ?_⟩
  obtain ⟨noneInside,noneBehind⟩ := List.append_eq_nil_iff.mp none
  exact (ends noneBehind).append (last noneInside)

theorem StandsFree.join {parts : List Text} (free : StandsFree word part) (member : part ∈ parts) :
    StandsFree word (Text.join "|" parts) := by
  obtain ⟨u,v,same,begins,ends⟩ := Text.join_split "|" member
  have marked : Marked u := by
    rcases begins with rfl | ⟨start,rfl⟩
    · exact marked_nil
    · exact marked_concat (by decide) start
  rw [same]
  refine free.within (Or.inl marked) ?_ fun _ => marked
  rcases ends with rfl | ⟨rest,rfl⟩
  · exact followed_nil
  · exact followed_cons (by decide) (by decide) rest

/-- Behind the name of a field or a parameter, and its colon. -/
theorem Stands.field (stands : Stands word part) (name : Text) : Stands word (name ++ ": " ++ part) := by
  have inside := stands.within (b := []) (Or.inr ⟨name,':',by decide,rfl⟩) followed_nil
  rwa [List.append_nil] at inside

/-- Between commas. -/
theorem Stands.listed {parts : List Text} (stands : Stands word part) (member : part ∈ parts) :
    Stands word (Text.join ", " parts) := by
  obtain ⟨u,v,same,begins,ends⟩ := Text.join_split ", " member
  rw [same]
  refine stands.within ?_ ?_
  · rcases begins with rfl | ⟨start,rfl⟩
    · exact Or.inl marked_nil
    · exact Or.inr ⟨start,',',by decide,rfl⟩
  · rcases ends with rfl | ⟨rest,rfl⟩
    · exact followed_nil
    · exact followed_cons (by decide) (by decide) _

/-- Between brackets. -/
theorem Stands.braced (stands : Stands word part) : StandsFree word ("\x7b" ++ part ++ "\x7d") := by
  obtain ⟨u,v,rfl,left,right⟩ := stands
  have opened : Led ("\x7b" ++ u) := Led.append (Or.inl (marked_concat (by decide) [])) left
  have closed : Followed (v ++ "\x7d") := right.append (followed_cons (by decide) (by decide) [])
  exact ⟨_,_,by simp,opened,closed,by simp⟩

end

theorem isMark_phrasal {word : Text} (phrasal : Phrasal word) : ∀ c ∈ word, isMark c = false := by
  intro c member
  rcases phrasal.chars c member with rfl | part
  · decide
  · have path : isPathChar c = true := part
    simp [isMark,path]

/-- What stands before a phrase does not end as the phrase begins. -/
theorem Led.apart {word u : Text} (led : Led u) (phrasal : Phrasal word) :
    ∀ a b, u = a ++ b → b ≠ [] → ¬ b <+: word := by
  intro a b cut some begins
  have unmarked : ∀ c ∈ b, isMark c = false := fun c member =>
    isMark_phrasal phrasal c (begins.subset member)
  obtain ⟨start,d,rfl⟩ := (List.eq_nil_or_concat b).resolve_left some
  rcases led with marked | ⟨init,e,mark,rfl⟩
  · have mark := marked d (by simp [cut])
    rw [unmarked d (by simp)] at mark
    contradiction
  · have ends : (init ++ [e]) ++ [' '] = (a ++ start) ++ [d] := by simpa using cut
    obtain ⟨before,space⟩ := List.append_inj' ends rfl
    obtain rfl : ' ' = d := List.singleton_inj.mp space
    rcases List.eq_nil_or_concat start with rfl | ⟨rest,c,rfl⟩
    · obtain ⟨c,rest,rfl,part⟩ := phrasal.head
      obtain rfl : ' ' = c := by simpa using begins
      exact absurd part (by decide)
    · obtain rfl : e = c := by simpa using congrArg List.getLast? before
      rw [unmarked e (by simp)] at mark
      contradiction

theorem hasBareFragment_of_led {word u v : Text} {completions : List Text} (phrasal : Phrasal word)
    (led : Led u) (right : ∀ c ∈ v.head?, isPathChar c = false)
    (colon : Text.startsWith (Text.trimStart v) ":" = false)
    (incomplete : ∀ name ∈ completions, Text.startsWith (word ++ v) name = false) :
    hasBareFragment (u ++ word ++ v) word completions = true := by
  obtain ⟨c,rest,text,_⟩ := phrasal.head
  have left : ∀ c ∈ u.getLast?, isPathChar c = false := by
    rcases led with marked | ⟨start,e,_,rfl⟩
    · exact fun c last => (isMark_eq (marked c last)).1
    · intro c last
      obtain rfl : ' ' = c := by simpa using last
      decide
  refine anyOccurrence_of_apart (by simp [text]) (led.apart phrasal) (Nat.zero_le _) ?_
  simp only [isBare,List.drop_left,Option.or_none,Bool.and_eq_true,Bool.not_eq_true',
    Option.any_eq_false,List.any_eq_false,Bool.not_eq_true]
  exact ⟨⟨⟨by simpa using left,by simpa using right⟩,colon⟩,incomplete⟩

def Flags (table : TypeTable) (type : Text) : Prop :=
  type ≠ [] ∧ ∃ entry ∈ table.fragments, hasBareFragment type entry.1 entry.2 = true

theorem flags_of_bare {table : TypeTable} {u word v : Text} (phrasal : Phrasal word)
    (begun : table.completions word ≠ [])
    (bare : hasBareFragment (u ++ word ++ v) word (table.completions word) = true) :
    Flags table (u ++ word ++ v) :=
  ⟨by simp [phrasal.nonempty],(word,table.completions word),TypeTable.mem_fragments.mpr ⟨rfl,begun⟩,bare⟩

theorem Stands.flags {table : TypeTable} {word t : Text} (stands : Stands word t)
    (phrasal : Phrasal word) (begun : table.completions word ≠ []) : Flags table t := by
  obtain ⟨u,v,rfl,left,right⟩ := stands
  refine flags_of_bare phrasal begun (hasBareFragment_of_led phrasal left ?_ ?_ ?_)
  · exact fun c head => (isMark_eq (right c head).1).1
  · cases v with
    | nil => rfl
    | cons c v =>
      obtain ⟨mark,other⟩ := right c rfl
      rw [Text.trimStart_cons (isMark_eq mark).2]
      simpa [Text.startsWith,Text.after] using Ne.symm other
  · intro name member
    obtain ⟨_,more,rfl⟩ := TypeTable.mem_completions.mp member
    refine Bool.eq_false_iff.mpr fun starts => ?_
    obtain ⟨rest,same⟩ := Text.startsWith_iff.mp starts
    rw [List.append_assoc] at same
    obtain ⟨mark,_⟩ := right ' ' (by simp [List.append_cancel_left same])
    exact absurd mark (by decide)

/-- The last piece is all of a text, or what stands behind some white space in it. -/
theorem cutBlank_last (depth : Int) (t : Text) : ∃ init last, cutBlank depth t = init ++ [last] ∧
    (init = [] ∧ last = t ∨ init ≠ [] ∧ ∃ before c, t = before ++ c :: last ∧ Text.isBlank c = true) := by
  induction t generalizing depth with
  | nil => exact ⟨[],[],rfl,Or.inl ⟨rfl,rfl⟩⟩
  | cons c t ih =>
    obtain ⟨init,last,cut,place⟩ := ih (depth + Phrase.nesting c)
    simp only [cutBlank,cut]
    split
    · rename_i cuts
      have blank : Text.isBlank c = true := (Bool.and_eq_true _ _ ▸ cuts).1
      refine ⟨[] :: init,last,rfl,Or.inr ⟨by simp,?_⟩⟩
      rcases place with ⟨_,rfl⟩ | ⟨_,before,d,rfl,white⟩
      · exact ⟨[],c,rfl,blank⟩
      · exact ⟨c :: before,d,rfl,white⟩
    · rcases place with ⟨rfl,rfl⟩ | ⟨some,before,d,rfl,white⟩
      · exact ⟨[],c :: last,rfl,Or.inl ⟨rfl,rfl⟩⟩
      · obtain ⟨piece,rest,rfl⟩ := List.exists_cons_of_ne_nil some
        exact ⟨(c :: piece) :: rest,last,rfl,Or.inr ⟨by simp,c :: before,d,rfl,white⟩⟩

/-- What is taken for the name of a value is a name behind white space. -/
theorem unnamed_cases (names : List Text) {t : Text} (trimmed : Text.Trimmed t) :
    unnamed names t = t ∨ ∃ before c last, t = before ++ c :: last ∧ Text.isBlank c = true ∧
      (∀ d ∈ last, Text.isNameChar d = true) ∧ unnamed names t = Text.trimEnd before := by
  obtain ⟨init,last,cut,⟨rfl,rfl⟩ | ⟨_,before,c,same,blank⟩⟩ := cutBlank_last 0 t
  · left
    unfold unnamed outerWords
    rw [cut]
    cases last <;> rfl
  · have some : last ≠ [] := by
      rintro rfl
      have unblank := trimmed.last c (by simp [same])
      rw [blank] at unblank
      contradiction
    have words : (outerWords t).reverse = last :: (init.filter (!·.isEmpty)).reverse := by
      simp [outerWords,cut,some]
    unfold unnamed
    rw [words]
    split
    · rename_i listed
      obtain ⟨rfl,_⟩ := List.cons.inj listed
      split
      · exact Or.inl rfl
      · rename_i stripped
        have chars : last.all Text.isNameChar = true := by
          simp only [Bool.or_eq_true,not_or] at stripped
          simpa using stripped.1.1.1
        have front : t.take (t.length - last.length) = before ++ [c] := by
          rw [same,List.append_cons,List.length_append,Nat.add_sub_cancel,List.take_left]
        refine Or.inr ⟨before,c,last,same,blank,List.all_eq_true.mp chars,?_⟩
        rw [front,Text.trimEnd_append_blank blank]
    · exact Or.inl rfl

theorem trimStart_marked {c : Char} (mark : isMark c = true) (start rest : Text) :
    Text.trimStart (start ++ [c] ++ rest) = Text.trimStart start ++ [c] ++ rest :=
  Text.Trimmed.trimStart_around (Text.trimmed_of_unblank (by simpa using (isMark_eq mark).2)) (by simp)
    start rest

theorem Marked.trimStart {u : Text} (marked : Marked u) : Marked (Text.trimStart u) := by
  rcases List.eq_nil_or_concat u with rfl | ⟨start,c,rfl⟩
  · exact marked_nil
  · have mark := marked c (by simp)
    have whole := trimStart_marked mark start []
    rw [List.append_nil,List.append_nil] at whole
    rw [List.concat_eq_append,whole]
    exact marked_concat mark _

theorem Led.trimStart {u : Text} (led : Led u) : Led (Text.trimStart u) := by
  rcases led with marked | ⟨start,c,mark,rfl⟩
  · exact Or.inl marked.trimStart
  · refine Or.inr ⟨Text.trimStart start,c,mark,?_⟩
    simpa using trimStart_marked mark start [' ']

theorem Followed.trimEnd {v : Text} (followed : Followed v) : Followed (Text.trimEnd v) := by
  obtain ⟨b,same,_⟩ := Text.eq_trimEnd v
  cases front : Text.trimEnd v with
  | nil => exact followed_nil
  | cons c rest =>
    rw [front] at same
    exact fun d head => followed d (by rw [same]; simpa using head)

/-- A mark that is not in the end of a text stands before it. -/
theorem exists_before_mark {a b before last : Text} {mark : Char}
    (same : a ++ mark :: b = before ++ last) (other : mark ∉ last) :
    ∃ rest, before = a ++ mark :: rest := by
  rcases List.append_eq_append_iff.mp same with ⟨front,rfl,cut⟩ | ⟨front,_,rfl⟩
  · cases front with
    | nil => exact absurd (by simp [← show mark :: b = last from cut]) other
    | cons d front =>
      obtain ⟨rfl,_⟩ := List.cons.inj cut
      exact ⟨front,rfl⟩
  · exact absurd (by simp) other

/-- A type alone: if its last word is taken for a name, the words before it are a fragment too. -/
theorem StandsFree.flags_unnamed {table : TypeTable} {word t : Text} (free : StandsFree word t)
    (phrasal : Phrasal word) (begun : table.completions word ≠ []) (names : List Text)
    (trimmed : Text.Trimmed t) : Flags table (unnamed names t) := by
  rcases unnamed_cases names trimmed with same | ⟨before,c,last,cut,blank,named,same⟩
  · rw [same]
    exact free.stands.flags phrasal begun
  rw [same]
  obtain ⟨u,v,rfl,left,right,ends⟩ := free
  have unmarked : ∀ d ∈ c :: last, isMark d = false := by
    intro d member
    rcases List.mem_cons.mp member with rfl | inside
    · simp [isMark,blank]
    · simp [isMark,isPathChar,named d inside]
  cases v with
  | cons d v =>
    obtain ⟨mark,_⟩ := right d rfl
    obtain ⟨rest,rfl⟩ := exists_before_mark cut fun member => by simp [unmarked d member] at mark
    rw [phrasal.trimmed.trimEnd_around phrasal.nonempty]
    refine Stands.flags ⟨u,_,rfl,left,Followed.trimEnd ?_⟩ phrasal begun
    exact fun e head => right e (by simpa using head)
  | nil =>
    rw [List.append_nil] at cut
    rcases List.append_eq_append_iff.mp cut with ⟨front,rfl,text⟩ | ⟨front,text,rest⟩
    · -- the last word of the fragment is taken for a name
      obtain rfl : c = ' ' := by
        rcases phrasal.chars c (by simp [text]) with same | part
        · exact same
        · rw [Phrase.unblank_of_wordPart part] at blank
          contradiction
      subst text
      have shorter := phrasal.before_space
      have whole := shorter.trimmed.trimEnd_around shorter.nonempty u []
      rw [List.append_nil] at whole
      exact Stands.flags ⟨u,_,whole,left,followed_nil⟩ shorter (TypeTable.completions_before_space begun)
    · -- a name would go on before the fragment, over the mark there
      have marked := ends rfl
      cases front with
      | nil =>
        obtain ⟨d,more,rfl,part⟩ := phrasal.head
        obtain rfl : c = d := (List.cons.inj rest).1
        rw [Phrase.unblank_of_wordPart part] at blank
        contradiction
      | cons d front =>
        obtain ⟨start,e,same⟩ := (List.eq_nil_or_concat (d :: front)).resolve_left (List.cons_ne_nil d front)
        have mark := marked e (by simp [text,same])
        rw [unmarked e (by rw [rest,same]; simp)] at mark
        contradiction

theorem Stands.trim {word t : Text} (stands : Stands word t) (phrasal : Phrasal word) :
    Stands word (Text.trim t) := by
  obtain ⟨u,v,rfl,left,right⟩ := stands
  exact ⟨_,_,phrasal.trimmed.trim_around phrasal.nonempty u v,left.trimStart,right.trimEnd⟩

theorem StandsFree.trim {word t : Text} (free : StandsFree word t) (phrasal : Phrasal word) :
    StandsFree word (Text.trim t) := by
  obtain ⟨u,v,rfl,left,right,ends⟩ := free
  refine ⟨_,_,phrasal.trimmed.trim_around phrasal.nonempty u v,left.trimStart,right.trimEnd,?_⟩
  intro none
  cases v with
  | nil => exact (ends rfl).trimStart
  | cons c v => exact absurd none (Text.trimEnd_cons_ne_nil (isMark_eq (right c rfl).1).2 v)

/-- The name behind a type is taken for the rest of a name of several words, which `phrase` begins at
the end of the type. -/
structure Swallowed (table : TypeTable) (phrase type name : Text) : Prop where
  ends : phrase <:+ type
  completed : ∃ full ∈ table.completions phrase, full <+: phrase ++ ' ' :: name
  kept : unnamed (Validator.ofTable table).names (Text.trim (type ++ ' ' :: name)) =
    Text.trim (type ++ ' ' :: name)

theorem StandsFree.flags_named {table : TypeTable} {word t name : Text} (free : StandsFree word t)
    (phrasal : Phrasal word) (begun : table.completions word ≠ []) (valid : Lua.isName name = true)
    (apart : ¬ Swallowed table word t name) :
    Flags table (unnamed (Validator.ofTable table).names (Text.trim (t ++ ' ' :: name))) := by
  obtain ⟨u,v,rfl,left,right,ends⟩ := free
  have unblank : ∀ c ∈ name, Text.isBlank c = false := fun c member =>
    Phrase.unblank_of_wordPart (Phrase.wordParts_of_name valid c member)
  have some := (compact_name valid).nonempty
  have body : Text.trim (u ++ word ++ v ++ ' ' :: name) =
      Text.trimStart u ++ word ++ v ++ ' ' :: name := by
    have around := phrasal.trimmed.trim_around phrasal.nonempty u (v ++ ' ' :: name)
    have last := (Text.trimmed_of_unblank unblank).trimEnd_around some (v ++ [' ']) []
    simp only [List.append_assoc,List.singleton_append,List.append_nil] at around last ⊢
    rw [around,last]
    simp [Text.trimEnd]
  rcases unnamed_cases _ (Text.trimmed_trim (u ++ word ++ v ++ ' ' :: name)) with
    kept | ⟨before,c,last,cut,blank,chars,same⟩
  · rw [kept,body]
    cases v with
    | cons d v =>
      obtain ⟨mark,other⟩ := right d rfl
      refine Stands.flags ⟨Text.trimStart u,d :: v ++ ' ' :: name,by simp,left.trimStart,?_⟩ phrasal begun
      exact followed_cons mark other _
    | nil =>
      obtain ⟨first,rest,rfl⟩ := List.exists_cons_of_ne_nil some
      rw [List.append_nil]
      refine flags_of_bare phrasal begun (hasBareFragment_of_led phrasal left.trimStart ?_ ?_ ?_)
      · intro c head
        obtain rfl : ' ' = c := by simpa using head
        decide
      · have head := Phrase.wordParts_of_name valid first (by simp)
        have trimmed : Text.trimStart (' ' :: first :: rest) = first :: rest :=
          Text.trimStart_cons (unblank first (by simp)) rest
        have other : first ≠ ':' := by
          rintro rfl
          exact absurd head (by decide)
        rw [trimmed]
        simpa [Text.startsWith,Text.after] using Ne.symm other
      · intro full member
        refine Bool.eq_false_iff.mpr fun starts => apart ⟨⟨u,by simp⟩,⟨full,member,?_⟩,kept⟩
        obtain ⟨rest,same⟩ := Text.startsWith_iff.mp starts
        exact ⟨rest,same.symm⟩
  · rw [body] at cut
    have nameless : ∀ d ∈ last, Text.isBlank d = false := fun d member =>
      Phrase.unblank_of_wordPart (by simp [Phrase.isWordPart,chars d member])
    obtain ⟨rfl,_⟩ := Text.append_blank_inj cut (by decide) blank unblank nameless
    rw [same,phrasal.trimmed.trimEnd_around phrasal.nonempty]
    exact Stands.flags ⟨_,_,rfl,left.trimStart,right.trimEnd⟩ phrasal begun

end Tag

end LuaStubs
