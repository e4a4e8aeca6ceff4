import LuaStubs.Phrase.Alternatives
import LuaStubs.Proofs.Lines

/-! The lines of free text, read character by character, and where the mark of a tag may stand in
them. -/
namespace LuaStubs.Stub

open Phrase (consFirst)

theorem lines_feed (t : Text) : Text.lines ('\n' :: t) = [] :: Text.lines t := by
  obtain ⟨piece,rest,pieces⟩ := List.exists_cons_of_ne_nil (Text.splitAt_ne_nil (· == '\n') t)
  simp [Text.lines,Text.splitAt,pieces,Text.closeLines,Text.dropReturn]

theorem lines_returnFeed (t : Text) : Text.lines ('\r' :: '\n' :: t) = [] :: Text.lines t := by
  obtain ⟨piece,rest,pieces⟩ := List.exists_cons_of_ne_nil (Text.splitAt_ne_nil (· == '\n') t)
  simp [Text.lines,Text.splitAt,pieces,Text.closeLines,Text.dropReturn]

theorem dropReturn_cons {c : Char} {line : Text} (kept : c ≠ '\r' ∨ line ≠ []) :
    Text.dropReturn (c :: line) = c :: Text.dropReturn line := by
  unfold Text.dropReturn
  rw [List.reverse_cons]
  cases reversed : line.reverse with
  | nil =>
    have empty : line = [] := by simpa using reversed
    have other : c ≠ '\r' := kept.resolve_right (by simp [empty])
    simp [other,empty]
  | cons last before =>
    by_cases carriage : last = '\r'
    · simp [carriage]
    · simp [carriage]

theorem lines_cons {c : Char} {t : Text} (notFeed : c ≠ '\n')
    (kept : c ≠ '\r' ∨ t.head? ≠ some '\n') :
    Text.lines (c :: t) = consFirst c (Text.lines t) := by
  obtain ⟨piece,rest,pieces⟩ := List.exists_cons_of_ne_nil (Text.splitAt_ne_nil (· == '\n') t)
  have split : Text.splitAt (· == '\n') (c :: t) = (c :: piece) :: rest :=
    Text.splitAt_cons_of_uncut (by simpa using notFeed) pieces
  rw [Text.lines,Text.lines,split,pieces]
  cases rest with
  | nil => cases piece <;> simp [Text.closeLines,consFirst]
  | cons second rest =>
    have whole : c ≠ '\r' ∨ piece ≠ [] := by
      refine kept.imp id fun other => ?_
      rintro rfl
      cases t with
      | nil => simp [Text.splitAt] at pieces
      | cons d t =>
        obtain ⟨first,more,inner⟩ := List.exists_cons_of_ne_nil (Text.splitAt_ne_nil (· == '\n') t)
        have first : Text.splitAt (· == '\n') (d :: t) = (d :: first) :: more :=
          Text.splitAt_cons_of_uncut (by simpa using other) inner
        simp [first] at pieces
    simp [Text.closeLines,dropReturn_cons whole,consFirst]

theorem textLines_feed (t : Text) : textLines ('\n' :: t) = [] :: textLines t := by
  rw [textLines,lines_feed]
  rfl

theorem textLines_returnFeed (t : Text) : textLines ('\r' :: '\n' :: t) = [] :: textLines t := by
  rw [textLines,lines_returnFeed]
  rfl

theorem textLines_cons {c : Char} {t : Text} (inLine : Lua.isNewline c = false) :
    textLines (c :: t) = consFirst c (textLines t) := by
  simp only [Lua.isNewline,Bool.or_eq_false_iff,beq_eq_false_iff_ne] at inLine
  rw [textLines,lines_cons inLine.1 (Or.inl inLine.2),textLines]
  cases lines : Text.lines t with
  | nil => simp [consFirst,Text.splitAt,inLine.2]
  | cons line rest =>
    obtain ⟨piece,more,pieces⟩ := List.exists_cons_of_ne_nil (Text.splitAt_ne_nil (· == '\r') line)
    have split : Text.splitAt (· == '\r') (c :: line) = (c :: piece) :: more :=
      Text.splitAt_cons_of_uncut (by simpa using inLine.2) pieces
    simp [consFirst,split,pieces]

theorem lines_eq_nil {t : Text} (none : Text.lines t = []) : t = [] := by
  cases t with
  | nil => rfl
  | cons c t =>
    exfalso
    by_cases feed : c = '\n'
    · simp [feed,lines_feed] at none
    · by_cases both : c = '\r' ∧ t.head? = some '\n'
      · obtain ⟨rfl,second⟩ := both
        obtain ⟨rest,rfl⟩ := List.head?_eq_some_iff.mp second
        simp [lines_returnFeed] at none
      · rw [lines_cons feed (Decidable.not_and_iff_or_not.mp both)] at none
        cases lines : Text.lines t <;> simp [lines,consFirst] at none

/-- A carriage return of its own ends a line; at the end of the text an empty line follows. -/
theorem textLines_return {t : Text} (alone : t.head? ≠ some '\n') :
    textLines ('\r' :: t) = [] :: (if t = [] then [[]] else textLines t) := by
  rw [textLines,lines_cons (by decide) (Or.inr alone)]
  cases lines : Text.lines t with
  | nil =>
    obtain rfl := lines_eq_nil lines
    rfl
  | cons line rest =>
    have some : t ≠ [] := by
      rintro rfl
      simp [Text.lines,Text.splitAt,Text.closeLines] at lines
    simp [some,textLines,lines,consFirst,Text.splitAt]

/-- Texts by the line ends that they start with. -/
theorem lineInduction {motive : Text → Prop} (nil : motive [])
    (feed : ∀ t, motive t → motive ('\n' :: t))
    (returnFeed : ∀ t, motive t → motive ('\r' :: '\n' :: t))
    (alone : ∀ t : Text, t.head? ≠ some '\n' → motive t → motive ('\r' :: t))
    (char : ∀ c t, Lua.isNewline c = false → motive t → motive (c :: t)) (t : Text) : motive t := by
  induction size : t.length using Nat.strongRecOn generalizing t with
  | ind n ih =>
    subst size
    cases t with
    | nil => exact nil
    | cons c t =>
      have rest : motive t := ih t.length (by simp) t rfl
      by_cases isFeed : c = '\n'
      · exact isFeed ▸ feed t rest
      · by_cases isReturn : c = '\r'
        · subst isReturn
          by_cases second : t.head? = some '\n'
          · obtain ⟨t,rfl⟩ := List.head?_eq_some_iff.mp second
            have shorter : t.length < ('\r' :: '\n' :: t).length := by
              rw [List.length_cons,List.length_cons]
              omega
            exact returnFeed t (ih t.length shorter t rfl)
          · exact alone t second rest
        · exact char c t (by simp [Lua.isNewline,isFeed,isReturn]) rest

/-- The first line of a text is empty only where a line end comes first. -/
theorem textLines_first {t : Text} (some : t ≠ []) : ∃ first rest, textLines t = first :: rest ∧
    (first = [] → '\n' ∈ t ∨ '\r' ∈ t) := by
  induction t using lineInduction with
  | nil => exact absurd rfl some
  | feed t _ => exact ⟨[],_,textLines_feed t,by simp⟩
  | returnFeed t _ => exact ⟨[],_,textLines_returnFeed t,by simp⟩
  | alone t second _ => exact ⟨[],_,textLines_return second,by simp⟩
  | char c t inLine _ =>
    rw [textLines_cons inLine]
    cases textLines t with
    | nil => exact ⟨[c],[],rfl,by simp⟩
    | cons first rest => exact ⟨c :: first,rest,rfl,by simp⟩

/-- No line of a free text starts with the mark of a tag. -/
def Untagged (t : Text) : Prop := ∀ line ∈ textLines t, line.head? ≠ some '@'

instance (t : Text) : Decidable (Untagged t) := inferInstanceAs (Decidable (∀ line ∈ _, _))

def Unmarked (t : Text) : Prop := ∀ u c v, t = u ++ c :: '@' :: v → Lua.isNewline c = false

theorem unmarked_cons {c : Char} {t : Text} :
    Unmarked (c :: t) ↔ (Lua.isNewline c = true → t.head? ≠ some '@') ∧ Unmarked t := by
  constructor
  · intro unmarked
    refine ⟨fun newline head => ?_,fun u d v same => unmarked (c :: u) d v (by simp [same])⟩
    obtain ⟨rest,rfl⟩ := List.head?_eq_some_iff.mp head
    simp [unmarked [] c rest rfl] at newline
  · rintro ⟨first,later⟩ u d v same
    cases u with
    | nil =>
      obtain ⟨rfl,rfl⟩ := List.cons.inj same
      cases newline : Lua.isNewline c with
      | false => rfl
      | true => exact absurd rfl (first newline)
    | cons e u => exact later u d v (List.cons.inj same).2

/-- The first line starts as the text does. -/
theorem textLines_head {t : Text} : (∃ line ∈ (textLines t).head?, line.head? = some '@') ↔
    t.head? = some '@' := by
  induction t using lineInduction with
  | nil => simp [textLines,Text.lines,Text.splitAt,Text.closeLines]
  | feed t _ => simp [textLines_feed]
  | returnFeed t _ => simp [textLines_returnFeed]
  | alone t second _ => simp [textLines_return second]
  | char c t inLine _ =>
    rw [textLines_cons inLine]
    cases textLines t <;> simp [consFirst]

/-- The lines after the first start right behind a line end. -/
theorem untagged_tail_iff {t : Text} :
    (∀ line ∈ (textLines t).tail, line.head? ≠ some '@') ↔ Unmarked t := by
  have all (t : Text) : (∀ line ∈ textLines t, line.head? ≠ some '@') ↔
      t.head? ≠ some '@' ∧ ∀ line ∈ (textLines t).tail, line.head? ≠ some '@' := by
    have head : t.head? ≠ some '@' ↔ ¬∃ line ∈ (textLines t).head?, line.head? = some '@' :=
      not_congr textLines_head.symm
    rw [head]
    cases textLines t <;> simp
  induction t using lineInduction with
  | nil => simp [textLines,Text.lines,Text.splitAt,Text.closeLines,Unmarked]
  | feed t ih =>
    have ih : _ ↔ Unmarked t := ih
    rw [textLines_feed,List.tail_cons,all,ih,unmarked_cons]
    simp [Lua.isNewline]
  | returnFeed t ih =>
    have ih : _ ↔ Unmarked t := ih
    rw [textLines_returnFeed,List.tail_cons,all,ih,unmarked_cons,unmarked_cons]
    simp [Lua.isNewline]
  | alone t second ih =>
    have ih : _ ↔ Unmarked t := ih
    rw [textLines_return second,List.tail_cons,unmarked_cons]
    split
    · rename_i empty
      subst empty
      simp [Unmarked]
    · rw [all,ih]
      simp [Lua.isNewline]
  | char c t inLine ih =>
    have ih : _ ↔ Unmarked t := ih
    rw [textLines_cons inLine,unmarked_cons,← ih]
    cases textLines t <;> simp [consFirst,inLine]

theorem Untagged.unmarked {t : Text} (untagged : Untagged t) : Unmarked t :=
  untagged_tail_iff.mp fun line member => untagged line (List.mem_of_mem_tail member)

theorem Untagged.head {t : Text} (untagged : Untagged t) : t.head? ≠ some '@' := by
  intro head
  obtain ⟨line,first,marked⟩ := textLines_head.mpr head
  exact untagged line (List.mem_of_mem_head? first) marked

theorem Unmarked.append {a b : Text} (first : Unmarked a) (second : Unmarked b)
    (between : b.head? ≠ some '@') : Unmarked (a ++ b) := by
  induction a with
  | nil => exact second
  | cons c a ih =>
    obtain ⟨here,later⟩ := unmarked_cons.mp first
    refine unmarked_cons.mpr ⟨fun newline => ?_,ih later⟩
    cases a with
    | nil => exact between
    | cons d a => exact here newline

theorem Unmarked.suffix {a t : Text} (unmarked : Unmarked t) (ending : a <:+ t) : Unmarked a := by
  obtain ⟨start,rfl⟩ := ending
  intro u c v same
  exact unmarked (start ++ u) c v (by simp [same])

theorem unmarked_of_unbroken {t : Text} (unbroken : Unbroken t) : Unmarked t := by
  intro u c v same
  exact unbroken c (by simp [same])

/-- The remark of a parameter is its description with the default behind it. -/
theorem Param.remark_unmarked {p : Param} (description : Untagged p.description)
    (default : ∀ d ∈ p.default, Untagged d) : Unmarked p.remark := by
  unfold Param.remark
  refine Unmarked.suffix ?_ (List.dropWhile_suffix _)
  cases given : p.default with
  | none => simpa using description.unmarked
  | some d =>
    have literal := default d (by simp [given])
    have shown : Unmarked (" (default: `" ++ d ++ "`)") :=
      ((unmarked_of_unbroken (by decide)).append literal.unmarked literal.head).append
        (unmarked_of_unbroken (by decide)) (by decide)
    exact description.unmarked.append shown (by simp)

end LuaStubs.Stub
