import LuaStubs.Lua.Quoted
import LuaStubs.Proofs.Words
import LuaStubs.Stub.Lines

/-! The lines of a stub file: each of them is empty, a comment or one statement, and none holds a line
end. -/
namespace LuaStubs.Stub

def Unbroken (t : Text) : Prop := ∀ c ∈ t, Lua.isNewline c = false

instance (t : Text) : Decidable (Unbroken t) := inferInstanceAs (Decidable (∀ c ∈ t, _))

theorem Unbroken.append {a b : Text} (first : Unbroken a) (second : Unbroken b) :
    Unbroken (a ++ b) := by
  intro c member
  rcases List.mem_append.mp member with inside | inside
  · exact first c inside
  · exact second c inside

theorem Unbroken.join {sep : Text} {pieces : List Text} (separator : Unbroken sep)
    (all : ∀ piece ∈ pieces, Unbroken piece) : Unbroken (Text.join sep pieces) := by
  intro c member
  rcases Text.mem_join member with inside | ⟨piece,among,inside⟩
  · exact separator c inside
  · exact all piece among c inside

theorem newline_blank {c : Char} (newline : Lua.isNewline c = true) : Text.isBlank c = true := by
  simp only [Lua.isNewline,Bool.or_eq_true,beq_iff_eq] at newline
  rcases newline with rfl | rfl <;> decide

theorem unbroken_of_unblank {t : Text} (unblank : ∀ c ∈ t, c = ' ' ∨ Text.isBlank c = false) :
    Unbroken t := by
  intro c member
  cases newline : Lua.isNewline c with
  | false => rfl
  | true =>
    rcases unblank c member with rfl | unblank
    · simp [Lua.isNewline] at newline
    · simp [newline_blank newline] at unblank

theorem unbroken_of_wordParts {t : Text} (parts : ∀ c ∈ t, Phrase.isWordPart c = true) :
    Unbroken t :=
  unbroken_of_unblank fun c member => Or.inr (Phrase.unblank_of_wordPart (parts c member))

theorem unbroken_collapse (t : Text) : Unbroken (Text.collapse t) :=
  unbroken_of_unblank fun _ member => (Text.mem_collapse member).imp id And.right

theorem Phrasal.unbroken {t : Text} (phrasal : Phrase.Phrasal t) : Unbroken t :=
  unbroken_of_unblank fun c member =>
    (phrasal.chars c member).imp id Phrase.unblank_of_wordPart

theorem unbroken_name {t : Text} (name : Lua.isName t = true) : Unbroken t :=
  unbroken_of_wordParts (Phrase.wordParts_of_name name)

theorem name_head {name : Text} (valid : Lua.isName name = true) :
    ∃ c rest, name = c :: rest ∧ Lua.isNameHead c = true := by
  cases name with
  | nil => simp [Lua.isName] at valid
  | cons c rest =>
    simp only [Lua.isName,Bool.and_eq_true] at valid
    exact ⟨c,rest,rfl,valid.1.1⟩

theorem unbroken_quoted (t : Text) : Unbroken (quoted t) := by
  have each (c : Char) : Unbroken (quotedChar c) := by
    unfold quotedChar
    split
    iterate 4 decide
    rename_i notFeed notReturn
    have feed : c ≠ '\n' := notFeed
    have carriage : c ≠ '\r' := notReturn
    simp [Unbroken,Lua.isNewline,feed,carriage]
  have body : Unbroken (t.flatMap quotedChar) := by
    intro c member
    obtain ⟨d,_,inside⟩ := List.mem_flatMap.mp member
    exact each d c inside
  exact ((show Unbroken "\"" by decide).append body).append (by decide)

theorem mem_dropReturn {line : Text} {c : Char} (member : c ∈ Text.dropReturn line) : c ∈ line := by
  unfold Text.dropReturn at member
  split at member
  · rename_i kept reversed
    have : c ∈ line.reverse := by rw [reversed]; simp [List.mem_reverse.mp member]
    exact List.mem_reverse.mp this
  · exact member

theorem mem_closeLines {pieces : List Text} {line : Text} (member : line ∈ Text.closeLines pieces) :
    ∃ piece ∈ pieces, ∀ c ∈ line, c ∈ piece := by
  fun_induction Text.closeLines pieces with
  | case1 => simp at member
  | case2 last empty => simp at member
  | case3 last nonempty =>
    obtain rfl := List.mem_singleton.mp member
    exact ⟨line,by simp,fun _ inside => inside⟩
  | case4 piece rest _ ih =>
    rcases List.mem_cons.mp member with rfl | later
    · exact ⟨piece,by simp,fun _ inside => mem_dropReturn inside⟩
    · obtain ⟨origin,among,inside⟩ := ih later
      exact ⟨origin,List.mem_cons_of_mem _ among,inside⟩

theorem textLines_unbroken {t line : Text} (member : line ∈ textLines t) : Unbroken line := by
  obtain ⟨outer,among,inside⟩ := List.mem_flatMap.mp member
  obtain ⟨piece,cut,origin⟩ := mem_closeLines among
  intro c here
  obtain ⟨kept,notReturn⟩ := Text.mem_splitAt inside c here
  have notFeed := (Text.mem_splitAt cut c (origin c kept)).2
  simp only [Lua.isNewline,notFeed,notReturn,Bool.or_self]

/-- A mark right behind the dashes of a comment is the first character of its text. -/
theorem startsWith_comment {mark : Char} {t : Text} :
    Text.startsWith (("---" : Text) ++ t) (("---" : Text) ++ [mark]) = true ↔ t.head? = some mark := by
  rw [Text.startsWith_iff]
  constructor
  · rintro ⟨rest,same⟩
    rw [List.append_assoc] at same
    rw [List.append_cancel_left same]
    rfl
  · intro head
    obtain ⟨rest,rfl⟩ := List.head?_eq_some_iff.mp head
    exact ⟨rest,by simp⟩

theorem closeLines_append {pieces rest : List Text} (nonempty : rest ≠ []) :
    Text.closeLines (pieces ++ rest) = pieces.map Text.dropReturn ++ Text.closeLines rest := by
  induction pieces with
  | nil => rfl
  | cons piece pieces ih =>
    rw [List.cons_append,Text.closeLines,ih,List.map_cons,List.cons_append]
    simp [nonempty]

theorem lines_unlines_cons (line : Text) (rest : List Text) :
    Text.lines (unlines (line :: rest)) =
      (Text.splitAt (· == '\n') line).map Text.dropReturn ++ Text.lines (unlines rest) := by
  have text : unlines (line :: rest) = line ++ '\n' :: unlines rest := by simp [unlines]
  rw [text,Text.lines,Text.splitAt_append_cons (by simp),closeLines_append (Text.splitAt_ne_nil _ _)]
  rfl

theorem Unbroken.dropReturn {line : Text} (unbroken : Unbroken line) : Text.dropReturn line = line := by
  unfold Text.dropReturn
  split
  · rename_i kept reversed
    have : '\r' ∈ line := by rw [← List.mem_reverse,reversed]; simp
    simpa [Lua.isNewline] using unbroken _ this
  · rfl

theorem Unbroken.splitAt {line : Text} (unbroken : Unbroken line) :
    Text.splitAt (· == '\n') line = [line] := by
  refine Text.splitAt_of_uncut fun c member => ?_
  have := unbroken c member
  simp only [Lua.isNewline,Bool.or_eq_false_iff] at this
  exact this.1

/-- A line that was written is read, whatever stands around it. -/
theorem mem_lines_unlines {lines : List Text} {line : Text} (member : line ∈ lines)
    (unbroken : Unbroken line) : line ∈ Text.lines (unlines lines) := by
  induction lines with
  | nil => simp at member
  | cons first rest ih =>
    rw [lines_unlines_cons]
    rcases List.mem_cons.mp member with rfl | later
    · simp [unbroken.splitAt,unbroken.dropReturn]
    · exact List.mem_append_right _ (ih later)

/-- What was written line by line is read line by line. -/
theorem lines_unlines {lines : List Text} (unbroken : ∀ line ∈ lines, Unbroken line) :
    Text.lines (unlines lines) = lines := by
  induction lines with
  | nil => rfl
  | cons line rest ih =>
    have whole := unbroken line (by simp)
    rw [lines_unlines_cons,ih fun other member => unbroken other (by simp [member]),whole.splitAt,
      List.map_singleton,whole.dropReturn,List.singleton_append]

end LuaStubs.Stub
