import LuaStubs.Proofs.FreeText
import LuaStubs.Proofs.Layout
import LuaStubs.Tag.Completeness

/-! What the check of tags reads in the lines of a stub file. -/
namespace LuaStubs.Tag

/-- A line that gives no remark, whatever comments are above it. -/
def Quiet (line : Text) : Prop := ∀ block, wrong? block line = none

theorem quiet_of_read {line : Text} (tagless : read? line = none)
    (plain : Declaration.read? line = none) : Quiet line := by
  intro block
  rw [wrong?,tagless,plain]

theorem after_comment {t : Text} (untagged : t.head? ≠ some '@') (a : Tag) :
    a.after? (("---" : Text) ++ t) = none := by
  have other (word : Text) : Text.after ('-' :: '-' :: '-' :: '@' :: word) ("---" ++ t) = none := by
    change Text.after ('@' :: word) t = none
    cases t with
    | nil => rfl
    | cons c t =>
      have different : '@' ≠ c := fun same => untagged (by rw [same]; rfl)
      rw [Text.after,beq_eq_false_iff_ne.mpr different]
      rfl
  have absent : Text.after a.marker ("---" ++ t) = none := by
    cases a
    · exact other _
    · exact other _
    · exact other _
  rw [after?,absent]

theorem read_comment {t : Text} (untagged : t.head? ≠ some '@') :
    read? (("---" : Text) ++ t) = none := by
  simp only [read?,after_comment untagged,Option.map_none,List.findSome?_cons,List.findSome?_nil]

theorem quiet_comment {t : Text} (untagged : t.head? ≠ some '@') : Quiet (("---" : Text) ++ t) :=
  quiet_of_read (read_comment untagged) rfl

/-- The lines give no remark below the comments `above`, and leave the comments `left` above what
follows. -/
inductive Passes : (above lines left : List Text) → Prop where
  | done {above : List Text} : Passes above [] above
  | comment {line : Text} {above lines left : List Text} : isComment line = true →
      wrong? above.reverse line = none → Passes (line :: above) lines left →
      Passes above (line :: lines) left
  | code {line : Text} {above lines left : List Text} : isComment line = false →
      wrong? above.reverse line = none → Passes [] lines left → Passes above (line :: lines) left

namespace Passes

variable {above lines more left last : List Text}

theorem remarks_nil (passes : Passes above lines left) (n : Nat) : lineRemarks n above lines = [] := by
  induction passes generalizing n with
  | done => rfl
  | comment isComment none _ ih => simp [lineRemarks,none,isComment,ih]
  | code notComment none _ ih => simp [lineRemarks,none,notComment,ih]

theorem append (first : Passes above lines left) (second : Passes left more last) :
    Passes above (lines ++ more) last := by
  induction first with
  | done => exact second
  | comment isComment none _ ih => exact .comment isComment none (ih second)
  | code notComment none _ ih => exact .code notComment none (ih second)

theorem comments (all : ∀ line ∈ lines, isComment line = true ∧ Quiet line) :
    Passes above lines (lines.reverse ++ above) := by
  induction lines generalizing above with
  | nil => exact .done
  | cons line lines ih =>
    obtain ⟨comment,quiet⟩ := all line (by simp)
    have rest : Passes (line :: above) lines (lines.reverse ++ line :: above) :=
      ih fun other member => all other (by simp [member])
    simpa using Passes.comment comment (quiet _) rest

end Passes

def Settled (lines : List Text) : Prop := ∀ above, ∃ left, Passes above lines left

namespace Settled

theorem append {a b : List Text} (first : Settled a) (second : Settled b) : Settled (a ++ b) := by
  intro above
  obtain ⟨left,passes⟩ := first above
  obtain ⟨last,more⟩ := second left
  exact ⟨last,passes.append more⟩

theorem nil : Settled [] := fun above => ⟨above,.done⟩

theorem cons {line : Text} {lines : List Text} (quiet : Quiet line) (rest : Settled lines) :
    Settled (line :: lines) := by
  intro above
  cases kind : isComment line with
  | true =>
    obtain ⟨left,passes⟩ := rest (line :: above)
    exact ⟨left,.comment kind (quiet _) passes⟩
  | false =>
    obtain ⟨left,passes⟩ := rest []
    exact ⟨left,.code kind (quiet _) passes⟩

theorem all {lines : List Text} (each : ∀ line ∈ lines, Quiet line) : Settled lines := by
  induction lines with
  | nil => exact nil
  | cons line lines ih =>
    exact cons (each line (by simp)) (ih fun other member => each other (by simp [member]))

theorem flatMap {parts : List α} {lines : α → List Text}
    (each : ∀ part ∈ parts, Settled (lines part)) : Settled (parts.flatMap lines) := by
  induction parts with
  | nil => exact nil
  | cons part parts ih =>
    exact (each part (by simp)).append (ih fun other member => each other (by simp [member]))

/-- An empty line parts what follows from the comments above it. -/
theorem afterBlank {lines left : List Text} (passes : Passes [] lines left) :
    Settled ([] :: lines) :=
  fun _ => ⟨left,.code rfl rfl passes⟩

end Settled

theorem namePart_of_nameTail {c : Char} (tail : Lua.isNameTail c = true) :
    Declaration.isNamePart c = true := by
  simp only [Lua.isNameTail,Bool.or_eq_true] at tail
  rcases tail with alphanum | underscore
  · simp [Declaration.isNamePart,Text.isWordChar,Phrase.ascii_of_alphanum alphanum,alphanum]
  · obtain rfl : c = '_' := by simpa using underscore
    decide

theorem namePart_of_name {t : Text} (name : Lua.isName t = true) :
    ∀ c ∈ t, Declaration.isNamePart c = true :=
  fun c member => namePart_of_nameTail (Phrase.nameTails_of_name name c member)

theorem unblank_of_paramName {name : Text} (valid : Stub.IsParamName name) :
    ∀ c ∈ name, Text.isBlank c = false := by
  rcases valid with rfl | valid
  · decide
  · exact fun c member => Phrase.unblank_of_wordPart (Phrase.wordParts_of_name valid c member)

theorem paramName_ne_nil {name : Text} (valid : Stub.IsParamName name) : name ≠ [] := by
  rintro rfl
  rcases valid with same | valid
  · simp [Api.varargsName] at same
  · simp [Lua.isName] at valid

/-- No name of a parameter holds a character that ends it. -/
theorem not_mem_paramName {name : Text} {c : Char} (valid : Stub.IsParamName name)
    (other : Phrase.isWordPart c = false) : c ∉ name := by
  intro member
  rcases valid with rfl | valid
  · obtain rfl : c = '.' := by simpa [Api.varargsName] using member
    simp [Phrase.isWordPart] at other
  · simp [Phrase.wordParts_of_name valid c member] at other

namespace Declaration

theorem paramNames_join {params : List Text} (valid : ∀ p ∈ params, Stub.IsParamName p) :
    paramNames (Text.join ", " params) = params := by
  have cut {name : Text} (valid : Stub.IsParamName name) :
      Text.splitAt (· == ',') name = [name] := by
    refine Text.splitAt_of_uncut fun c member => ?_
    have other : c ≠ ',' := fun same => not_mem_paramName valid (by decide) (same ▸ member)
    simpa using other
  have trimmed {name : Text} (valid : Stub.IsParamName name) : Text.trim name = name :=
    (Text.trimmed_of_unblank (unblank_of_paramName valid)).trim
  induction params with
  | nil => rfl
  | cons first rest ih =>
    have here := valid first (by simp)
    cases rest with
    | nil => simp [paramNames,cut here,trimmed here,paramName_ne_nil here]
    | cons second rest =>
      have later := ih fun p member => valid p (by simp [List.mem_cons.mp member])
      obtain ⟨piece,more,pieces⟩ := List.exists_cons_of_ne_nil
        (Text.splitAt_ne_nil (· == ',') (Text.join ", " (second :: rest)))
      have spaced : Text.splitAt (· == ',') (' ' :: Text.join ", " (second :: rest)) =
          (' ' :: piece) :: more :=
        Text.splitAt_cons_of_uncut (by decide) pieces
      have joined : Text.join ", " (first :: second :: rest) =
          first ++ ',' :: ' ' :: Text.join ", " (second :: rest) := by
        simp
      rw [paramNames,pieces] at later
      rw [paramNames,joined,Text.splitAt_append_cons (by decide),cut here,spaced]
      simp only [List.map_cons,List.singleton_append,trimmed here,
        Text.trim_cons_blank (show Text.isBlank ' ' = true by decide)] at later ⊢
      rw [List.filter_cons_of_pos (by simpa using paramName_ne_nil here),later]

/-- The end of a declaration line. -/
theorem withParams_join {name : Text} {params : List Text}
    (valid : ∀ p ∈ params, Stub.IsParamName p) :
    withParams? name ('(' :: (Text.join ", " params ++ ')' :: " end")) = some ⟨name, params⟩ := by
  have noClose : ∀ d ∈ Text.join ", " params, (d != ')') = true := by
    intro d member
    rcases Text.mem_join member with separator | ⟨p,among,inside⟩
    · have mark : d = ',' ∨ d = ' ' := by simpa using separator
      rcases mark with rfl | rfl <;> decide
    · have other : d ≠ ')' := fun same =>
        not_mem_paramName (valid p among) (by decide) (same ▸ inside)
      simpa using other
  rw [withParams?,List.dropWhile_append_of_pos noClose,List.takeWhile_append_of_pos noClose]
  change some (⟨name, paramNames (Text.join ", " params ++ [])⟩ : Declaration) = _
  rw [List.append_nil,paramNames_join valid]

/-- A declaration is read as its name and its parameters. -/
theorem read_declarationLine {owner mark name : Text} {params : List Text}
    (head : ∃ c rest, owner = c :: rest ∧ Lua.isNameHead c = true)
    (parts : ∀ c ∈ owner ++ mark ++ name, isNamePart c = true)
    (valid : ∀ p ∈ params, Stub.IsParamName p) :
    read? (Stub.declarationLine owner mark name params) = some ⟨owner ++ mark ++ name, params⟩ := by
  obtain ⟨c,rest,path,nameHead⟩ : ∃ c rest, owner ++ mark ++ name = c :: rest ∧
      Lua.isNameHead c = true := by
    obtain ⟨c,rest,rfl,nameHead⟩ := head
    exact ⟨c,rest ++ mark ++ name,by simp,nameHead⟩
  have unblank : Text.isBlank c = false :=
    Phrase.unblank_of_wordPart (Phrase.wordPart_of_nameTail (Phrase.nameTail_of_nameHead nameHead))
  have line : Stub.declarationLine owner mark name params = ("function" : Text) ++ ' ' ::
      (c :: rest ++ '(' :: (Text.join ", " params ++ ')' :: " end")) := by
    rw [← path]
    unfold Stub.declarationLine
    simp
  rw [path] at parts ⊢
  have named (t : Text) : (c :: rest ++ '(' :: t).takeWhile isNamePart = c :: rest := by
    rw [List.takeWhile_append_of_pos parts]
    simp [isNamePart,Text.isWordChar]
  have behind (t : Text) : (c :: rest ++ '(' :: t).dropWhile isNamePart = '(' :: t := by
    rw [List.dropWhile_append_of_pos parts]
    simp [isNamePart,Text.isWordChar]
  have start (t : Text) : Text.trimStart (c :: rest ++ t) = c :: rest ++ t :=
    Text.trimStart_cons unblank _
  rw [line,← withParams_join valid]
  change (if (Text.isBlank ' ' && (Text.trimStart _).head?.any Lua.isNameHead) = true then
    withParams? ((Text.trimStart _).takeWhile isNamePart)
      (Text.trimStart ((Text.trimStart _).dropWhile isNamePart)) else none) = _
  rw [start,named,behind,Text.trimStart_cons (by decide)]
  simp [nameHead,show Text.isBlank ' ' = true by decide]

end Declaration

end LuaStubs.Tag
