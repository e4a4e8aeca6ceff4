import LuaStubs.Proofs.Fragments
import LuaStubs.Proofs.Unions
import LuaStubs.Proofs.Writability

/-! The type on a line of a parameter or a return value is read back as it was written, whatever name
and description stand beside it. -/
namespace LuaStubs

theorem Text.trimmed_iff {t : Text} :
    Trimmed t ↔ t.head?.any isBlank = false ∧ t.getLast?.any isBlank = false := by
  have each (o : Option Char) : (∀ c ∈ o, isBlank c = false) ↔ o.any isBlank = false := by
    cases o <;> simp
  constructor
  · exact fun trimmed => ⟨(each _).mp trimmed.head,(each _).mp trimmed.last⟩
  · exact fun ⟨head,last⟩ => ⟨(each _).mpr head,(each _).mpr last⟩

instance (t : Text) : Decidable (Text.Trimmed t) := decidable_of_iff _ Text.trimmed_iff.symm

namespace Stub

theorem nesting_of_pair {opening closing : Char} (kind : (opening,closing) ∈ bracketPairs) :
    Phrase.nesting opening = 1 ∧ Phrase.nesting closing = -1 := by
  rcases pair_cases kind with ⟨rfl,rfl⟩ | ⟨rfl,rfl⟩ | ⟨rfl,rfl⟩ | ⟨rfl,rfl⟩ <;> exact ⟨rfl,rfl⟩

theorem Dyck.depth {w : Text} (dyck : Dyck w) : Phrase.depth w = 0 := by
  induction dyck with
  | nil => rfl
  | pair kind _ _ inner rest =>
    obtain ⟨opens,closes⟩ := nesting_of_pair kind
    rw [Phrase.depth_cons,Phrase.depth_append,Phrase.depth_cons,inner,rest,opens,closes]
    omega

/-- Only brackets count. -/
theorem depth_brackets (t : Text) : Phrase.depth (brackets t) = Phrase.depth t := by
  induction t with
  | nil => rfl
  | cons c t ih =>
    by_cases opens : closing? c = none
    · by_cases closes : isClosing c = true
      · rw [brackets_closing closes,Phrase.depth_cons,Phrase.depth_cons,ih]
      · have level : Phrase.nesting c = 0 := by simp [Phrase.nesting_eq,opens,closes]
        rw [brackets_other opens closes,Phrase.depth_cons,ih,level]
        omega
    · obtain ⟨close,closed⟩ := Option.ne_none_iff_exists'.mp opens
      rw [brackets_opening (closing?_eq_some.mp closed),Phrase.depth_cons,Phrase.depth_cons,ih]

theorem Matched.depth {t : Text} (matched : Matched t) : Phrase.depth t = 0 := by
  rw [← depth_brackets]
  exact Dyck.depth matched

theorem Param.faults_eq_nil {subject : Text} {p : Param} : p.faults subject = [] ↔
    IsParamName p.name ∧ Matched p.rendered := by
  rw [faults,List.append_eq_nil_iff,paramNameFaults_eq_nil,typeFaults_eq_nil]

end Stub

namespace Tag

/-- In whatever file it stands and with whatever number, the line is listed once, with this type. -/
def ReadAs (names : List Text) (line type : Text) : Prop :=
  ∀ file i, file[i]? = some line → ∀ typed,
    typed ∈ typedLines names file ∧ typed.line = i + 1 ↔ typed = ⟨i + 1, line, type⟩

theorem readAs_of_type {names : List Text} {line type : Text} (read : type? names line = some type) :
    ReadAs names line type := by
  intro file i place typed
  rw [typedLines,mem_typedFrom]
  constructor
  · rintro ⟨⟨j,listed,number,portion⟩,same⟩
    obtain rfl : j = i := by omega
    obtain text : line = typed.text := Option.some.inj (place.symm.trans listed)
    rw [← text,read] at portion
    obtain ⟨n,written,found⟩ := typed
    obtain rfl : line = written := text
    obtain rfl : n = j + 1 := same
    rw [Option.some.inj portion]
  · rintro rfl
    exact ⟨⟨i,place,Nat.add_comm i 1,read⟩,rfl⟩

def FirstReadAs (names lines : List Text) (type : Text) : Prop :=
  ∃ line rest, Text.lines (Stub.unlines lines) = line :: rest ∧ ReadAs names line type

end Tag

namespace Stub

open Tag (FirstReadAs)

/-- A text that a type can be written as: in one line, without the mark of a description and without
white space around it. -/
structure IsTypeText (t : Text) : Prop where
  nonempty : t ≠ []
  unmarked : '#' ∉ t
  unbroken : Unbroken t
  trimmed : Text.Trimmed t

instance (t : Text) : Decidable (IsTypeText t) :=
  decidable_of_iff (t ≠ [] ∧ '#' ∉ t ∧ Unbroken t ∧ Text.Trimmed t)
    ⟨fun ⟨nonempty,unmarked,unbroken,trimmed⟩ => ⟨nonempty,unmarked,unbroken,trimmed⟩,
      fun text => ⟨text.nonempty,text.unmarked,text.unbroken,text.trimmed⟩⟩

/-- The lines of a description come after a first line that starts with what is described. -/
theorem firstReadAs_described {names : List Text} {head t type : Text}
    (unbroken : ∀ line ∈ describedLines head " #" t, Unbroken line)
    (read : ∀ more, (more = [] ∨ ∃ rest, more = ' ' :: '#' :: rest) →
      Tag.type? names (head ++ more) = some type) :
    FirstReadAs names (describedLines head " #" t) type := by
  obtain ⟨more,lines,described⟩ := describedLines_eq head " #" t
  refine ⟨_,_,(lines_unlines unbroken).trans lines,Tag.readAs_of_type (read more ?_)⟩
  exact described.imp_right fun ⟨rest,text⟩ => ⟨rest,text⟩

theorem Param.type_read_back (names : List Text) {subject : Text} {p : Param}
    (accepted : p.faults subject = []) (text : IsTypeText p.rendered) :
    FirstReadAs names p.lines p.rendered := by
  obtain ⟨valid,_⟩ := Param.faults_eq_nil.mp accepted
  apply firstReadAs_described
  · exact fun line member => (remark_param valid.unbroken text.unbroken member).unbroken
  · exact fun more => Tag.type_param_trimmed valid text.trimmed text.nonempty text.unmarked

/-- Of a type with white space in brackets only, all that is read is the type and the name. -/
theorem Return.compact {subject : Text} {r : Return} (accepted : r.faults subject = [])
    (text : IsTypeText r.rendered) (blanks : Phrase.BlanksInside 0 r.rendered) :
    Tag.Compact r.rendered :=
  ⟨⟨(Return.faults_eq_nil.mp accepted).1.depth,blanks⟩,text.nonempty,text.unmarked⟩

theorem Return.lines_unbroken {subject : Text} {r : Return} (accepted : r.faults subject = [])
    (text : IsTypeText r.rendered) : ∀ line ∈ r.lines, Unbroken line := by
  intro line member
  have names := (Return.faults_eq_nil.mp accepted).2
  exact (remark_return (fun name given => unbroken_name (names name given)) text.unbroken member).unbroken

/-- A type is read back from the first line that is written for a parameter. From the first line of a
return value it is read back too where it is one word outside brackets; only where a name of several
words ends in the name of the value, that name is taken for part of the type. -/
theorem written_type_read_back (names : List Text) (subject : Text) :
    (∀ p : Param, IsTypeText p.rendered → p.faults subject = [] →
      FirstReadAs names p.lines p.rendered) ∧
    ∀ r : Return, IsTypeText r.rendered → r.faults subject = [] →
      Phrase.BlanksInside 0 r.rendered → r.rendered ≠ ("or" : Text) →
      (r.name = none → FirstReadAs names r.lines r.rendered) ∧
      ∀ name, r.name = some name →
        ((∃ known ∈ names, known <:+ r.rendered ++ ' ' :: name) →
          FirstReadAs names r.lines (r.rendered ++ ' ' :: name)) ∧
        ((∀ known ∈ names, ¬known <:+ r.rendered ++ ' ' :: name) →
          FirstReadAs names r.lines r.rendered) := by
  refine ⟨fun p text accepted => Param.type_read_back names accepted text,?_⟩
  intro r text accepted blanks notOr
  have compact := Return.compact accepted text blanks
  have unbroken := Return.lines_unbroken accepted text
  rw [Return.lines_eq] at unbroken ⊢
  constructor
  · intro unnamed
    rw [unnamed,Option.elim_none,List.append_nil] at unbroken ⊢
    exact firstReadAs_described unbroken fun more => compact.type_alone
  · intro name named
    have valid := (Return.faults_eq_nil.mp accepted).2 name named
    rw [named,Option.elim_some] at unbroken ⊢
    have read {type : Text} (same : Tag.unnamed names (r.rendered ++ ' ' :: name) = type) :
        FirstReadAs names (describedLines ("---@return " ++ (r.rendered ++ ' ' :: name)) " #"
          r.description) type := by
      apply firstReadAs_described unbroken
      intro more described
      rw [compact.type_named notOr valid described,same]
    have ends : names.any (Text.endsWith (r.rendered ++ ' ' :: name)) = true ↔
        ∃ known ∈ names, known <:+ r.rendered ++ ' ' :: name := by
      simp only [List.any_eq_true,Text.endsWith_iff]
    constructor
    · intro whole
      apply read
      rw [compact.unnamed_name names notOr valid,if_pos (ends.mpr whole)]
    · intro none
      apply read
      rw [compact.unnamed_name names notOr valid,if_neg]
      intro any
      obtain ⟨known,among,suffix⟩ := ends.mp any
      exact none known among suffix

def lengthy : Param where
  name := "..."
  type := .named "(a, b or c) or light userdata"
  base := "(a, b or c) or light userdata"
  rendered := "(a, b or c) or light userdata"
  optional := false
  default := some "#"
  description := " # one\rtwo"

def describedReturn (type : Text) (name : Option Text) : Return :=
  ⟨name, .named type, type, type, "is # a light\n"⟩

theorem lengthy_read_back :
    let names : List Text := ["light userdata"]
    FirstReadAs names lengthy.lines "(a, b or c) or light userdata" ∧
    FirstReadAs names (describedReturn "\x7ba: b c\x7d|d" none).lines "\x7ba: b c\x7d|d" ∧
    FirstReadAs names (describedReturn "\x7ba: b c\x7d|d" (some "userdata")).lines "\x7ba: b c\x7d|d" ∧
    FirstReadAs names (describedReturn "light" (some "userdata")).lines "light userdata" := by
  intro names
  have table : IsTypeText "\x7ba: b c\x7d|d" := by decide
  have light : IsTypeText "light" := by decide
  have param : IsTypeText lengthy.rendered := by decide
  obtain ⟨params,returns⟩ := written_type_read_back names "f"
  obtain ⟨alone,_⟩ := returns (describedReturn "\x7ba: b c\x7d|d" none) table rfl (by decide) (by decide)
  obtain ⟨_,named⟩ := returns (describedReturn "\x7ba: b c\x7d|d" (some "userdata")) table rfl (by decide)
    (by decide)
  obtain ⟨_,whole⟩ := returns (describedReturn "light" (some "userdata")) light rfl (by decide) (by decide)
  refine ⟨params lengthy param rfl,alone rfl,(named _ rfl).2 (by decide),(whole _ rfl).1 (by decide)⟩

end Stub
end LuaStubs
