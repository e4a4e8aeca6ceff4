import LuaStubs.Proofs.Annotations
import Mathlib.Data.List.Forall2

/-! The block of an enum read back: one entry for each value, in order, with the value in a literal
that can be told from what follows it, and comments. -/
namespace LuaStubs.Stub

/-- The body of a literal, from behind its opening quote up to the first quote that is not escaped,
and what follows that quote. -/
def cutLiteral : Text → Option (Text × Text)
  | [] => none
  | '"' :: rest => some ([], rest)
  | '\\' :: c :: rest => (cutLiteral rest).map (Prod.map (['\\', c] ++ ·) id)
  | c :: rest => (cutLiteral rest).map (Prod.map (c :: ·) id)

def escaped? : Char → Option Char
  | '"' => some '"'
  | '\\' => some '\\'
  | 'n' => some '\n'
  | 'r' => some '\r'
  | _ => none

def unescape : Text → Option Text
  | [] => some []
  | '\\' :: c :: rest => (escaped? c).bind fun d => (unescape rest).map (d :: ·)
  | c :: rest => if c = '\\' then none else (unescape rest).map (c :: ·)

/-- A character is escaped, or it is neither a quote nor a backslash. -/
theorem quotedChar_cases (c : Char) :
    (∃ d, quotedChar c = ['\\', d] ∧ escaped? d = some c) ∨
      quotedChar c = [c] ∧ c ≠ '"' ∧ c ≠ '\\' := by
  unfold quotedChar
  split
  · exact Or.inl ⟨'"',rfl,rfl⟩
  · exact Or.inl ⟨'\\',rfl,rfl⟩
  · exact Or.inl ⟨'n',rfl,rfl⟩
  · exact Or.inl ⟨'r',rfl,rfl⟩
  · rename_i quote backslash _ _
    exact Or.inr ⟨rfl,quote,backslash⟩

theorem cutLiteral_plain {c : Char} (quote : c ≠ '"') (backslash : c ≠ '\\') (rest : Text) :
    cutLiteral (c :: rest) = (cutLiteral rest).map (Prod.map (c :: ·) id) := by
  rw [cutLiteral]
  · exact quote
  · exact fun _ _ escape => absurd escape backslash

theorem unescape_plain {c : Char} (backslash : c ≠ '\\') (rest : Text) :
    unescape (c :: rest) = (unescape rest).map (c :: ·) := by
  rw [unescape,if_neg backslash]
  exact fun _ _ escape => absurd escape backslash

/-- Whatever follows it, a literal ends where its value does. -/
theorem cutLiteral_quoted (value rest : Text) :
    cutLiteral (value.flatMap quotedChar ++ '"' :: rest) = some (value.flatMap quotedChar, rest) := by
  induction value with
  | nil => rfl
  | cons c value ih =>
    rw [List.flatMap_cons,List.append_assoc]
    rcases quotedChar_cases c with ⟨d,escape,_⟩ | ⟨plain,quote,backslash⟩
    · rw [escape,List.cons_append,List.cons_append,List.nil_append,cutLiteral,ih]
      rfl
    · rw [plain,List.singleton_append,cutLiteral_plain quote backslash,ih]
      rfl

theorem unescape_quoted (value : Text) : unescape (value.flatMap quotedChar) = some value := by
  induction value with
  | nil => rfl
  | cons c value ih =>
    rw [List.flatMap_cons]
    rcases quotedChar_cases c with ⟨d,escape,meant⟩ | ⟨plain,_,backslash⟩
    · rw [escape,List.cons_append,List.singleton_append,unescape,meant,ih]
      rfl
    · rw [plain,List.singleton_append,unescape_plain backslash,ih]
      rfl

def isEntry (line : Text) : Bool := Text.startsWith line "---|"

/-- No line of a free text starts with the mark of an entry. -/
def Unbarred (t : Text) : Prop := ∀ line ∈ textLines t, line.head? ≠ some '|'

instance (t : Text) : Decidable (Unbarred t) := inferInstanceAs (Decidable (∀ line ∈ _, _))

/-- A line that gives a value back, with the first line of its description behind it if there is one. -/
def Gives (constant : Text × Text) (line : Text) : Prop :=
  ∃ literal body more, line = ("---| \"" : Text) ++ literal ∧ cutLiteral literal = some (body, more) ∧
    unescape body = some constant.1 ∧
    (constant.2 = [] ∧ more = [] ∨
      ∃ first, (textLines constant.2).head? = some first ∧ more = (" -- " : Text) ++ first)

/-- Comments from lines without the mark are no entries. -/
theorem entries_comments {texts : List Text} (unbarred : ∀ text ∈ texts, text.head? ≠ some '|') :
    (texts.map (("---" : Text) ++ ·)).filter isEntry = [] ∧
      (texts.map (("---" : Text) ++ ·)).filter (!isEntry ·) = texts.map (("---" : Text) ++ ·) := by
  have other : ∀ line ∈ texts.map (("---" : Text) ++ ·), isEntry line = false := by
    intro line member
    obtain ⟨text,among,rfl⟩ := List.mem_map.mp member
    refine Bool.eq_false_iff.mpr fun starts => ?_
    have marked : text.head? = some '|' := startsWith_comment.mp starts
    exact unbarred text among marked
  constructor
  · exact List.filter_eq_nil_iff.mpr fun line member => Bool.eq_false_iff.mp (other line member)
  · exact List.filter_eq_self.mpr fun line member => by simp [other line member]

def entryLine (constant : Text × Text) : Text :=
  titled ("---| " ++ quoted constant.1) " --" constant.2

def furtherLines (constant : Text × Text) : List Text :=
  (textLines constant.2).tail.map (("---" : Text) ++ ·)

theorem entryLine_gives (constant : Text × Text) : Gives constant (entryLine constant) := by
  unfold entryLine titled
  by_cases empty : constant.2 = []
  · refine ⟨_,_,[],?_,cutLiteral_quoted constant.1 [],unescape_quoted constant.1,Or.inl ⟨empty,rfl⟩⟩
    simp [empty,quoted]
  · obtain ⟨first,rest,lines,_⟩ := textLines_first empty
    refine ⟨_,_,_,?_,cutLiteral_quoted constant.1 (" -- " ++ first),unescape_quoted constant.1,
      Or.inr ⟨first,by simp [lines],rfl⟩⟩
    simp [empty,quoted,lines]

theorem entryLine_isEntry (constant : Text × Text) : isEntry (entryLine constant) = true := by
  obtain ⟨literal,_,_,line,_⟩ := entryLine_gives constant
  exact Text.startsWith_iff.mpr ⟨(" \"" : Text) ++ literal,by rw [line]; rfl⟩

theorem entries_constantLines {constant : Text × Text} (unbarred : Unbarred constant.2) :
    (constantLines constant.1 constant.2).filter isEntry = [entryLine constant] ∧
      (constantLines constant.1 constant.2).filter (!isEntry ·) = furtherLines constant := by
  have lines : constantLines constant.1 constant.2 = entryLine constant :: furtherLines constant :=
    describedLines_titled _ _ _
  obtain ⟨none,all⟩ := entries_comments fun text member => unbarred text (List.mem_of_mem_tail member)
  rw [lines]
  constructor
  · rw [List.filter_cons_of_pos (entryLine_isEntry constant),furtherLines,none]
  · rw [List.filter_cons_of_neg (by simp [entryLine_isEntry constant]),furtherLines,all]

/-- Below the name of an enum, the lines that start as entries give back its values, one each and in
order. All other lines are those of its description and the further lines of the descriptions of its
values, as comments. -/
theorem enum_read_back (e : Enum) (description : Unbarred e.description)
    (constants : ∀ constant ∈ e.constants, Unbarred constant.2) :
    ∃ block, unlines e.lines = unlines [[], aliasLine e.qualified] ++ block ∧
      (Unbroken e.qualified →
        Text.lines (unlines e.lines) = [] :: aliasLine e.qualified :: Text.lines block) ∧
      List.Forall₂ Gives e.constants ((Text.lines block).filter isEntry) ∧
      (Text.lines block).filter (!isEntry ·) =
        (textLines e.description).map (("---" : Text) ++ ·) ++
          e.constants.flatMap fun constant => (textLines constant.2).tail.map (("---" : Text) ++ ·) := by
  obtain ⟨none,all⟩ := entries_comments description
  have read : Text.lines (unlines e.below) = e.below :=
    lines_unlines ((lays_entries e).unbroken (by simp))
  have entries : e.below.filter isEntry = e.constants.map entryLine := by
    rw [Enum.below,List.filter_append,docLines,none,List.nil_append,List.filter_flatMap,
      List.map_eq_flatMap]
    exact List.flatMap_congr fun constant member => (entries_constantLines (constants constant member)).1
  have others : e.below.filter (!isEntry ·) = docLines e.description ++ e.constants.flatMap furtherLines := by
    rw [Enum.below,List.filter_append,docLines,all,List.filter_flatMap]
    congr 1
    exact List.flatMap_congr fun constant member => (entries_constantLines (constants constant member)).2
  refine ⟨unlines e.below,by rw [Enum.lines_eq]; simp [unlines],fun unbroken => ?_,?_,?_⟩
  · rw [read,← Enum.lines_eq]
    exact lines_unlines ((lays_enum unbroken).unbroken (by simp))
  · rw [read,entries,List.forall₂_map_right_iff]
    exact List.forall₂_same.mpr fun constant _ => entryLine_gives constant
  · rw [read]
    exact others

def awkward : Enum where
  name := "Key"
  qualified := "love.Key"
  description := "Keys.\r\rAll of them.\n"
  constants := [("a\"b\\", "First.\r\nSecond. | Third."), ("\\", ""), ("\\\" -- \n\r", "\nLate.")]

theorem awkward_read_back : Unbarred awkward.description ∧
    (∀ constant ∈ awkward.constants, Unbarred constant.2) ∧ Unbroken awkward.qualified ∧
    ∃ block, Text.lines (unlines awkward.lines) = [] :: "---@alias love.Key" :: Text.lines block ∧
      List.Forall₂ Gives awkward.constants ((Text.lines block).filter isEntry) ∧
      (Text.lines block).filter (!isEntry ·) =
        ["---Keys.", "---", "---All of them.", "---Second. | Third.", "---Late."].map String.toList := by
  have description : Unbarred awkward.description := by decide
  have constants : ∀ constant ∈ awkward.constants, Unbarred constant.2 := by decide
  have unbroken : Unbroken awkward.qualified := by decide
  obtain ⟨block,_,whole,entries,others⟩ := enum_read_back awkward description constants
  exact ⟨description,constants,unbroken,block,whole unbroken,entries,others.trans (by decide)⟩

end LuaStubs.Stub
