import LuaStubs.Lua.Name
import LuaStubs.Proofs.Rendering

/-! Words and phrases as texts: no white space inside a word, and every spelling of the built-in table
is a phrase. -/
namespace LuaStubs.Phrase

instance (w : Text) : Decidable (IsWord w) :=
  decidable_of_iff (w ≠ [] ∧ (∀ c ∈ w, isWordPart c = true) ∧ w ≠ ("or" : Text))
    ⟨fun ⟨nonempty,parts,notOr⟩ => ⟨nonempty,parts,notOr⟩,
      fun word => ⟨word.nonempty,word.parts,word.notOr⟩⟩

def blanks : List Nat :=
  [0x09, 0x0A, 0x0B, 0x0C, 0x0D, 0x20, 0x85, 0xA0, 0x1680, 0x2000, 0x2001, 0x2002, 0x2003, 0x2004,
    0x2005, 0x2006, 0x2007, 0x2008, 0x2009, 0x200A, 0x2028, 0x2029, 0x202F, 0x205F, 0x3000]

theorem mem_blanks {c : Char} (blank : Text.isBlank c = true) : c.toNat ∈ blanks := by
  by_cases space : c = ' '
  · subst space; decide
  · simp [Text.isBlank,space] at blank
    simp only [blanks,List.mem_cons,List.not_mem_nil,or_false]
    omega

theorem wordPart_of_blank {c : Char} (blank : Text.isBlank c = true) : isWordPart c = false := by
  have all : ∀ n ∈ blanks, isWordPart (Char.ofNat n) = false := by decide +kernel
  simpa [Char.ofNat_toNat] using all _ (mem_blanks blank)

theorem unblank_of_wordPart {c : Char} (part : isWordPart c = true) : Text.isBlank c = false := by
  cases blank : Text.isBlank c with
  | false => rfl
  | true => simp [wordPart_of_blank blank] at part

theorem ascii_of_alphanum {c : Char} (alphanum : c.isAlphanum = true) : c.toNat < 0x80 := by
  rcases (Bool.or_eq_true _ _).mp alphanum with alpha | digit
  · have bounds := Text.alpha_bounds alpha
    omega
  · have bounds := Text.digit_bounds digit
    omega

theorem nameChar_of_nameTail {c : Char} (tail : Lua.isNameTail c = true) :
    Text.isNameChar c = true := by
  simp only [Lua.isNameTail,Bool.or_eq_true] at tail
  rcases tail with alphanum | underscore
  · simp [Text.isNameChar,Text.isAlphanumeric,ascii_of_alphanum alphanum,alphanum]
  · simp [Text.isNameChar,underscore]

theorem wordPart_of_nameTail {c : Char} (tail : Lua.isNameTail c = true) : isWordPart c = true := by
  simp [isWordPart,nameChar_of_nameTail tail]

theorem nameTail_of_nameHead {c : Char} (head : Lua.isNameHead c = true) :
    Lua.isNameTail c = true := by
  simp only [Lua.isNameHead,Lua.isNameTail,Char.isAlphanum,Bool.or_eq_true] at head ⊢
  rcases head with alpha | underscore
  · exact Or.inl (Or.inl alpha)
  · exact Or.inr underscore

theorem nameTails_of_name {t : Text} (name : Lua.isName t = true) :
    ∀ c ∈ t, Lua.isNameTail c = true := by
  cases t with
  | nil => simp
  | cons head tail =>
    simp only [Lua.isName,Bool.and_eq_true,List.all_eq_true] at name
    intro c member
    rcases List.mem_cons.mp member with rfl | later
    · exact nameTail_of_nameHead name.1.1
    · exact name.1.2 c later

theorem wordParts_of_name {t : Text} (name : Lua.isName t = true) :
    ∀ c ∈ t, isWordPart c = true :=
  fun c member => wordPart_of_nameTail (nameTails_of_name name c member)

theorem isWord_of_name {t : Text} (name : Lua.isName t = true) : IsWord t := by
  refine ⟨?_,wordParts_of_name name,?_⟩
  · rintro rfl
    simp [Lua.isName] at name
  · rintro rfl
    revert name
    decide

def Phrasal (t : Text) : Prop :=
  ∃ read : List Text, read ≠ [] ∧ (∀ w ∈ read, IsWord w) ∧ t = Text.join " " read

theorem IsWord.phrasal {w : Text} (word : IsWord w) : Phrasal w :=
  ⟨[w],by simp,by simpa using word,by simp⟩

theorem Phrasal.head {t : Text} (phrasal : Phrasal t) :
    ∃ c rest, t = c :: rest ∧ isWordPart c = true := by
  obtain ⟨read,nonempty,words,rfl⟩ := phrasal
  obtain ⟨first,others,rfl⟩ := List.exists_cons_of_ne_nil nonempty
  have word := words first (by simp)
  obtain ⟨c,rest,rfl⟩ := List.exists_cons_of_ne_nil word.nonempty
  have part := word.parts c (by simp)
  cases others with
  | nil => exact ⟨c,rest,by simp,part⟩
  | cons second others => exact ⟨c,rest ++ " " ++ Text.join " " (second :: others),by simp,part⟩

theorem Phrasal.chars {t : Text} (phrasal : Phrasal t) :
    ∀ c ∈ t, c = ' ' ∨ isWordPart c = true := by
  obtain ⟨read,_,words,rfl⟩ := phrasal
  intro c member
  rcases Text.mem_join member with space | ⟨w,among,inside⟩
  · exact Or.inl (by simpa using space)
  · exact Or.inr ((words w among).parts c inside)

theorem isWord_qualified {space w : Text} (name : Lua.isName space = true) (word : IsWord w) :
    IsWord (space ++ "." ++ w) := by
  refine ⟨by simp,?_,?_⟩
  · intro c member
    simp only [List.mem_append] at member
    rcases member with (inside | dot) | inside
    · exact wordParts_of_name name c inside
    · have : c = '.' := by simpa using dot
      subst this; decide
    · exact word.parts c inside
  · intro same
    have dot : '.' ∈ space ++ ("." : Text) ++ w := by simp
    rw [same] at dot
    simp at dot

theorem Phrasal.qualified {space t : Text} (name : Lua.isName space = true) (phrasal : Phrasal t) :
    Phrasal (space ++ "." ++ t) := by
  obtain ⟨read,nonempty,words,rfl⟩ := phrasal
  obtain ⟨first,others,rfl⟩ := List.exists_cons_of_ne_nil nonempty
  refine ⟨(space ++ "." ++ first) :: others,by simp,?_,?_⟩
  · intro w member
    rcases List.mem_cons.mp member with rfl | later
    · exact isWord_qualified name (words first (by simp))
    · exact words w (by simp [later])
  · cases others <;> simp

theorem builtin_spells : TypeTable.builtin.Spells IsWord := ⟨by decide,by decide⟩

end LuaStubs.Phrase
