import LuaStubs.Proofs.Spacing

/-! Resolved types that are resolved again. The text of a type is read as that type, arm by arm, unless
an open table is written in it: then it is outside the grammar and its arms are kept as they are. -/
namespace LuaStubs

open Text (Tidy)

theorem Phrase.Phrasal.tidy {t : Text} (phrasal : Phrase.Phrasal t) : Tidy t := by
  obtain ⟨c,rest,text,_⟩ := phrasal.head
  exact ⟨phrasal.collapse,by simp [text]⟩

/-- A type is written with single spaces. -/
theorem LuaType.Over.tidy {type : LuaType} (made : type.Over Phrase.Phrasal) : Tidy type.render := by
  have literal {t : Text} (nonempty : t ≠ []) (unblank : ∀ c ∈ t, Text.isBlank c = false) : Tidy t :=
    .of_unblank nonempty unblank
  have mark {a b : Text} {c : Char} (unblank : Text.isBlank c = false) (first : Tidy a)
      (second : Tidy b) : Tidy (a ++ [c] ++ b) :=
    (first.append (literal (by simp) (by simpa using unblank))).append second
  have spaced {a b : Text} {c : Char} (unblank : Text.isBlank c = false) (first : Tidy a)
      (second : Tidy b) : Tidy (a ++ [c,' '] ++ b) := by
    have split : a ++ [c,' '] ++ b = (a ++ [c]) ++ ' ' :: b := by simp
    rw [split]
    exact (first.append (literal (by simp) (by simpa using unblank))).space second
  have any : Tidy "any" := literal (by decide) (by decide)
  have kept : Kept Phrase.Phrasal Tidy Tidy := {
    leaves := fun _ phrasal => phrasal.tidy
    union := fun _ nonempty all => .join (mark (by decide)) nonempty all
    bare := literal (by decide) (by decide)
    entries := (literal (t := "table<any,") (by decide) (by decide)).space
      (literal (t := "any>") (by decide) (by decide))
    field := fun _ _ isWord typed => spaced (by decide) isWord.phrasal.tidy typed
    entry := (literal (t := "[any]:") (by decide) (by decide)).space any
    braced := fun fields all => by
      have braces : Tidy ("\x7b" : Text) ∧ Tidy ("\x7d" : Text) :=
        ⟨literal (by decide) (by decide),literal (by decide) (by decide)⟩
      by_cases none : fields = []
      · subst none
        exact braces.1.append braces.2
      · exact (braces.1.append (.join (spaced (by decide)) none all)).append braces.2 }
  exact made.render kept

namespace Phrase

/-- Three dots at the start of a word would have been an ellipsis: `read` holds the open word, last
character first, and what it will be is known from the text behind it. -/
theorem tokensFrom_undotted {start : Nat} {read t w : Text} {all : List Placed} {placed : Placed}
    (begun : read ≠ [] → ∀ rest, read.reverse ++ t ≠ '.' :: '.' :: '.' :: rest)
    (result : tokensFrom start read t = .ok all) (member : placed ∈ all)
    (isWord : placed.token = .word w) : ∀ rest, w ≠ '.' :: '.' :: '.' :: rest := by
  have ended {stop : Nat} {read t : Text}
      (begun : read ≠ [] → ∀ rest, read.reverse ++ t ≠ '.' :: '.' :: '.' :: rest)
      (member : placed ∈ endWord stop read) : ∀ rest, w ≠ '.' :: '.' :: '.' :: rest := by
    obtain ⟨nonempty,rfl,_⟩ := mem_endWord member isWord
    intro rest same
    exact begun nonempty (rest ++ t) (by rw [same]; rfl)
  fun_induction tokensFrom start read t generalizing all with
  | case1 start read =>
    obtain rfl := Except.ok.inj result
    exact ended begun member
  | case2 start read rest empty ih =>
    obtain ⟨found,inner,rfl⟩ := map_eq_ok result
    rcases List.mem_cons.mp member with rfl | later
    · simp at isWord
    · exact ih (by simp) inner later
  | case3 start read rest nonempty ih =>
    refine ih (fun _ further => ?_) result member
    simpa using begun (by simpa using nonempty) further
  | case4 start read c rest notDots part ih =>
    refine ih (fun _ further => ?_) result member
    by_cases empty : read = []
    · subst empty
      intro same
      obtain ⟨dot,dots⟩ := List.cons.inj (by simpa using same)
      exact notDots further dot dots
    · simpa using begun empty further
  | case5 start read c rest notDots notPart token single ih =>
    obtain ⟨found,inner,rfl⟩ := map_eq_ok result
    rcases List.mem_append.mp member with word | further
    · exact ended begun word
    · rcases List.mem_cons.mp further with rfl | later
      · simp only at isWord
        subst isWord
        unfold Token.ofChar at single
        split at single <;> simp at single
      · exact ih (by simp) inner later
  | case6 start read c rest notDots notPart notSingle blank ih =>
    obtain ⟨found,inner,rfl⟩ := map_eq_ok result
    rcases List.mem_append.mp member with word | later
    · exact ended begun word
    · exact ih (by simp) inner later
  | case7 => cases result

theorem isKey_of_tokens {t w : Text} {all : List Placed} (cut : tokens t = .ok all)
    (member : Token.word w ∈ all.map Placed.token) : IsKey w := by
  obtain ⟨placed,among,isWord⟩ := List.mem_map.mp member
  exact ⟨tokens_words cut among isWord,tokensFrom_undotted (by simp) cut among isWord⟩

inductive Tree.Keyed : Tree → Prop where
  | phrase {read : List Text} : read ≠ [] → (∀ w ∈ read, IsKey w) →
      Keyed (.phrase (Text.join " " read))
  | union {alts : List Tree} : 2 ≤ alts.length → (∀ alt ∈ alts, Keyed alt) → Keyed (.union alts)
  | table {fields : List (Text × Tree)} {isOpen : Bool} : (∀ field ∈ fields, IsKey field.1) →
      (∀ field ∈ fields, Keyed field.2) → Keyed (.table fields isOpen)

theorem Tree.Keyed.worded {tree : Tree} (keyed : tree.Keyed) : tree.Worded := by
  induction keyed with
  | phrase nonempty keys => exact .phrase nonempty fun w member => (keys w member).toIsWord
  | union several _ ih => exact .union several ih
  | table keys _ ih => exact .table (fun field member => (keys field member).toIsWord) ih

def Part.Keyed : Part → Prop
  | .union tree => tree.Keyed
  | .alts trees => ∀ tree ∈ trees, tree.Keyed
  | .alt tree => tree.Keyed
  | .entries fields _ => ∀ field ∈ fields, IsKey field.1 ∧ field.2.Keyed

theorem Derives.keyed {part : Part} {sequence : List Token} (derived : Derives part sequence)
    (keys : ∀ w, .word w ∈ sequence → IsKey w) : part.Keyed := by
  have table {fields : List (Text × Tree)} {isOpen : Bool}
      (all : ∀ field ∈ fields, IsKey field.1 ∧ field.2.Keyed) : (Tree.table fields isOpen).Keyed :=
    .table (fun field member => (all field member).1) fun field member => (all field member).2
  induction derived with
  | one _ ih => exact ih keys _ (by simp)
  | several many _ ih => exact .union many (ih keys)
  | firstAlt _ ih => exact List.forall_mem_singleton.mpr (ih keys)
  | nextAlt _ _ before alt =>
    exact List.forall_mem_append.mpr ⟨before fun w member => keys w (by simp [member]),
      List.forall_mem_singleton.mpr (alt fun w member => keys w (by simp [member]))⟩
  | phrase nonempty => exact .phrase nonempty fun w member => keys w (by simp [member])
  | group _ ih => exact ih fun w member => keys w (by simp [member])
  | emptyTable => exact table (by simp)
  | table _ ih => exact table (ih fun w member => keys w (by simp [member]))
  | tableComma _ ih => exact table (ih fun w member => keys w (by simp [member]))
  | ellipsis => exact fun _ none => by cases none
  | firstField _ ih =>
    exact List.forall_mem_singleton.mpr ⟨keys _ (by simp),ih fun w member => keys w (by simp [member])⟩
  | nextField _ _ before field =>
    exact List.forall_mem_append.mpr ⟨before fun w member => keys w (by simp [member]),
      List.forall_mem_singleton.mpr ⟨keys _ (by simp),field fun w member => keys w (by simp [member])⟩⟩

theorem parse_keyed {t : Text} {tree : Tree} (parsed : parse t = .ok tree) : tree.Keyed := by
  obtain ⟨all,cut,derived⟩ := parse_eq_ok_iff.mp parsed
  exact derived.keyed fun _ member => isKey_of_tokens cut member

/-- What is cut into tokens has no other marks than theirs. -/
theorem tokensFrom_chars {start : Nat} {read t : Text} {all : List Placed}
    (result : tokensFrom start read t = .ok all) :
    ∀ c ∈ t, isWordPart c = true ∨ Token.ofChar c ≠ none ∨ Text.isBlank c = true := by
  have dot : isWordPart '.' = true := by decide
  fun_induction tokensFrom start read t generalizing all with
  | case1 start read => simp
  | case2 start read rest empty ih =>
    obtain ⟨_,inner,_⟩ := map_eq_ok result
    simpa [dot] using ih inner
  | case3 start read rest nonempty ih => simpa [dot] using ih result
  | case4 start read c rest notDots part ih =>
    exact List.forall_mem_cons.mpr ⟨Or.inl part,ih result⟩
  | case5 start read c rest notDots notPart token single ih =>
    obtain ⟨_,inner,_⟩ := map_eq_ok result
    exact List.forall_mem_cons.mpr ⟨Or.inr (Or.inl (by simp [single])),ih inner⟩
  | case6 start read c rest notDots notPart notSingle blank ih =>
    obtain ⟨_,inner,_⟩ := map_eq_ok result
    exact List.forall_mem_cons.mpr ⟨Or.inr (Or.inr blank),ih inner⟩
  | case7 => cases result

/-- A text without the brackets that only open tables are written with. -/
def Closed (t : Text) : Prop := '<' ∉ t ∧ '[' ∉ t

instance (t : Text) : Decidable (Closed t) := inferInstanceAs (Decidable (_ ∧ _))

theorem closed_of_parse {t : Text} {tree : Tree} (parsed : parse t = .ok tree) : Closed t := by
  obtain ⟨all,cut,_⟩ := parse_eq_ok_iff.mp parsed
  have chars := tokensFrom_chars cut
  exact ⟨fun member => absurd (chars _ member) (by decide),
    fun member => absurd (chars _ member) (by decide)⟩

theorem Closed.of_subset {a b : Text} (closed : Closed b) (part : ∀ c ∈ a, c ∈ b) : Closed a :=
  ⟨fun member => closed.1 (part _ member),fun member => closed.2 (part _ member)⟩

def KeyPhrase (t : Text) : Prop :=
  ∃ read : List Text, read ≠ [] ∧ (∀ w ∈ read, IsKey w) ∧ t = Text.join " " read

theorem isKey_of_undotted {w : Text} (word : IsWord w) (none : '.' ∉ w) : IsKey w := by
  refine ⟨word,?_⟩
  rintro rest rfl
  simp at none

theorem IsKey.keyPhrase {w : Text} (key : IsKey w) : KeyPhrase w :=
  ⟨[w],by simp,by simpa using key,by simp⟩

theorem isKey_qualified {space w : Text} (name : Lua.isName space = true) (word : IsWord w) :
    IsKey (space ++ "." ++ w) := by
  refine ⟨isWord_qualified name word,?_⟩
  obtain ⟨c,rest,rfl⟩ := List.exists_cons_of_ne_nil (isWord_of_name name).nonempty
  intro further same
  obtain ⟨rfl,_⟩ := List.cons.inj same
  exact absurd (nameTails_of_name name _ List.mem_cons_self) (by decide)

theorem KeyPhrase.qualified {space t : Text} (name : Lua.isName space = true) (phrase : KeyPhrase t) :
    KeyPhrase (space ++ "." ++ t) := by
  obtain ⟨read,nonempty,keys,rfl⟩ := phrase
  obtain ⟨first,others,rfl⟩ := List.exists_cons_of_ne_nil nonempty
  refine ⟨(space ++ "." ++ first) :: others,by simp,?_,?_⟩
  · intro w member
    rcases List.mem_cons.mp member with rfl | later
    · exact isKey_qualified name (keys first (by simp)).toIsWord
    · exact keys w (by simp [later])
  · cases others <;> simp

theorem KeyPhrase.reads {t : Text} (phrase : KeyPhrase t) : Reads t [.phrase t] := by
  obtain ⟨read,nonempty,keys,rfl⟩ := phrase
  refine ⟨read.map .word,?_,.firstAlt (.phrase nonempty)⟩
  induction read with
  | nil => contradiction
  | cons first rest ih =>
    have here := (keys first (by simp)).tokens
    cases rest with
    | nil => simpa using here
    | cons second rest =>
      have later := ih (by simp) fun w member => keys w (by simp [member])
      have text : Text.join " " (first :: second :: rest) =
          first ++ ' ' :: Text.join " " (second :: rest) := by simp
      rw [text,bare_tokens_append (by decide),here,later]
      rfl

end Phrase

theorem TypeTable.builtin_classify_dotted {t : Text} (dot : '.' ∈ t) :
    TypeTable.builtin.classify t = .unknown := by
  have whole : ∀ name ∈ TypeTable.builtin.names, '.' ∉ name := by decide
  have primitive : ∀ name ∈ TypeTable.builtin.primitives, '.' ∉ name := by decide
  have other : ∀ name ∈ TypeTable.builtin.aliases.map Prod.fst, '.' ∉ name := by decide
  refine classify_unknown.mpr ⟨spelling?_eq_none_iff.mpr fun member => whole t member dot,
    fun member => primitive t member dot,lookup_eq_none.mpr fun member => other t member dot,?_⟩
  refine List.filter_eq_nil_iff.mpr fun name member starts => whole name member ?_
  obtain ⟨rest,rfl⟩ := Text.startsWith_iff.mp starts
  simp [dot]

namespace Resolver

open Phrase (KeyPhrase Closed Reads)

variable {r : Resolver}

structure Settled (r : Resolver) (name : Text) : Prop where
  phrase : KeyPhrase name
  same : (r.phraseType name).render = name

theorem phraseType_leaf (p : Text) :
    ∃ name, r.phraseType p = .primitive name ∨ r.phraseType p = .named name := by
  unfold phraseType nameType
  split
  · exact ⟨_,Or.inl rfl⟩
  · split
    · exact ⟨_,Or.inl rfl⟩
    · exact ⟨_,Or.inr rfl⟩
  · split
    · exact ⟨_,Or.inr rfl⟩
    · exact ⟨_,Or.inr rfl⟩

theorem phraseType_single (p : Text) : ∀ inner, r.phraseType p ≠ .union inner := by
  intro inner same
  obtain ⟨name,leaf | leaf⟩ := phraseType_leaf (r := r) p <;> rw [leaf] at same <;> contradiction

theorem settled_spellings (builtin : r.config.table = .builtin) :
    r.config.table.Spells (Settled r) := by
  have settled {name : Text} (word : Phrase.IsWord name) (undotted : '.' ∉ name)
      (primitive : TypeTable.builtin.classify name = .primitive name) : Settled r name := by
    refine ⟨(Phrase.isKey_of_undotted word undotted).keyPhrase,?_⟩
    rw [phraseType,builtin,primitive]
    rfl
  have aliases : ∀ entry ∈ TypeTable.builtin.aliases, '.' ∉ entry.2 ∧
      TypeTable.builtin.classify entry.2 = .primitive entry.2 := by decide
  have multiWord : ∀ entry ∈ TypeTable.builtin.multiWord, '.' ∉ entry.2 ∧
      TypeTable.builtin.classify entry.2 = .primitive entry.2 := by decide
  rw [builtin]
  exact ⟨fun entry member => settled (Phrase.builtin_spells.multiWord entry member)
      (multiWord entry member).1 (multiWord entry member).2,
    fun entry member => settled (Phrase.builtin_spells.aliases entry member)
      (aliases entry member).1 (aliases entry member).2⟩

/-- A name with the namespace in front is no name of the model again, since those have no dot. -/
theorem settled_qualified (builtin : r.config.table = .builtin)
    (space : Lua.isName r.config.space = true) (undotted : ∀ name ∈ r.known, '.' ∉ name) {p : Text}
    (phrase : KeyPhrase p) : Settled r (r.qualified p) := by
  have dot : '.' ∈ r.qualified p := by simp [Resolver.qualified]
  have fresh : r.known.contains (r.qualified p) = false := by
    simpa using fun member => undotted _ member dot
  refine ⟨phrase.qualified space,?_⟩
  rw [phraseType,builtin,TypeTable.builtin_classify_dotted dot]
  change (r.nameType (r.qualified p)).render = _
  rw [nameType,fresh]
  rfl

/-- Once resolved, a phrase stays what it is. -/
theorem phraseType_settled (builtin : r.config.table = .builtin)
    (space : Lua.isName r.config.space = true) (undotted : ∀ name ∈ r.known, '.' ∉ name) {p : Text}
    (phrase : KeyPhrase p) : Settled r (r.phraseType p).render := by
  have made : (r.phraseType p).Over fun name => name = p ∨ Settled r name :=
    phraseType_over ⟨fun entry member => Or.inr ((settled_spellings builtin).multiWord entry member),
      fun entry member => Or.inr ((settled_spellings builtin).aliases entry member)⟩ (Or.inl rfl)
      (Or.inr (settled_qualified builtin space undotted phrase))
  have leaf : (r.phraseType p).render = p ∨ Settled r (r.phraseType p).render := by
    obtain ⟨name,same | same⟩ := phraseType_leaf (r := r) p
    · rw [same] at made ⊢
      cases made with
      | primitive leaf => exact leaf
    · rw [same] at made ⊢
      cases made with
      | named leaf => exact leaf
  rcases leaf with same | settled
  · rw [same]
    exact ⟨phrase,same⟩
  · exact settled

end Resolver

namespace LuaType

theorem Flat.arms_distinct {type : LuaType} (flat : type.Flat) : (type.arms.map render).Nodup := by
  cases type with
  | union arms => exact ((flat _ .here).union arms rfl).distinct
  | _ => simp [LuaType.arms]

/-- A union of different texts, none of which is that of a union, is written with all of them. -/
theorem render_unionOf_distinct {types : List LuaType}
    (single : ∀ type ∈ types, ∀ inner, type ≠ .union inner) (distinct : (types.map render).Nodup) :
    (unionOf types).render = Text.join "|" (types.map render) := by
  have apart : types.flatMap LuaType.arms = types := by
    have each : ∀ type ∈ types, type.arms = [type] := by
      intro type member
      cases type with
      | union inner => exact absurd rfl (single _ member inner)
      | _ => rfl
    rw [List.flatMap_congr each,List.flatMap_singleton']
  rw [render_unionOf,apart,firstOfEach_of_nodup distinct (by simp)]

end LuaType

namespace Resolver

open Phrase (Closed Reads KeyPhrase)

variable {r : Resolver}

/-- A text that is read as one alternative, with a type that is written as the text. -/
def Reread (r : Resolver) (t : Text) : Prop :=
  ∃ tree, Reads t [tree] ∧ (r.treeType tree).render = t ∧ ∀ inner, r.treeType tree ≠ .union inner

/-- A type whose arms are read again as what they are, where they are in the grammar at all. -/
structure Stable (r : Resolver) (type : LuaType) : Prop where
  flat : type.Flat
  arms : ∀ arm ∈ type.arms, Closed arm.render → Reread r arm.render

theorem mem_render_of_arm {type arm : LuaType} (member : arm ∈ type.arms) :
    ∀ c ∈ arm.render, c ∈ type.render := by
  intro c inside
  obtain ⟨u,v,same,_⟩ := Text.join_split "|" (List.mem_map_of_mem (f := LuaType.render) member)
  rw [LuaType.render_eq_join,same]
  simp [inside]

/-- The whole text is read as the arms, so its type is written as the text. -/
theorem Stable.reads {type : LuaType} (stable : Stable r type) (closed : Closed type.render) :
    ∃ trees, Reads type.render trees ∧ (r.treeType (.ofAlts trees)).render = type.render := by
  have each : ∀ arm ∈ type.arms, Reread r arm.render := fun arm member =>
    stable.arms arm member (closed.of_subset (mem_render_of_arm member))
  choose! tree reads same single using each
  have whole : Reads type.render (type.arms.flatMap fun arm => [tree arm]) := by
    rw [LuaType.render_eq_join]
    exact Phrase.holds_join Reads.bar stable.flat.arms.1 reads
  rw [← List.map_eq_flatMap] at whole
  have texts : ((type.arms.map tree).map r.treeType).map LuaType.render = type.arms.map LuaType.render := by
    rw [List.map_map,List.map_map]
    exact List.map_congr_left fun arm member => same arm member
  refine ⟨_,whole,?_⟩
  rw [treeType_ofAlts whole,LuaType.render_unionOf_distinct,texts,← LuaType.render_eq_join]
  · intro found member
    obtain ⟨_,among,rfl⟩ := List.mem_map.mp member
    obtain ⟨arm,inside,rfl⟩ := List.mem_map.mp among
    exact single arm inside
  · rw [texts]
    exact stable.flat.arms_distinct

theorem reread_settled {name : Text} (settled : Settled r name) : Reread r name :=
  ⟨.phrase name,settled.phrase.reads,settled.same,phraseType_single name⟩

/-- A table is read again field by field; one without fields is read as the name it is written as. -/
theorem reread_table (builtin : r.config.table = .builtin) {fields : List (Text × LuaType)} {isOpen : Bool}
    (keys : ∀ field ∈ fields, Phrase.IsKey field.1) (stable : ∀ field ∈ fields, Stable r field.2)
    (closed : Closed (LuaType.table fields isOpen).render) :
    Reread r (LuaType.table fields isOpen).render := by
  rw [LuaType.render,LuaType.renderFields_eq] at closed ⊢
  cases fields with
  | nil =>
    cases isOpen with
    | true => exact absurd closed (by decide)
    | false =>
      refine reread_settled ⟨(Phrase.isKey_of_undotted (by decide) (by decide)).keyPhrase,?_⟩
      rw [phraseType,builtin]
      rfl
  | cons first rest =>
    cases isOpen with
    | true =>
      refine absurd closed.2 (not_not.mpr ?_)
      change '[' ∈ ("\x7b" : Text) ++ Text.join ", " (_ ++ [("[any]: any" : Text)]) ++ "\x7d"
      rw [Text.join_append _ (by simp) (by simp)]
      simp
    | false =>
      change Closed ("\x7b" ++ Text.join ", " _ ++ "\x7d") at closed
      change Reread r ("\x7b" ++ Text.join ", " _ ++ "\x7d")
      have inside : ∀ field ∈ first :: rest, Closed field.2.render := by
        intro field member
        refine closed.of_subset fun c among => ?_
        obtain ⟨u,v,same,_⟩ := Text.join_split ", " (List.mem_map_of_mem (f := LuaType.renderField) member)
        rw [same,LuaType.renderField]
        simp [among]
      have each : ∀ field ∈ first :: rest, ∃ trees, Reads field.2.render trees ∧
          (r.treeType (.ofAlts trees)).render = field.2.render := fun field member =>
        (stable field member).reads (inside field member)
      choose! trees reads same using each
      have filled : ∀ field ∈ first :: rest,
          Phrase.Fills (LuaType.renderField field) [(field.1,.ofAlts (trees field))] := by
        intro field member
        rw [LuaType.renderField]
        exact (keys field member).fills (reads field member)
      have whole := (Phrase.holds_join Phrase.Fills.comma (by simp) filled).braced
      refine ⟨_,whole,?_,fun _ union => by cases union⟩
      rw [treeType,fieldTypes_eq,← List.map_eq_flatMap,List.map_map,LuaType.render,
        LuaType.renderFields_eq,List.map_map]
      have texts : (first :: rest).map (LuaType.renderField ∘
          ((fun field => (field.1,r.treeType field.2)) ∘ fun field => (field.1,.ofAlts (trees field)))) =
          (first :: rest).map LuaType.renderField := by
        refine List.map_congr_left fun field member => ?_
        change LuaType.renderField (field.1,r.treeType (.ofAlts (trees field))) = _
        rw [LuaType.renderField,LuaType.renderField,same field member]
      rw [texts]
      rfl

/-- Every type that a tree has is found again in its text. -/
theorem treeType_stable (builtin : r.config.table = .builtin)
    (space : Lua.isName r.config.space = true) (undotted : ∀ name ∈ r.known, '.' ∉ name)
    {tree : Phrase.Tree} (keyed : tree.Keyed) : Stable r (r.treeType tree) := by
  refine ⟨r.treeType_flat keyed.worded,?_⟩
  induction keyed with
  | @phrase read nonempty keys =>
    rw [treeType]
    have settled := phraseType_settled builtin space undotted ⟨read,nonempty,keys,rfl⟩
    have alone : (r.phraseType (Text.join " " read)).arms = [r.phraseType (Text.join " " read)] := by
      obtain ⟨name,leaf | leaf⟩ := phraseType_leaf (r := r) (Text.join " " read) <;> rw [leaf] <;> rfl
    rw [alone]
    exact List.forall_mem_singleton.mpr fun _ => reread_settled settled
  | @union alts several keyed ih =>
    have flat : ∀ type ∈ alts.map r.treeType, type.Flat := by
      intro type member
      obtain ⟨alt,among,rfl⟩ := List.mem_map.mp member
      exact r.treeType_flat (keyed alt among).worded
    have nonempty : alts.map r.treeType ≠ [] := by
      rintro none
      simp [List.map_eq_nil_iff.mp none] at several
    rw [treeType,treeTypes_eq,LuaType.arms_unionOf nonempty flat]
    intro arm member
    obtain ⟨type,among,inside⟩ := List.mem_flatMap.mp ((LuaType.firstOfEach_sublist _ _).subset member)
    obtain ⟨alt,listed,rfl⟩ := List.mem_map.mp among
    exact ih alt listed arm inside
  | @table fields isOpen keys keyed ih =>
    rw [treeType,fieldTypes_eq]
    refine List.forall_mem_singleton.mpr fun closed => reread_table builtin ?_ ?_ closed
    · intro field member
      obtain ⟨origin,among,rfl⟩ := List.mem_map.mp member
      exact keys origin among
    · intro field member
      obtain ⟨origin,among,rfl⟩ := List.mem_map.mp member
      exact ⟨r.treeType_flat (keyed origin among).worded,ih origin among⟩

/-- With the built-in table a collapsed text with a bracket of open tables is resolved as text. -/
theorem typeOr_of_open (builtin : r.config.table = .builtin) {t : Text} (tidy : Tidy t)
    (opened : ¬Closed t) (other : Phrase.Error → LuaType) : ∃ e, r.typeOr other t = other e := by
  rcases r.typeOr_shape other t with ⟨entry,listed,name,_⟩ | ⟨tree,parsed,_⟩ | ⟨e,_,same⟩
  · rw [builtin] at listed
    have names : ∀ entry ∈ TypeTable.builtin.multiWord, Closed entry.1 := by decide
    exact absurd (tidy.collapsed ▸ name ▸ names entry listed) opened
  · exact absurd (Phrase.closed_of_parse parsed) opened
  · exact ⟨e,same⟩

theorem aloneType_arm (builtin : r.config.table = .builtin) {t : Text} (tidy : Tidy t)
    (reread : Closed t → Reread r t) :
    (r.aloneType t).render = t ∧ ∀ inner, r.aloneType t ≠ .union inner := by
  by_cases closed : Closed t
  · obtain ⟨tree,reads,same,single⟩ := reread closed
    have type : r.aloneType t = r.treeType tree := typeOr_of_parse builtin reads.parse _
    rw [type]
    exact ⟨same,single⟩
  · obtain ⟨e,type⟩ := typeOr_of_open builtin tidy closed fun _ => .named (Text.collapse t)
    have kept : r.aloneType t = .named (Text.collapse t) := type
    rw [kept,tidy.collapsed]
    exact ⟨rfl,by simp⟩

/-- The text of a type has a type that is written as the text. -/
theorem Stable.type_render {type : LuaType} (stable : Stable r type) (builtin : r.config.table = .builtin)
    (made : type.Over Phrase.Phrasal) : (r.type type.render).render = type.render := by
  by_cases closed : Closed type.render
  · obtain ⟨trees,reads,same⟩ := stable.reads closed
    rw [type_of_parse builtin reads.parse,same]
  · obtain ⟨e,outside⟩ := typeOr_of_open builtin made.tidy closed _
    rw [Resolver.type,outside,LuaType.alternatives_render made stable.flat]
    split
    · rename_i first second rest several
      have each : ∀ arm ∈ type.arms, (r.aloneType arm.render).render = arm.render ∧
          ∀ inner, r.aloneType arm.render ≠ .union inner := fun arm member =>
        aloneType_arm builtin (made.arms.2 arm member).tidy (stable.arms arm member)
      have texts : ((type.arms.map LuaType.render).map r.aloneType).map LuaType.render =
          type.arms.map LuaType.render := by
        rw [List.map_map,List.map_map]
        exact List.map_congr_left fun arm member => (each arm member).1
      rw [← several,LuaType.render_unionOf_distinct,texts,← LuaType.render_eq_join]
      · intro found member
        obtain ⟨_,among,rfl⟩ := List.mem_map.mp member
        obtain ⟨arm,inside,rfl⟩ := List.mem_map.mp among
        exact (each arm inside).2
      · rw [texts]
        exact stable.flat.arms_distinct
    · rw [LuaType.render,made.tidy.collapsed]

/-- What is written for a type that is read stays the same when it is resolved again. -/
theorem normalize_again {raw : Text} {tree : Phrase.Tree} (builtin : r.config.table = .builtin)
    (space : Lua.isName r.config.space = true) (undotted : ∀ name ∈ r.known, '.' ∉ name)
    (parsed : Phrase.parse raw = .ok tree) (optional again : Bool) :
    (r.normalize (r.normalize raw optional).base again).type.render = (r.normalize raw optional).base := by
  change (r.type (r.type raw).render).render = (r.type raw).render
  rw [type_of_parse builtin parsed]
  have stable := treeType_stable builtin space undotted (Phrase.parse_keyed parsed)
  exact stable.type_render builtin (treeType_over (Phrase.parse_worded parsed)
    (phraseType_phrasal builtin space _ parsed))

def layered : Text :=
  "(Image or \x7b..., at: \x7b...\x7d | light, by: \x7b\x7d or Foo Bar\x7d) or \x7b...\x7d or bool"

theorem layered_again :
    let r : Resolver := ⟨.default,["Image","Foo Bar"]⟩
    let base : Text :=
      "love.Image|\x7bat: table<any, any>|lightuserdata, by: table|love.Foo Bar, [any]: any\x7d|table<any, any>|boolean"
    (Phrase.parse layered).isOk = true ∧ (r.normalize layered false).base = base ∧
      (Phrase.parse base).isOk = false ∧ (r.normalize base false).type.render = base := by
  intro r base
  have accepted : (Phrase.parse layered).isOk = true := by decide +kernel
  obtain ⟨tree,parsed⟩ := Phrase.parse_of_isOk accepted
  have written : (r.normalize layered false).base = base := by decide +kernel
  have again := normalize_again (r := r) rfl (by decide) (by decide) parsed false false
  rw [written] at again
  exact ⟨accepted,written,by decide +kernel,again⟩

end Resolver
end LuaStubs
