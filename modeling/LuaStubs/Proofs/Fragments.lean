import LuaStubs.Proofs.Overloads
import LuaStubs.Proofs.Tokens

/-! The fragments of a type table, and where the checks of a file remark on them. The checks know the
table by its fragments alone, so a whole name that also begins a longer one is remarked on. -/
namespace LuaStubs

open Phrase (IsWord)

namespace Text

theorem join_cons {first : Text} {rest : List Text} (sep : Text) (nonempty : rest ≠ []) :
    join sep (first :: rest) = first ++ sep ++ join sep rest := by
  obtain ⟨second,rest,rfl⟩ := List.exists_cons_of_ne_nil nonempty
  exact join_cons_cons sep first second rest

theorem join_append (sep : Text) {a b : List Text} (first : a ≠ []) (second : b ≠ []) :
    join sep (a ++ b) = join sep a ++ sep ++ join sep b := by
  induction a with
  | nil => exact absurd rfl first
  | cons piece a ih =>
    cases a with
    | nil => rw [List.singleton_append,join_cons sep second,join_singleton]
    | cons next a =>
      rw [List.cons_append,join_cons sep (by simp),ih (by simp),join_cons_cons]
      simp

/-- Pieces with the mark that was cut at between them are the text. -/
theorem join_splitAt (mark : Char) (t : Text) : join [mark] (splitAt (· == mark) t) = t := by
  induction t with
  | nil => rfl
  | cons c t ih =>
    obtain ⟨piece,rest,pieces⟩ := List.exists_cons_of_ne_nil (splitAt_ne_nil (· == mark) t)
    by_cases here : c = mark
    · have cuts : splitAt (· == mark) (c :: t) = [] :: splitAt (· == mark) t := by simp [splitAt,here]
      rw [cuts,join_cons _ (splitAt_ne_nil _ t),ih,here]
      rfl
    · rw [splitAt_cons_of_uncut (by simpa using here) pieces]
      rw [pieces] at ih
      cases rest with
      | nil => simpa using ih
      | cons second rest => simpa using ih

end Text

namespace TypeTable

theorem mem_properPrefixes {l p : List α} :
    p ∈ properPrefixes l ↔ p ≠ [] ∧ ∃ rest, rest ≠ [] ∧ l = p ++ rest := by
  induction l generalizing p with
  | nil => simp [properPrefixes]
  | cons x l ih =>
    cases l with
    | nil =>
      refine ⟨fun member => by simp [properPrefixes] at member,?_⟩
      rintro ⟨some,rest,more,same⟩
      obtain ⟨y,p,rfl⟩ := List.exists_cons_of_ne_nil some
      simp [more] at same
    | cons second l =>
      rw [properPrefixes,List.mem_cons,List.mem_map]
      · constructor
        · rintro (rfl | ⟨q,inside,rfl⟩)
          · exact ⟨by simp,second :: l,by simp,rfl⟩
          · obtain ⟨_,rest,more,same⟩ := ih.mp inside
            exact ⟨by simp,rest,more,by rw [same,List.cons_append]⟩
        · rintro ⟨some,rest,more,same⟩
          obtain ⟨y,p,rfl⟩ := List.exists_cons_of_ne_nil some
          obtain ⟨rfl,behind⟩ := List.cons.inj same
          cases p with
          | nil => exact Or.inl rfl
          | cons z p => exact Or.inr ⟨z :: p,ih.mpr ⟨by simp,rest,more,behind⟩,rfl⟩
      · simp

/-- A name is cut off before one of its spaces. -/
theorem mem_cuts {name key : Text} : key ∈ cuts name ↔ ∃ more, name = key ++ ' ' :: more := by
  rw [cuts,List.mem_map]
  constructor
  · rintro ⟨pieces,inside,rfl⟩
    obtain ⟨some,rest,more,same⟩ := mem_properPrefixes.mp inside
    refine ⟨Text.join " " rest,?_⟩
    calc name
      _ = Text.join " " (pieces ++ rest) := by rw [← same]; exact (Text.join_splitAt ' ' name).symm
      _ = Text.join " " pieces ++ ' ' :: Text.join " " rest := by
        rw [Text.join_append _ some more,List.append_assoc]
        rfl
  · rintro ⟨more,rfl⟩
    refine ⟨Text.splitAt (· == ' ') key,mem_properPrefixes.mpr ⟨Text.splitAt_ne_nil _ _,
      Text.splitAt (· == ' ') more,Text.splitAt_ne_nil _ _,?_⟩,Text.join_splitAt ' ' key⟩
    exact Text.splitAt_append_cons (by decide) key more

theorem mem_insertKey {key other : Text} {keys : List Text} :
    other ∈ insertKey key keys ↔ other = key ∨ other ∈ keys := by
  induction keys with
  | nil => simp [insertKey]
  | cons k rest ih =>
    unfold insertKey
    split
    · rename_i same
      simp [same]
    · split
      · exact List.mem_cons
      · rw [List.mem_cons,ih,List.mem_cons]
        exact or_left_comm

variable {table : TypeTable} {phrase : Text}

theorem mem_completions {full : Text} :
    full ∈ table.completions phrase ↔ full ∈ table.names ∧ ∃ more, full = phrase ++ ' ' :: more := by
  rw [completions,List.mem_filter,Text.startsWith_iff]
  simp

/-- The fragments are the texts that some name goes on after, each with all those names. -/
theorem mem_fragments {entry : Text × List Text} : entry ∈ table.fragments ↔
    entry.2 = table.completions entry.1 ∧ table.completions entry.1 ≠ [] := by
  obtain ⟨key,full⟩ := entry
  have begun (name : Text) : (cuts name).contains key = Text.startsWith name (key ++ " ") := by
    rw [Bool.eq_iff_iff,List.contains_iff_mem,mem_cuts,Text.startsWith_iff]
    simp
  have keys (l : List Text) : key ∈ l.foldr insertKey [] ↔ key ∈ l := by
    induction l with
    | nil => rfl
    | cons first rest ih => rw [List.foldr_cons,mem_insertKey,ih,List.mem_cons]
  have known : key ∈ table.names.flatMap cuts ↔ table.completions key ≠ [] := by
    rw [List.mem_flatMap,← List.isEmpty_eq_false_iff,List.isEmpty_eq_false_iff_exists_mem]
    exact exists_congr fun name => by rw [mem_completions,mem_cuts]
  change (key,full) ∈ table.fragments ↔ full = table.completions key ∧ table.completions key ≠ []
  rw [fragments,List.mem_map]
  constructor
  · rintro ⟨other,listed,same⟩
    obtain ⟨rfl,rfl⟩ := Prod.mk.inj same
    exact ⟨congrArg (table.names.filter ·) (funext begun),known.mp ((keys _).mp listed)⟩
  · rintro ⟨rfl,some⟩
    exact ⟨key,(keys _).mpr (known.mpr some),
      congrArg (Prod.mk key) (congrArg (table.names.filter ·) (funext begun))⟩

theorem mem_fragments_keys : phrase ∈ table.fragments.map Prod.fst ↔ table.completions phrase ≠ [] := by
  rw [List.mem_map]
  constructor
  · rintro ⟨entry,among,rfl⟩
    exact (mem_fragments.mp among).2
  · intro some
    exact ⟨(phrase,table.completions phrase),mem_fragments.mpr ⟨rfl,some⟩,rfl⟩

theorem lookup_fragments {full : List Text} :
    table.fragments.lookup phrase = some full ↔ table.completions phrase = full ∧ full ≠ [] := by
  -- Entries for one phrase all have its completions, so it does not matter which is found.
  have found_eq {full : List Text} (found : table.fragments.lookup phrase = some full) :
      full = table.completions phrase ∧ table.completions phrase ≠ [] :=
    mem_fragments.mp (mem_of_lookup found)
  constructor
  · intro found
    obtain ⟨rfl,some⟩ := found_eq found
    exact ⟨rfl,some⟩
  · rintro ⟨rfl,some⟩
    obtain ⟨full,found⟩ := exists_lookup (mem_fragments_keys.mpr some)
    rw [found,(found_eq found).1]

theorem lookup_eq_none {entries : List (Text × α)} {key : Text} :
    entries.lookup key = none ↔ key ∉ entries.map Prod.fst := by
  rw [List.lookup_eq_none_iff,List.mem_map,not_exists]
  refine forall_congr' fun entry => ?_
  rw [not_and,bne_iff_ne,ne_comm]

theorem spelling?_eq_none_iff : table.spelling? phrase = none ↔ phrase ∉ table.names := lookup_eq_none

theorem classify_fragment {full : List Text} : table.classify phrase = .fragment full ↔
    table.spelling? phrase = none ∧ phrase ∉ table.primitives ∧ table.aliases.lookup phrase = none ∧
      table.completions phrase = full ∧ full ≠ [] := by
  unfold classify
  cases table.spelling? phrase with
  | some spelling => simp
  | none =>
    by_cases listed : phrase ∈ table.primitives
    · simp [listed]
    · cases table.aliases.lookup phrase with
      | some target => simp [listed]
      | none =>
        cases found : table.completions phrase with
        | nil => simp [listed]
        | cons first others =>
          have some : first :: others = full → full ≠ [] := fun same => same ▸ List.cons_ne_nil _ _
          simpa [listed] using some

theorem classify_unknown : table.classify phrase = .unknown ↔
    table.spelling? phrase = none ∧ phrase ∉ table.primitives ∧ table.aliases.lookup phrase = none ∧
      table.completions phrase = [] := by
  unfold classify
  cases table.spelling? phrase with
  | some spelling => simp
  | none =>
    by_cases listed : phrase ∈ table.primitives
    · simp [listed]
    · cases table.aliases.lookup phrase with
      | some target => simp [listed]
      | none => cases table.completions phrase <;> simp [listed]

/-- The checks of a file and the table mean the same by a fragment. The checks know a phrase as one
exactly where some name goes on after it, with all these names in their order. The table takes such a
phrase for a fragment unless it is a whole name, a primitive or an alias. -/
theorem fragments_classified (table : TypeTable) (phrase : Text) (full : List Text) :
    (table.fragments.lookup phrase = some full ↔ table.completions phrase = full ∧ full ≠ []) ∧
    (table.classify phrase = .fragment full ↔
      phrase ∉ table.names ∧ phrase ∉ table.primitives ∧ phrase ∉ table.aliases.map Prod.fst ∧
        (Validator.ofTable table).fragments.lookup phrase = some full) := by
  refine ⟨lookup_fragments,?_⟩
  change _ ↔ _ ∧ _ ∧ _ ∧ table.fragments.lookup phrase = some full
  rw [classify_fragment,lookup_fragments,spelling?,lookup_eq_none,lookup_eq_none,names]

/-- What a table puts in place of a phrase that is no fragment to it. -/
theorem classify_primitive {spelled : Text} (classified : table.classify phrase = .primitive spelled) :
    (phrase,spelled) ∈ table.multiWord ∨ spelled = phrase ∧ phrase ∈ table.primitives ∨
      (phrase,spelled) ∈ table.aliases := by
  unfold classify at classified
  split at classified
  · rename_i whole
    obtain rfl := Classified.primitive.inj classified
    exact Or.inl (mem_of_lookup whole)
  · split at classified
    · rename_i listed
      exact Or.inr (Or.inl ⟨(Classified.primitive.inj classified).symm,by simpa using listed⟩)
    · split at classified
      · rename_i found
        obtain rfl := Classified.primitive.inj classified
        exact Or.inr (Or.inr (mem_of_lookup found))
      · split at classified <;> contradiction

end TypeTable

namespace Tag

theorem mem_typedFrom {names lines : List Text} {n : Nat} {t : TypedLine} :
    t ∈ typedFrom names n lines ↔
      ∃ i, lines[i]? = some t.text ∧ t.line = n + i ∧ type? names t.text = some t.portion := by
  induction lines generalizing n with
  | nil => simp [typedFrom]
  | cons line rest ih =>
    rw [typedFrom,List.mem_append,Option.mem_toList,Option.map_eq_some_iff,ih]
    constructor
    · rintro (⟨portion,typed,rfl⟩ | ⟨i,listed,number,typed⟩)
      · exact ⟨0,rfl,rfl,typed⟩
      · exact ⟨i + 1,listed,by omega,typed⟩
    · rintro ⟨i,listed,number,typed⟩
      cases i with
      | zero =>
        obtain rfl : line = t.text := by simpa using listed
        obtain rfl : n = t.line := number.symm
        exact Or.inl ⟨t.portion,typed,rfl⟩
      | succ i => exact Or.inr ⟨i,by simpa using listed,by omega,typed⟩

theorem concern_lineRemarks {n : Nat} {above lines : List Text} {remark : Remark}
    (member : remark ∈ lineRemarks n above lines) : remark.concern = .tag := by
  induction lines generalizing n above with
  | nil => simp [lineRemarks] at member
  | cons line rest ih =>
    rcases List.mem_append.mp member with here | later
    · obtain ⟨message,_,rfl⟩ := Option.map_eq_some_iff.mp (Option.mem_toList.mp here)
      rfl
    · exact ih later

theorem concern_remarks {lines : List Text} {remark : Remark} (member : remark ∈ remarks lines) :
    remark.concern = .tag := by
  rcases List.mem_append.mp member with header | line
  · unfold headerRemarks at header
    split at header
    · simp at header
    · exact List.mem_singleton.mp header ▸ rfl
  · exact concern_lineRemarks line

end Tag

namespace Validator

variable {v : Validator} {file source line type : Text} {remark : Remark}

theorem mem_remarks : remark ∈ v.remarks file source ∧ remark.concern = .fragment ↔
    ∃ t ∈ Tag.typedLines v.names (Text.lines source), remark ∈ Tag.fragmentRemarks v.fragments [t] := by
  have fragment {t : Tag.TypedLine} (member : remark ∈ Tag.fragmentRemarks v.fragments [t]) :
      remark.concern = .fragment := by
    obtain ⟨_,_,_,rfl⟩ := Tag.mem_fragmentRemarks.mp member
    rfl
  simp only [remarks,Remark.sort,(sortBy_perm _ _).mem_iff,unsortedRemarks,List.mem_append]
  constructor
  · rintro ⟨((program | tag) | ofFragment) | union,concern⟩
    · obtain ⟨complaint,_,rfl⟩ := Option.map_eq_some_iff.mp (Option.mem_toList.mp program)
      contradiction
    · rw [Tag.concern_remarks tag] at concern
      contradiction
    · obtain ⟨t,typed,inside⟩ := List.mem_flatMap.mp ofFragment
      exact ⟨t,typed,by rwa [Tag.fragmentRemarks,List.flatMap_singleton]⟩
    · obtain ⟨t,_,rfl⟩ := List.mem_map.mp union
      contradiction
  · rintro ⟨t,typed,inside⟩
    refine ⟨Or.inl (Or.inr (List.mem_flatMap.mpr ⟨t,typed,?_⟩)),fragment inside⟩
    rwa [Tag.fragmentRemarks,List.flatMap_singleton] at inside

/-- The remarks on fragments in a line of a file: one for each fragment that stands alone in its type,
wherever in the file the line is. -/
theorem mem_remarks_on (typed : Tag.type? v.names line = some type) :
    (remark ∈ v.remarks file source ∧ remark.concern = .fragment ∧ remark.text = line) ↔
      ∃ i, (Text.lines source)[i]? = some line ∧
        ∃ entry ∈ v.fragments, Tag.hasBareFragment type entry.1 entry.2 = true ∧
          remark = ⟨i + 1,.fragment,Tag.fragmentMessage entry.1 entry.2,line⟩ := by
  rw [← and_assoc,mem_remarks]
  constructor
  · rintro ⟨⟨t,listed,member⟩,same⟩
    obtain ⟨entry,among,bare,rfl⟩ := Tag.mem_fragmentRemarks.mp member
    obtain ⟨i,place,number,read⟩ := Tag.mem_typedFrom.mp listed
    have text : t.text = line := same
    rw [text] at place read
    obtain rfl : type = t.portion := Option.some.inj (typed.symm.trans read)
    exact ⟨i,place,entry,among,bare,by rw [number,text,Nat.add_comm]⟩
  · rintro ⟨i,place,entry,among,bare,rfl⟩
    refine ⟨⟨⟨i + 1,line,type⟩,Tag.mem_typedFrom.mpr ⟨i,place,Nat.add_comm i 1,typed⟩,?_⟩,rfl⟩
    exact Tag.mem_fragmentRemarks.mpr ⟨entry,among,bare,rfl⟩

end Validator

theorem Text.words_join {read : List Text} (nonempty : ∀ w ∈ read, w ≠ [])
    (unblank : ∀ w ∈ read, ∀ c ∈ w, isBlank c = false) : words (join " " read) = read := by
  induction read with
  | nil => rfl
  | cons first rest ih =>
    have here := words_of_unblank (nonempty first (by simp)) (unblank first (by simp))
    have later := ih (fun w member => nonempty w (List.mem_cons_of_mem _ member))
      fun w member => unblank w (List.mem_cons_of_mem _ member)
    cases rest with
    | nil => simpa using here
    | cons second rest =>
      have spaced : join " " (first :: second :: rest) = first ++ ' ' :: join " " (second :: rest) := by
        simp
      rw [spaced,words_append_blank (by decide),here,later,List.singleton_append]

theorem Phrase.Phrasal.collapse {t : Text} (phrasal : Phrase.Phrasal t) : Text.collapse t = t := by
  obtain ⟨read,_,words,rfl⟩ := phrasal
  rw [Text.collapse,Text.words_join (fun w member => (words w member).nonempty)
    fun w member c inside => Phrase.unblank_of_wordPart ((words w member).parts c inside)]

namespace Resolver

variable {r : Resolver} {p spelled : Text}

/-- A phrase as it is read, or a name of several words as the table has it. -/
def Written (r : Resolver) (p : Text) : Prop :=
  Phrase.parse p = .ok (.phrase p) ∨ p ∈ r.config.table.names ∧ Text.collapse p = p

theorem Written.collapse (written : r.Written p) : Text.collapse p = p := by
  rcases written with read | ⟨_,collapsed⟩
  · have phrasal : Phrase.Phrasal p := (Phrase.parse_worded read).phrase_words (by simp [Phrase.Tree.phrases])
    exact phrasal.collapse
  · exact collapsed

/-- A phrase that is written out is resolved by the table and the names of the model. -/
theorem resolved_written (written : r.Written p) :
    r.type p = r.phraseType p ∧ ∀ subject, r.findings subject p = r.phraseFindings subject p := by
  unfold Resolver.type typeOr findings findingsOr
  rw [written.collapse]
  cases whole : r.config.table.spelling? p with
  | some spelling => simp [phraseType,phraseFindings,TypeTable.classify,whole]
  | none =>
    rcases written with read | ⟨known,_⟩
    · rw [read]
      exact ⟨rfl,fun _ => rfl⟩
    · exact absurd known (TypeTable.spelling?_eq_none_iff.mp whole)

/-- A whole name has the type that the table spells, and nothing is told about it. -/
theorem type_classified (written : r.Written p)
    (classified : r.config.table.classify p = .primitive spelled) :
    r.type p = .primitive spelled ∧ ∀ subject, r.findings subject p = [] := by
  obtain ⟨type,told⟩ := resolved_written written
  rw [type]
  simp only [told,phraseType,phraseFindings,classified,implies_true,and_self]

end Resolver

/-- A word is found to be a fragment where some name goes on after it, and nowhere else. -/
theorem Tag.hasBareFragment_word {word : Text} (isWord : IsWord word) {table : TypeTable}
    {entry : Text × List Text} (among : entry ∈ table.fragments) :
    hasBareFragment word entry.1 entry.2 = true ↔ entry.1 = word := by
  obtain ⟨full,_⟩ := TypeTable.mem_fragments.mp among
  constructor
  · intro bare
    refine Classical.byContradiction fun other => ?_
    have fields : FieldOnly entry.1 word := .of_run isWord.isRun (Ne.symm other)
    exact Bool.eq_false_iff.mp (hasBareFragment_eq_false fields) bare
  · rintro rfl
    have incomplete : ∀ name ∈ entry.2, Text.startsWith entry.1 name = false := by
      intro name member
      refine Bool.eq_false_iff.mpr fun starts => ?_
      obtain ⟨rest,same⟩ := Text.startsWith_iff.mp starts
      obtain ⟨_,more,rfl⟩ := TypeTable.mem_completions.mp (full ▸ member)
      have length := congrArg List.length same
      simp only [List.length_append,List.length_cons] at length
      omega
    refine (hasBareFragment_iff isWord.isRun).mpr ⟨[],[],by simp,?_⟩
    simpa [isBare,Text.trimStart,Text.startsWith,Text.after] using incomplete

/-- A phrase that the table knows whole is written in its spelling without a finding. On the line of a
parameter with that type a fragment is remarked on exactly where the table has a longer name that goes
on after the spelling; it is the spelling itself. -/
theorem whole_name_remarks {r : Resolver} {p spelled name : Text}
    (primitives : ∀ word ∈ r.config.table.primitives, IsWord word)
    (spells : r.config.table.Spells IsWord) (written : r.Written p)
    (classified : r.config.table.classify p = .primitive spelled) (valid : Stub.IsParamName name) :
    let table := r.config.table
    let line := ("---@param " : Text) ++ name ++ " " ++ (r.normalize p false).base
    (r.normalize p false).base = spelled ∧ (∀ subject, r.findings subject p = []) ∧
    ∀ file source remark,
      (remark ∈ (Validator.ofTable table).remarks file source ∧ remark.concern = .fragment ∧
        remark.text = line) ↔
      table.completions spelled ≠ [] ∧ ∃ i, (Text.lines source)[i]? = some line ∧
        remark = ⟨i + 1,.fragment,Tag.fragmentMessage spelled (table.completions spelled),line⟩ := by
  intro table line
  obtain ⟨type,silent⟩ := Resolver.type_classified written classified
  have base : (r.normalize p false).base = spelled := congrArg LuaType.render type
  have isWord : IsWord spelled := by
    rcases TypeTable.classify_primitive classified with whole | ⟨rfl,listed⟩ | other
    · exact spells.multiWord _ whole
    · exact primitives _ listed
    · exact spells.aliases _ other
  have compact : Tag.Compact spelled :=
    ⟨.of_wordParts isWord.parts,isWord.nonempty,fun mark => absurd (isWord.parts '#' mark) (by decide)⟩
  refine ⟨base,silent,fun file source remark => ?_⟩
  have typed : Tag.type? (Validator.ofTable table).names line = some spelled := by
    change Tag.type? _ (("---@param " : Text) ++ name ++ " " ++ (r.normalize p false).base) = _
    rw [base,← List.append_nil (_ ++ spelled)]
    exact Tag.type_param valid compact (Or.inl rfl)
  rw [Validator.mem_remarks_on typed]
  constructor
  · rintro ⟨i,place,entry,among,bare,rfl⟩
    obtain ⟨full,some⟩ := TypeTable.mem_fragments.mp among
    obtain same := (Tag.hasBareFragment_word isWord among).mp bare
    rw [same] at full some
    exact ⟨some,i,place,by rw [full,same]⟩
  · rintro ⟨some,i,place,rfl⟩
    have among : (spelled,table.completions spelled) ∈ table.fragments :=
      TypeTable.mem_fragments.mpr ⟨rfl,some⟩
    exact ⟨i,place,_,among,(Tag.hasBareFragment_word isWord among).mpr rfl,rfl⟩

def overlapping : TypeTable where
  primitives := ["light", "number"].map String.toList
  aliases := [("lamp", "light")]
  multiWord := [("light userdata", "lightuserdata"), ("lightuserdata box", "box")]
  completeFragments := true

theorem overlapping_remarks :
    let r : Resolver := ⟨⟨"love",false,overlapping⟩,[]⟩
    let source : Text := "---@meta\n---@param x light\n---@param x lightuserdata\n---@param x number\n"
    let remarks := (Validator.ofTable overlapping).remarks "m" source
    (overlapping.classify "lamp" = .primitive "light" ∧ (∀ subject, r.findings subject "lamp" = []) ∧
      ⟨2,.fragment,"`light` is an incomplete type name (expected light userdata)",
        "---@param x light"⟩ ∈ remarks) ∧
    (overlapping.classify "light userdata" = .primitive "lightuserdata" ∧
      (∀ subject, r.findings subject "light userdata" = []) ∧
      ⟨3,.fragment,"`lightuserdata` is an incomplete type name (expected lightuserdata box)",
        "---@param x lightuserdata"⟩ ∈ remarks) ∧
    overlapping.classify "number" = .primitive "number" ∧
      (∀ subject, r.findings subject "number" = []) ∧
      ∀ remark ∈ remarks, remark.text = ("---@param x number" : Text) → remark.concern ≠ .fragment := by
  intro r source remarks
  have primitives : ∀ word ∈ overlapping.primitives, IsWord word := by decide
  have spells : overlapping.Spells IsWord := ⟨by decide,by decide⟩
  have valid : Stub.IsParamName "x" := Or.inr (by decide)
  obtain ⟨_,silent,other⟩ := whole_name_remarks (r := r) primitives spells (Or.inl rfl)
    (show overlapping.classify "lamp" = .primitive "light" from rfl) valid
  obtain ⟨_,silentToo,whole⟩ := whole_name_remarks (r := r) primitives spells (Or.inl rfl)
    (show overlapping.classify "light userdata" = .primitive "lightuserdata" from rfl) valid
  obtain ⟨_,silentThen,plain⟩ := whole_name_remarks (r := r) primitives spells (Or.inl rfl)
    (show overlapping.classify "number" = .primitive "number" from rfl) valid
  refine ⟨⟨rfl,silent,?_⟩,⟨rfl,silentToo,?_⟩,rfl,silentThen,fun remark member text concern => ?_⟩
  · exact ((other "m" source _).mpr ⟨by decide,1,by decide +kernel,by decide +kernel⟩).1
  · exact ((whole "m" source _).mpr ⟨by decide,2,by decide +kernel,by decide +kernel⟩).1
  · exact ((plain "m" source remark).mp ⟨member,concern,text.trans (by decide +kernel)⟩).1 (by decide)

end LuaStubs
