import LuaStubs.Proofs.Phrase
import LuaStubs.Resolver

/-! What the text of a resolved type is made of. `LuaType.Over` says of which names a type is built; a
property of its text follows from that of the names by induction on it. -/
namespace LuaStubs

namespace LuaType

inductive Over (leaf : Text → Prop) : LuaType → Prop where
  | primitive {name : Text} : leaf name → Over leaf (.primitive name)
  | named {name : Text} : leaf name → Over leaf (.named name)
  | union {arms : List LuaType} : arms ≠ [] → (∀ arm ∈ arms, Over leaf arm) →
      Over leaf (.union arms)
  | table {fields : List (Text × LuaType)} {isOpen : Bool} :
      (∀ field ∈ fields, Phrase.IsWord field.1) → (∀ field ∈ fields, Over leaf field.2) →
      Over leaf (.table fields isOpen)

theorem renderArms_eq (arms : List LuaType) : renderArms arms = arms.map render := by
  induction arms with
  | nil => rfl
  | cons arm rest ih => rw [renderArms,ih,List.map_cons]

theorem renderFields_eq (fields : List (Text × LuaType)) :
    renderFields fields = fields.map renderField := by
  induction fields with
  | nil => rfl
  | cons field rest ih => rw [renderFields,ih,List.map_cons]

/-- A property `holds` of the texts of types, from one of the names in them. The fields of a table have
the property `inner`. -/
structure Kept (leaf holds inner : Text → Prop) : Prop where
  leaves : ∀ name, leaf name → holds name
  union : ∀ arms : List Text, arms ≠ [] → (∀ arm ∈ arms, holds arm) → holds (Text.join "|" arms)
  bare : holds "table"
  entries : holds "table<any, any>"
  field : ∀ name type, Phrase.IsWord name → holds type → inner (name ++ ": " ++ type)
  entry : inner "[any]: any"
  braced : ∀ fields : List Text, (∀ field ∈ fields, inner field) →
    holds ("\x7b" ++ Text.join ", " fields ++ "\x7d")

theorem Kept.table {leaf holds inner : Text → Prop} (kept : Kept leaf holds inner)
    {fields : List Text} (each : ∀ field ∈ fields, inner field) (isOpen : Bool) :
    holds (renderTable fields isOpen) := by
  unfold renderTable
  split
  · exact kept.bare
  · exact kept.entries
  · exact kept.braced _ each
  · refine kept.braced _ fun field member => ?_
    rcases List.mem_append.mp member with listed | entry
    · exact each field listed
    · exact List.mem_singleton.mp entry ▸ kept.entry

theorem Over.render {leaf holds inner : Text → Prop} (kept : Kept leaf holds inner)
    {type : LuaType} (made : Over leaf type) : holds type.render := by
  induction made with
  | primitive name => exact kept.leaves _ name
  | named name => exact kept.leaves _ name
  | @union arms nonempty _ ih =>
    rw [LuaType.render,renderArms_eq]
    refine kept.union _ (by simpa using nonempty) ?_
    intro text member
    obtain ⟨arm,among,rfl⟩ := List.mem_map.mp member
    exact ih arm among
  | @table fields isOpen words _ ih =>
    rw [LuaType.render,renderFields_eq]
    refine kept.table ?_ isOpen
    intro text member
    obtain ⟨⟨name,type⟩,among,rfl⟩ := List.mem_map.mp member
    rw [renderField]
    exact kept.field name _ (words _ among) (ih _ among)

theorem Over.mono {leaf other : Text → Prop} (weaker : ∀ name, leaf name → other name)
    {type : LuaType} (made : Over leaf type) : Over other type := by
  induction made with
  | primitive name => exact .primitive (weaker _ name)
  | named name => exact .named (weaker _ name)
  | union nonempty _ ih => exact .union nonempty ih
  | table words _ ih => exact .table words ih

theorem Over.arms {leaf : Text → Prop} {type : LuaType} (made : Over leaf type) :
    type.arms ≠ [] ∧ ∀ arm ∈ type.arms, Over leaf arm := by
  cases made with
  | primitive name => exact ⟨by simp [LuaType.arms],by simpa [LuaType.arms] using .primitive name⟩
  | named name => exact ⟨by simp [LuaType.arms],by simpa [LuaType.arms] using .named name⟩
  | union nonempty all => exact ⟨nonempty,all⟩
  | table words all => exact ⟨by simp [LuaType.arms],by simpa [LuaType.arms] using .table words all⟩

theorem firstOfEach_sublist (seen : List Text) (types : List LuaType) :
    (firstOfEach seen types).Sublist types := by
  induction types generalizing seen with
  | nil => simp [firstOfEach]
  | cons type rest ih =>
    rw [firstOfEach]
    split
    · exact (ih seen).cons type
    · exact (ih _).cons_cons type

theorem firstOfEach_ne_nil {types : List LuaType} (nonempty : types ≠ []) :
    firstOfEach [] types ≠ [] := by
  obtain ⟨first,rest,rfl⟩ := List.exists_cons_of_ne_nil nonempty
  simp [firstOfEach]

theorem Over.unionOf {leaf : Text → Prop} {types : List LuaType} (nonempty : types ≠ [])
    (all : ∀ type ∈ types, Over leaf type) : Over leaf (unionOf types) := by
  have kept : firstOfEach [] (types.flatMap LuaType.arms) ≠ [] := by
    apply firstOfEach_ne_nil
    obtain ⟨first,rest,rfl⟩ := List.exists_cons_of_ne_nil nonempty
    have := (all first (by simp)).arms.1
    simp [this]
  have each : ∀ arm ∈ firstOfEach [] (types.flatMap LuaType.arms), Over leaf arm := by
    intro arm member
    obtain ⟨type,among,inside⟩ := List.mem_flatMap.mp ((firstOfEach_sublist _ _).subset member)
    exact (all type among).arms.2 arm inside
  unfold LuaType.unionOf
  split
  · rename_i arm alone
    exact each arm (by simp [alone])
  · exact .union kept each

end LuaType

structure TypeTable.Spells (table : TypeTable) (leaf : Text → Prop) : Prop where
  multiWord : ∀ entry ∈ table.multiWord, leaf entry.2
  aliases : ∀ entry ∈ table.aliases, leaf entry.2

namespace TypeTable

theorem mem_of_lookup {entries : List (Text × α)} {key : Text} {value : α}
    (found : entries.lookup key = some value) : (key, value) ∈ entries := by
  induction entries with
  | nil => simp at found
  | cons entry rest ih =>
    obtain ⟨k,v⟩ := entry
    rw [List.lookup_cons] at found
    split at found
    · rename_i same
      obtain rfl := Option.some.inj found
      simp [eq_of_beq same]
    · exact List.mem_cons_of_mem _ (ih found)

theorem exists_lookup {entries : List (Text × α)} {key : Text}
    (member : key ∈ entries.map Prod.fst) : ∃ value, entries.lookup key = some value := by
  induction entries with
  | nil => simp at member
  | cons entry rest ih =>
    obtain ⟨k,v⟩ := entry
    rw [List.lookup_cons]
    split
    · exact ⟨v,rfl⟩
    · rename_i other
      rcases List.mem_cons.mp member with rfl | later
      · simp at other
      · exact ih later

theorem Spells.mono {table : TypeTable} {leaf other : Text → Prop} (spells : table.Spells leaf)
    (weaker : ∀ t, leaf t → other t) : table.Spells other :=
  ⟨fun entry member => weaker _ (spells.multiWord entry member),
    fun entry member => weaker _ (spells.aliases entry member)⟩

theorem Spells.completion {table : TypeTable} {leaf : Text → Prop} (spells : table.Spells leaf)
    {phrase full : Text} (among : full ∈ table.completions phrase) :
    leaf ((table.spelling? full).getD full) := by
  obtain ⟨spelling,found⟩ := exists_lookup (List.mem_filter.mp among).1
  rw [spelling?,found]
  exact spells.multiWord _ (mem_of_lookup found)

end TypeTable

namespace Resolver

variable {r : Resolver} {leaf : Text → Prop}

theorem nameType_over {name : Text} (plain : leaf name) (qualified : leaf (r.qualified name)) :
    (r.nameType name).Over leaf := by
  unfold nameType
  split
  · exact .named qualified
  · exact .named plain

theorem phraseType_over {phrase : Text} (spells : r.config.table.Spells leaf)
    (plain : leaf phrase) (qualified : leaf (r.qualified phrase)) :
    (r.phraseType phrase).Over leaf := by
  unfold phraseType TypeTable.classify
  cases whole : r.config.table.spelling? phrase with
  | some spelling => exact .primitive (spells.multiWord _ (TypeTable.mem_of_lookup whole))
  | none =>
    by_cases primitive : r.config.table.primitives.contains phrase = true
    · simp only [primitive,↓reduceIte]
      exact .primitive plain
    · simp only [primitive]
      cases other : r.config.table.aliases.lookup phrase with
      | some target => exact .primitive (spells.aliases _ (TypeTable.mem_of_lookup other))
      | none =>
        cases found : r.config.table.completions phrase with
        | nil => exact nameType_over plain qualified
        | cons full rest =>
          cases rest with
          | nil =>
            simp only [completion?]
            by_cases completes : r.config.table.completeFragments = true
            · simp only [completes,↓reduceIte]
              exact .primitive (spells.completion (by rw [found]; simp))
            · simpa [completes] using .named plain
          | cons second rest => exact .named plain

theorem treeTypes_eq (alts : List Phrase.Tree) : r.treeTypes alts = alts.map r.treeType := by
  induction alts with
  | nil => rfl
  | cons alt rest ih => rw [treeTypes,ih,List.map_cons]

theorem fieldTypes_eq (fields : List (Text × Phrase.Tree)) :
    r.fieldTypes fields = fields.map fun field => (field.1, r.treeType field.2) := by
  induction fields with
  | nil => rfl
  | cons field rest ih => obtain ⟨name,tree⟩ := field; rw [fieldTypes,ih,List.map_cons,fieldType]

/-- A property of the types of trees, from one of the types of their phrases. -/
theorem treeType_induction {holds : LuaType → Prop} {tree : Phrase.Tree} (worded : tree.Worded)
    (phrases : ∀ p ∈ tree.phrases, holds (r.phraseType p))
    (union : ∀ types, types ≠ [] → (∀ type ∈ types, holds type) → holds (.unionOf types))
    (table : ∀ fields isOpen, (∀ field ∈ fields, Phrase.IsWord field.1) →
      (∀ field ∈ fields, holds field.2) → holds (.table fields isOpen)) :
    holds (r.treeType tree) := by
  induction worded with
  | phrase nonempty words => exact phrases _ (by simp [Phrase.Tree.phrases])
  | @union alts several _ ih =>
    rw [treeType,treeTypes_eq]
    apply union
    · intro none
      simp only [List.map_eq_nil_iff] at none
      simp [none] at several
    · intro type member
      obtain ⟨alt,among,rfl⟩ := List.mem_map.mp member
      exact ih alt among fun p inside => phrases p (Phrase.Tree.mem_phrases_union.mpr ⟨alt,among,inside⟩)
  | @table fields isOpen words _ ih =>
    rw [treeType,fieldTypes_eq]
    apply table
    · intro field member
      obtain ⟨origin,among,rfl⟩ := List.mem_map.mp member
      exact words origin among
    · intro field member
      obtain ⟨origin,among,rfl⟩ := List.mem_map.mp member
      exact ih origin among fun p inside =>
        phrases p (Phrase.Tree.mem_phrases_table.mpr ⟨origin,among,inside⟩)

theorem treeType_over {tree : Phrase.Tree} (worded : tree.Worded)
    (phrases : ∀ p ∈ tree.phrases, (r.phraseType p).Over leaf) : (r.treeType tree).Over leaf :=
  treeType_induction worded phrases (fun _ nonempty all => .unionOf nonempty all)
    fun _ _ words all => .table words all

/-- A text is the name of several words that it is, or has the type of its tree, or is not read. -/
theorem typeOr_shape (other : Phrase.Error → LuaType) (raw : Text) :
    (∃ entry ∈ r.config.table.multiWord, entry.1 = Text.collapse raw ∧
        r.typeOr other raw = .primitive entry.2) ∨
      (∃ tree, Phrase.parse raw = .ok tree ∧ r.typeOr other raw = r.treeType tree) ∨
      ∃ e, Phrase.parse raw = .error e ∧ r.typeOr other raw = other e := by
  unfold typeOr
  split
  · rename_i spelling found
    exact Or.inl ⟨_,TypeTable.mem_of_lookup found,rfl,rfl⟩
  · split
    · rename_i tree parsed
      exact Or.inr (Or.inl ⟨tree,parsed,rfl⟩)
    · rename_i e rejected
      exact Or.inr (Or.inr ⟨e,rejected,rfl⟩)

theorem typeOr_cases {other : Phrase.Error → LuaType} {raw : Text}
    (spells : r.config.table.Spells leaf)
    (phrases : ∀ tree, Phrase.parse raw = .ok tree → ∀ p ∈ tree.phrases, (r.phraseType p).Over leaf) :
    (r.typeOr other raw).Over leaf ∨
      ∃ e, Phrase.parse raw = .error e ∧ r.typeOr other raw = other e := by
  rcases r.typeOr_shape other raw with ⟨entry,listed,_,same⟩ | ⟨tree,parsed,same⟩ | rejected
  · exact Or.inl (same ▸ .primitive (spells.multiWord entry listed))
  · exact Or.inl (same ▸ treeType_over (Phrase.parse_worded parsed) (phrases tree parsed))
  · exact Or.inr rejected

theorem type_over_of_parse {raw : Text} {tree : Phrase.Tree} (parsed : Phrase.parse raw = .ok tree)
    (spells : r.config.table.Spells leaf)
    (phrases : ∀ p ∈ tree.phrases, (r.phraseType p).Over leaf) : (r.type raw).Over leaf := by
  have all (other : Phrase.Tree) (read : Phrase.parse raw = .ok other) :
      ∀ p ∈ other.phrases, (r.phraseType p).Over leaf := by
    obtain rfl : tree = other := Except.ok.inj (parsed.symm.trans read)
    exact phrases
  rcases typeOr_cases spells all with made | ⟨e,rejected,_⟩
  · exact made
  · rw [parsed] at rejected
    contradiction

theorem aloneType_over {raw : Text} (spells : r.config.table.Spells leaf)
    (phrases : ∀ tree, Phrase.parse raw = .ok tree → ∀ p ∈ tree.phrases, (r.phraseType p).Over leaf)
    (kept : leaf (Text.collapse raw)) : (r.aloneType raw).Over leaf := by
  unfold aloneType
  rcases typeOr_cases spells phrases with made | ⟨e,_,same⟩
  · exact made
  · rw [same]
    exact .named kept

/-- Any text, read or not: what is not read is kept with its white space collapsed. -/
theorem type_over (spells : r.config.table.Spells leaf)
    (phrases : ∀ read : List Text, read ≠ [] → (∀ w ∈ read, Phrase.IsWord w) →
      (r.phraseType (Text.join " " read)).Over leaf)
    (kept : ∀ raw, leaf (Text.collapse raw)) (raw : Text) : (r.type raw).Over leaf := by
  have all {raw : Text} (tree : Phrase.Tree) (parsed : Phrase.parse raw = .ok tree) :
      ∀ p ∈ tree.phrases, (r.phraseType p).Over leaf := by
    intro p member
    obtain ⟨read,nonempty,words,rfl⟩ := (Phrase.parse_worded parsed).phrase_words member
    exact phrases read nonempty words
  unfold Resolver.type
  rcases typeOr_cases spells all with made | ⟨e,_,same⟩
  · exact made
  · rw [same]
    split
    · refine LuaType.Over.unionOf (by simp) ?_
      intro type member
      obtain ⟨segment,_,rfl⟩ := List.mem_map.mp member
      exact aloneType_over spells all (kept segment)
    · exact .named (kept raw)

end Resolver
end LuaStubs
