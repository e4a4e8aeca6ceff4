import LuaStubs.Description
import LuaStubs.Proofs.RoundTrip
import Mathlib.Data.List.Basic
import Mathlib.Tactic.Choose

/-! Types that are written as structures. A structure becomes one text, and the text is read again; the
type that comes out is that of the structure, node by node. -/
namespace LuaStubs

namespace LuaType

theorem firstOfEach_append {rest other : List LuaType}
    (same : ∀ seen, firstOfEach seen rest = firstOfEach seen other) (types : List LuaType)
    (seen : List Text) : firstOfEach seen (types ++ rest) = firstOfEach seen (types ++ other) := by
  induction types generalizing seen with
  | nil => exact same seen
  | cons type types ih =>
    rw [List.cons_append,List.cons_append,firstOfEach,firstOfEach,ih,ih]

/-- What was dropped as seen before would be dropped anyway. -/
theorem firstOfEach_kept {inner seen : List Text} (known : ∀ text ∈ inner, text ∈ seen)
    (types rest : List LuaType) :
    firstOfEach seen (firstOfEach inner types ++ rest) = firstOfEach seen (types ++ rest) := by
  induction types generalizing inner seen with
  | nil => rfl
  | cons type types ih =>
    rw [firstOfEach,List.cons_append,firstOfEach]
    by_cases dropped : inner.contains type.render = true
    · have among : seen.contains type.render = true := by
        simpa using known _ (by simpa using dropped)
      rw [if_pos dropped,if_pos among,ih known]
    · rw [if_neg dropped,List.cons_append,firstOfEach]
      by_cases among : seen.contains type.render = true
      · rw [if_pos among,if_pos among]
        apply ih
        intro text member
        rcases List.mem_cons.mp member with rfl | earlier
        · simpa using among
        · exact known text earlier
      · rw [if_neg among,if_neg among]
        congr 1
        apply ih
        intro text member
        rcases List.mem_cons.mp member with rfl | earlier
        · exact List.mem_cons_self
        · exact List.mem_cons_of_mem _ (known text earlier)

theorem firstOfEach_flatMap (parts : β → List LuaType) (whole : List β) (seen : List Text) :
    firstOfEach seen (whole.flatMap fun x => firstOfEach [] (parts x)) =
      firstOfEach seen (whole.flatMap parts) := by
  induction whole generalizing seen with
  | nil => rfl
  | cons first rest ih =>
    rw [List.flatMap_cons,List.flatMap_cons,firstOfEach_kept (by simp)]
    exact firstOfEach_append ih _ seen

theorem firstOfEach_of_nodup {types : List LuaType} {seen : List Text}
    (distinct : (types.map render).Nodup) (fresh : ∀ type ∈ types, type.render ∉ seen) :
    firstOfEach seen types = types := by
  induction types generalizing seen with
  | nil => rfl
  | cons type rest ih =>
    obtain ⟨other,later⟩ := List.nodup_cons.mp distinct
    rw [firstOfEach,if_neg (by simpa using fresh type (by simp)),ih later]
    intro next member known
    rcases List.mem_cons.mp known with same | earlier
    · exact other (same ▸ List.mem_map_of_mem member)
    · exact fresh next (by simp [member]) earlier

/-- One flat type alone is its union. -/
theorem unionOf_singleton {type : LuaType} (flat : type.Flat) : unionOf [type] = type := by
  obtain ⟨root,_⟩ := flat_iff.mp flat
  rw [unionOf,List.flatMap_singleton]
  cases type with
  | union arms =>
    have shape := root.union arms rfl
    have kept : firstOfEach [] (union arms).arms = arms := firstOfEach_of_nodup shape.distinct (by simp)
    rw [kept]
    split
    · rename_i alone
      simpa [alone] using shape.several
    · rfl
  | _ => rfl

/-- A union of unions is the union of all. -/
theorem unionOf_flatMap {parts : β → List LuaType} {whole : List β}
    (nonempty : ∀ x ∈ whole, parts x ≠ []) (flat : ∀ x ∈ whole, ∀ type ∈ parts x, type.Flat) :
    unionOf (whole.flatMap parts) = unionOf (whole.map fun x => unionOf (parts x)) := by
  have arms : (whole.map fun x => unionOf (parts x)).flatMap LuaType.arms =
      whole.flatMap fun x => kept (parts x) := by
    rw [List.flatMap_map]
    apply List.flatMap_congr
    intro x member
    exact arms_unionOf (nonempty x member) (flat x member)
  have same : firstOfEach [] ((whole.map fun x => unionOf (parts x)).flatMap LuaType.arms) =
      firstOfEach [] ((whole.flatMap parts).flatMap LuaType.arms) := by
    rw [arms,List.flatMap_assoc]
    exact firstOfEach_flatMap _ whole []
  rw [unionOf,unionOf,same]

end LuaType

namespace Phrase

theorem Derives.alts_append {first second : List Tree} {before after : List Token}
    (left : Derives (.alts first) before) (right : Derives (.alts second) after) :
    Derives (.alts (first ++ second)) (before ++ .or :: after) := by
  -- lists grow at their end, so the induction is on what is appended
  generalize same : Part.alts second = part at right
  induction right generalizing second with
  | firstAlt alt =>
    cases same
    exact .nextAlt left alt
  | nextAlt _ alt ih _ =>
    cases same
    simpa using Derives.nextAlt (ih rfl) alt
  | _ => cases same

theorem Derives.entries_append {first second : List (Text × Tree)} {isOpen : Bool}
    {before after : List Token} (left : Derives (.entries first isOpen) before)
    (right : Derives (.entries second false) after) :
    Derives (.entries (first ++ second) isOpen) (before ++ .comma :: after) := by
  generalize same : Part.entries second false = part at right
  induction right generalizing second with
  | firstField tree =>
    cases same
    exact .nextField left tree
  | nextField _ tree ih _ =>
    cases same
    simpa using Derives.nextField (ih rfl) tree
  | _ => cases same

/-- What two texts keep when a separator goes between them, the texts of a whole list keep. -/
theorem holds_join {holds : Text → List α → Prop} {separator : Text}
    (pair : ∀ {a b first second}, holds a first → holds b second →
      holds (a ++ separator ++ b) (first ++ second))
    {texts : β → Text} {parts : β → List α} {whole : List β} (nonempty : whole ≠ [])
    (each : ∀ x ∈ whole, holds (texts x) (parts x)) :
    holds (Text.join separator (whole.map texts)) (whole.flatMap parts) := by
  induction whole with
  | nil => contradiction
  | cons x rest ih =>
    have here := each x (by simp)
    cases rest with
    | nil => simpa using here
    | cons y rest =>
      have later := ih (by simp) fun z member => each z (by simp [member])
      rw [List.map_cons,List.map_cons,Text.join_cons_cons,List.flatMap_cons]
      exact pair here later

def Reads (t : Text) (trees : List Tree) : Prop :=
  ∃ all, bare (tokens t) = some all ∧ Derives (.alts trees) all

def Fills (t : Text) (fields : List (Text × Tree)) : Prop :=
  ∃ all, bare (tokens t) = some all ∧ Derives (.entries fields false) all

structure IsKey (name : Text) : Prop extends IsWord name where
  undotted : ∀ rest, name ≠ '.' :: '.' :: '.' :: rest

section

variable {a b t name : Text} {first second trees : List Tree} {fields others : List (Text × Tree)}

theorem exists_reads {tree : Tree} (parsed : parse t = .ok tree) : ∃ trees, Reads t trees := by
  obtain ⟨all,cut,derived⟩ := parse_eq_ok_iff_bare.mp parsed
  cases derived with
  | one alts => exact ⟨_,all,cut,alts⟩
  | several _ alts => exact ⟨_,all,cut,alts⟩

theorem Reads.parse (reads : Reads t trees) : parse t = .ok (.ofAlts trees) := by
  obtain ⟨all,cut,derived⟩ := reads
  exact parse_eq_ok_iff_bare.mpr ⟨all,cut,derived.ofAlts⟩

theorem Reads.ne_nil (reads : Reads t trees) : trees ≠ [] := by
  obtain ⟨_,_,derived⟩ := reads
  exact derived.alts_ne_nil

theorem Reads.worded (reads : Reads t trees) : ∀ tree ∈ trees, tree.Worded := by
  have whole := parse_worded reads.parse
  intro tree member
  cases trees with
  | nil => cases member
  | cons alt rest =>
    cases rest with
    | nil => exact List.mem_singleton.mp member ▸ whole
    | cons next rest =>
      cases whole with
      | union _ all => exact all tree member

theorem Reads.or (left : Reads a first) (right : Reads b second) :
    Reads (a ++ " or " ++ b) (first ++ second) := by
  obtain ⟨before,cut,derived⟩ := left
  obtain ⟨after,apart,further⟩ := right
  have text : a ++ " or " ++ b = a ++ ' ' :: (("or" : Text) ++ ' ' :: b) := by simp
  have between : bare (tokens "or") = some [.or] := rfl
  refine ⟨before ++ .or :: after,?_,derived.alts_append further⟩
  rw [text,bare_tokens_append (by decide),bare_tokens_append (by decide),cut,between,apart]
  rfl

theorem Reads.bar (left : Reads a first) (right : Reads b second) :
    Reads (a ++ "|" ++ b) (first ++ second) := by
  obtain ⟨before,cut,derived⟩ := left
  obtain ⟨after,apart,further⟩ := right
  have text : a ++ "|" ++ b = a ++ '|' :: b := by simp
  refine ⟨before ++ .or :: after,?_,derived.alts_append further⟩
  rw [text,bare_tokens_mark rfl,cut,apart]
  rfl

theorem IsKey.tokens (key : IsKey name) : bare (tokens name) = some [.word name] := by
  have whole : bare (Phrase.tokens name) = _ := bare_wordParts 0 key.parts (Or.inr key.undotted)
  rw [whole,List.append_nil,wordTokens,if_neg (by simpa using key.nonempty),List.reverse_reverse,
    Token.ofWord,if_neg key.notOr]

theorem IsKey.fills (key : IsKey name) (reads : Reads t trees) :
    Fills (name ++ ": " ++ t) [(name,.ofAlts trees)] := by
  obtain ⟨all,cut,derived⟩ := reads
  have text : name ++ ": " ++ t = name ++ ':' :: ([] ++ ' ' :: t) := by simp
  refine ⟨.word name :: .colon :: all,?_,.firstField derived.ofAlts⟩
  rw [text,bare_tokens_mark rfl,bare_tokens_append (by decide),key.tokens,cut]
  rfl

theorem Fills.comma (left : Fills a fields) (right : Fills b others) :
    Fills (a ++ ", " ++ b) (fields ++ others) := by
  obtain ⟨before,cut,derived⟩ := left
  obtain ⟨after,apart,further⟩ := right
  have text : a ++ ", " ++ b = a ++ ',' :: ([] ++ ' ' :: b) := by simp
  refine ⟨before ++ .comma :: after,?_,derived.entries_append further⟩
  rw [text,bare_tokens_mark rfl,bare_tokens_append (by decide),cut,apart]
  rfl

theorem Fills.braced (fills : Fills t fields) :
    Reads ("\x7b" ++ t ++ "\x7d") [.table fields false] := by
  obtain ⟨all,cut,derived⟩ := fills
  have text : ("\x7b" : Text) ++ t ++ "\x7d" =
      ([] : Text) ++ '\x7b' :: (t ++ '\x7d' :: []) := by simp
  refine ⟨.openBrace :: all ++ [.closeBrace],?_,.firstAlt (.table derived)⟩
  rw [text,bare_tokens_mark rfl,bare_tokens_mark rfl,cut]
  rfl

end

end Phrase

namespace Description.TypeShape

open Phrase

theorem texts_eq (members : List TypeShape) : texts members = members.map text := by
  induction members with
  | nil => rfl
  | cons member rest ih => rw [texts,ih,List.map_cons]

theorem fieldTexts_eq (fields : List (Text × TypeShape)) :
    fieldTexts fields = fields.map fieldText := by
  induction fields with
  | nil => rfl
  | cons field rest ih => rw [fieldTexts,ih,List.map_cons]

/-- A structure that can be read back: its leaves are read, no alternatives are missing, and words name
the fields. -/
inductive Readable : TypeShape → Prop where
  | token {text : Text} {tree : Tree} : parse text = .ok tree → Readable (.token text)
  | alternatives {members : List TypeShape} : members ≠ [] → (∀ member ∈ members, Readable member) →
      Readable (.alternatives members)
  | table {fields : List (Text × TypeShape)} : (∀ field ∈ fields, IsKey field.1) →
      (∀ field ∈ fields, Readable field.2) → Readable (.table fields)

/-- No brackets go around alternatives, so theirs become those of the whole. -/
theorem alternatives_reads {members : List TypeShape} {trees : TypeShape → List Tree}
    (nonempty : members ≠ []) (each : ∀ member ∈ members, Reads member.text (trees member)) :
    Reads (alternatives members).text (members.flatMap trees) := by
  rw [text,texts_eq]
  exact holds_join Reads.or nonempty each

/-- A field ends at a comma or at the brace, so the alternatives in it stay in it. -/
theorem table_reads {fields : List (Text × TypeShape)} {trees : Text × TypeShape → List Tree}
    (keys : ∀ field ∈ fields, IsKey field.1)
    (each : ∀ field ∈ fields, Reads field.2.text (trees field)) :
    Reads (table fields).text [.table (fields.map fun field => (field.1,.ofAlts (trees field))) false] := by
  rw [text,fieldTexts_eq]
  by_cases none : fields = []
  · subst none
    exact ⟨[.openBrace,.closeBrace],rfl,.firstAlt .emptyTable⟩
  · have entry (field : Text × TypeShape) (among : field ∈ fields) :
        Fills (fieldText field) [(field.1,.ofAlts (trees field))] := by
      obtain ⟨name,shape⟩ := field
      rw [fieldText]
      exact (keys _ among).fills (each _ among)
    have filled := (holds_join Fills.comma none entry).braced
    rwa [← List.map_eq_flatMap] at filled

theorem Readable.reads {shape : TypeShape} (readable : shape.Readable) :
    ∃ trees, Reads shape.text trees := by
  induction readable with
  | token parsed => exact exists_reads parsed
  | alternatives nonempty _ ih =>
    choose! trees reads using ih
    exact ⟨_,alternatives_reads nonempty reads⟩
  | table keys _ ih =>
    choose! trees reads using ih
    exact ⟨_,table_reads keys reads⟩

end Description.TypeShape

namespace Resolver

open Description (TypeShape)

variable {r : Resolver}

theorem treesFindings_eq (subject : Text) (alts : List Phrase.Tree) :
    r.treesFindings subject alts = alts.flatMap (r.treeFindings subject) := by
  induction alts with
  | nil => rfl
  | cons alt rest ih => rw [treesFindings,ih,List.flatMap_cons]

theorem fieldsFindings_eq (subject : Text) (fields : List (Text × Phrase.Tree)) :
    r.fieldsFindings subject fields =
      fields.flatMap fun field => r.treeFindings (subject ++ "." ++ field.1) field.2 := by
  induction fields with
  | nil => rfl
  | cons field rest ih =>
    obtain ⟨name,tree⟩ := field
    rw [fieldsFindings,ih,List.flatMap_cons,fieldFindings]

section

variable {t : Text} {trees : List Phrase.Tree}

theorem flat_of_reads (reads : Phrase.Reads t trees) : ∀ type ∈ trees.map r.treeType, type.Flat := by
  intro type member
  obtain ⟨tree,among,rfl⟩ := List.mem_map.mp member
  exact r.treeType_flat (reads.worded tree among)

/-- The type of a tree is the union of its alternatives, also where there is one only. -/
theorem treeType_ofAlts (reads : Phrase.Reads t trees) :
    r.treeType (.ofAlts trees) = .unionOf (trees.map r.treeType) := by
  have flat := flat_of_reads (r := r) reads
  cases trees with
  | nil => exact absurd rfl reads.ne_nil
  | cons first rest =>
    cases rest with
    | nil =>
      have alone : (r.treeType first).Flat := flat _ (by simp)
      exact (LuaType.unionOf_singleton alone).symm
    | cons second rest =>
      change r.treeType (.union (first :: second :: rest)) = _
      rw [treeType,treeTypes_eq]

theorem type_of_reads (builtin : r.config.table = .builtin) (reads : Phrase.Reads t trees) :
    r.type t = .unionOf (trees.map r.treeType) := by
  rw [type_of_parse builtin reads.parse,treeType_ofAlts reads]

theorem findings_of_reads (builtin : r.config.table = .builtin) (reads : Phrase.Reads t trees)
    (subject : Text) : r.findings subject t = trees.flatMap (r.treeFindings subject) := by
  rw [findings_of_parse builtin reads.parse]
  cases trees with
  | nil => exact absurd rfl reads.ne_nil
  | cons first rest =>
    cases rest with
    | nil => exact (List.flatMap_singleton _ _).symm
    | cons second rest =>
      change r.treeFindings subject (.union (first :: second :: rest)) = _
      rw [treeFindings,treesFindings_eq]

end

/-- Structures mean what they say, at every depth: alternatives are the union of their members, a table
has its fields in order, and the findings on a node are those on its parts, one part after the other. -/
theorem structure_type (builtin : r.config.table = .builtin) (subject : Text) :
    (∀ members, (TypeShape.alternatives members).Readable →
      r.type (TypeShape.alternatives members).text = .unionOf (members.map fun m => r.type m.text) ∧
        r.findings subject (TypeShape.alternatives members).text =
          members.flatMap fun m => r.findings subject m.text) ∧
    ∀ fields, (TypeShape.table fields).Readable →
      r.type (TypeShape.table fields).text =
          .table (fields.map fun field => (field.1,r.type field.2.text)) false ∧
        r.findings subject (TypeShape.table fields).text =
          fields.flatMap fun field => r.findings (subject ++ "." ++ field.1) field.2.text := by
  constructor
  · intro members readable
    obtain ⟨nonempty,each⟩ : members ≠ [] ∧ ∀ member ∈ members, member.Readable := by
      cases readable with
      | alternatives nonempty each => exact ⟨nonempty,each⟩
    -- the text of the node is read as the alternatives of all members in one row
    choose! trees reads using fun member among => (each member among).reads
    have whole := TypeShape.alternatives_reads nonempty reads
    constructor
    · calc r.type (TypeShape.alternatives members).text
          = .unionOf (members.flatMap fun m => (trees m).map r.treeType) := by
            rw [type_of_reads builtin whole,List.map_flatMap]
        _ = .unionOf (members.map fun m => .unionOf ((trees m).map r.treeType)) := by
            apply LuaType.unionOf_flatMap
            · intro member among
              simpa using (reads member among).ne_nil
            · intro member among
              exact flat_of_reads (reads member among)
        _ = .unionOf (members.map fun m => r.type m.text) := by
            congr 1
            apply List.map_congr_left
            intro member among
            exact (type_of_reads builtin (reads member among)).symm
    · rw [findings_of_reads builtin whole,List.flatMap_assoc]
      apply List.flatMap_congr
      intro member among
      exact (findings_of_reads builtin (reads member among) subject).symm
  · intro fields readable
    obtain ⟨keys,each⟩ : (∀ field ∈ fields, Phrase.IsKey field.1) ∧
        ∀ field ∈ fields, field.2.Readable := by
      cases readable with
      | table keys each => exact ⟨keys,each⟩
    choose! trees reads using fun field among => (each field among).reads
    have whole := (TypeShape.table_reads keys reads).parse
    constructor
    · rw [type_of_parse builtin whole,Phrase.Tree.ofAlts,treeType,fieldTypes_eq,List.map_map]
      congr 1
      apply List.map_congr_left
      intro field among
      have inner := type_of_parse builtin (reads field among).parse
      exact congrArg (Prod.mk field.1) inner.symm
    · rw [findings_of_parse builtin whole,Phrase.Tree.ofAlts,treeFindings,fieldsFindings_eq,
        List.flatMap_map]
      apply List.flatMap_congr
      intro field among
      exact (findings_of_parse builtin (reads field among).parse _).symm

def corner : List (Text × TypeShape) :=
  [("x",.alternatives [.token "number",.token "nil"]),("at",.token "(Imag | Image)")]

def nested : List TypeShape :=
  [.token "Image or string",.table corner,.alternatives [.token "light userdata",.token "string"]]

theorem corner_readable : (TypeShape.table corner).Readable := by
  have union : (TypeShape.alternatives [.token "number",.token "nil"]).Readable :=
    .alternatives (by simp) (List.forall_mem_cons.mpr ⟨.token rfl,
      List.forall_mem_singleton.mpr (.token rfl)⟩)
  have x : Phrase.IsKey "x" := ⟨⟨by decide,by decide,by decide⟩,by simp⟩
  have at' : Phrase.IsKey "at" := ⟨⟨by decide,by decide,by decide⟩,by simp⟩
  exact .table (List.forall_mem_cons.mpr ⟨x,List.forall_mem_singleton.mpr at'⟩)
    (List.forall_mem_cons.mpr ⟨union,List.forall_mem_singleton.mpr (.token rfl)⟩)

theorem nested_readable : (TypeShape.alternatives nested).Readable := by
  have inner : (TypeShape.alternatives [.token "light userdata",.token "string"]).Readable :=
    .alternatives (by simp) (List.forall_mem_cons.mpr ⟨.token rfl,
      List.forall_mem_singleton.mpr (.token rfl)⟩)
  exact .alternatives (by simp [nested]) (List.forall_mem_cons.mpr ⟨.token rfl,
    List.forall_mem_cons.mpr ⟨corner_readable,List.forall_mem_singleton.mpr inner⟩⟩)

theorem nested_type :
    let r : Resolver := ⟨.default,["Image"]⟩
    let unknown : Finding := ⟨.warning,.unrecognizedType,"f.at","unrecognized type `Imag`","Imag"⟩
    ((r.type (TypeShape.table corner).text).render = "\x7bx: number|nil, at: Imag|love.Image\x7d" ∧
      r.findings "f" (TypeShape.table corner).text = [unknown]) ∧
    (r.type (TypeShape.alternatives nested).text).render =
        "love.Image|string|\x7bx: number|nil, at: Imag|love.Image\x7d|lightuserdata" ∧
      r.findings "f" (TypeShape.alternatives nested).text = [unknown] := by
  intro r unknown
  have both := structure_type (r := r) rfl "f"
  obtain ⟨table,among⟩ := both.2 corner corner_readable
  obtain ⟨union,further⟩ := both.1 nested nested_readable
  rw [table,among,union,further]
  decide +kernel

end Resolver
end LuaStubs
