import LuaStubs.Proofs.Flatness
import LuaStubs.Proofs.Tokens
import LuaStubs.Proofs.Unions

/-! The union that is written for a written type, taken apart again: the cuts between alternatives give
back its arms. -/
namespace LuaStubs

namespace Phrase

structure Uncut (before : Int) (t : Text) : Prop where
  ors : OrsInside before t
  bars : ∀ u v, t = u ++ '|' :: v → before + depth u ≠ 0

theorem Uncut.tail {before : Int} {c : Char} {t : Text} (uncut : Uncut before (c :: t)) :
    Uncut (before + nesting c) t := by
  constructor
  · intro u v same
    have inside := uncut.ors (c :: u) v (by simp [same])
    simpa [Int.add_assoc] using inside
  · intro u v same
    have inside := uncut.bars (c :: u) v (by simp [same])
    simpa [Int.add_assoc] using inside

/-- A text without a cut stays in one piece up to a bar behind it, or to the end. -/
theorem cut_append {before : Int} {t : Text} (uncut : Uncut before t) (rest : Text)
    (ends : ∀ c ∈ rest.head?, c = '|') :
    cut before (t ++ rest) = t.foldr consFirst (cut (before + depth t) rest) := by
  -- the word that separates does not end behind the text
  have apart {c : Char} {t : Text} (other : ∀ more, c = ' ' → t = 'o' :: 'r' :: ' ' :: more → False) :
      ∀ more, c = ' ' → t ++ rest = 'o' :: 'r' :: ' ' :: more → False := by
    have ended {d : Char} {more : Text} (same : rest = d :: more) : d = '|' := ends d (by simp [same])
    intro more space same
    cases t with
    | nil => exact absurd (ended same) (by decide)
    | cons d t =>
      obtain ⟨rfl,next⟩ := List.cons.inj same
      cases t with
      | nil => exact absurd (ended next) (by decide)
      | cons e t =>
        obtain ⟨rfl,last⟩ := List.cons.inj next
        cases t with
        | nil => exact absurd (ended last) (by decide)
        | cons f t =>
          obtain ⟨rfl,_⟩ := List.cons.inj last
          exact other t space rfl
  fun_induction cut before t with
  | case1 before => simp
  | case2 t ih => exact absurd rfl (uncut.ors [] t rfl)
  | case3 before t opened ih =>
    have later : Uncut before t := by simpa [nesting] using uncut.tail.tail.tail.tail
    have level : depth (' ' :: 'o' :: 'r' :: ' ' :: t) = depth t := by simp [nesting]
    rw [List.cons_append,List.cons_append,List.cons_append,List.cons_append,cut,if_neg opened,
      ih later,level]
    rfl
  | case4 before c t other after separates ih =>
    obtain ⟨rfl,closed⟩ : c = '|' ∧ after = 0 := by simpa using separates
    exact absurd closed (by simpa [after,nesting] using uncut.bars [] t rfl)
  | case5 before c t other after whole ih =>
    rw [List.cons_append,cut.eq_3 _ _ _ (apart other)]
    refine (if_neg whole).trans ?_
    rw [ih uncut.tail,List.foldr_cons,depth_cons,← Int.add_assoc]

structure Segment (t : Text) : Prop where
  uncut : Uncut 0 t
  closed : depth t = 0
  trimmed : Text.Trimmed t
  nonempty : t ≠ []

theorem cut_join {texts : List Text} (some : texts ≠ []) (each : ∀ t ∈ texts, Segment t) :
    cut 0 (Text.join "|" texts) = texts := by
  induction texts with
  | nil => contradiction
  | cons first rest ih =>
    have here := each first (by simp)
    cases rest with
    | nil =>
      have whole := cut_append here.uncut [] (by simp)
      simpa [here.closed,cut,foldr_consFirst] using whole
    | cons second rest =>
      have later := ih (by simp) fun t member => each t (by simp [List.mem_cons.mp member])
      have step (t : Text) : cut 0 ('|' :: t) = [] :: cut 0 t := rfl
      have whole := cut_append here.uncut ('|' :: Text.join "|" (second :: rest)) (by simp)
      rw [here.closed,Int.add_zero,step,later,foldr_consFirst,List.append_nil] at whole
      simpa using whole

/-- Alternatives with bars between them are found again. -/
theorem alternatives_join {texts : List Text} (each : ∀ t ∈ texts, Segment t) :
    alternatives (Text.join "|" texts) = texts := by
  cases texts with
  | nil => rfl
  | cons first rest =>
    have trimmed : (first :: rest).map Text.trim = first :: rest := by
      rw [List.map_congr_left fun t member => (each t member).trimmed.trim,List.map_id']
    rw [alternatives,cut_join (by simp) each,trimmed,List.filter_eq_self]
    intro t member
    simpa using (each t member).nonempty

/-- At no place more brackets are closed than were opened, and at the end as many. -/
structure Nested (t : Text) : Prop where
  closed : depth t = 0
  opened : ∀ u v, t = u ++ v → 0 ≤ depth u

namespace Nested

variable {a b : Text}

theorem of_level (level : ∀ c ∈ a, nesting c = 0) : Nested a := by
  refine ⟨depth_of_level level,fun u v same => ?_⟩
  exact Int.le_of_eq (depth_of_level fun c member => level c (by simp [same,member])).symm

theorem append (first : Nested a) (second : Nested b) : Nested (a ++ b) := by
  refine ⟨by simp [first.closed,second.closed],fun u v same => ?_⟩
  rcases List.append_eq_append_iff.mp same with ⟨m,rfl,rest⟩ | ⟨m,before,_⟩
  · simpa [first.closed] using second.opened m v rest
  · exact first.opened u m before

theorem join {sep : Text} {parts : List Text} (between : Nested sep)
    (each : ∀ part ∈ parts, Nested part) : Nested (Text.join sep parts) := by
  induction parts with
  | nil => exact of_level (by simp)
  | cons first rest ih =>
    have here := each first (by simp)
    have later := ih fun part member => each part (by simp [member])
    cases rest with
    | nil => simpa using here
    | cons second rest =>
      rw [Text.join_cons_cons]
      exact (here.append between).append later

variable {opening closing : Char}

/-- Between two brackets around a text one is open everywhere. -/
theorem between (nested : Nested a) (opens : nesting opening = 1) {u v : Text}
    (same : opening :: (a ++ [closing]) = u ++ v) : u = [] ∨ v = [] ∨ 0 < depth u := by
  cases u with
  | nil => exact Or.inl rfl
  | cons o u =>
    obtain ⟨rfl,rest⟩ := List.cons.inj same
    right
    rcases List.append_eq_append_iff.mp rest with ⟨m,rfl,last⟩ | ⟨m,before,_⟩
    · cases m with
      | nil => exact Or.inr (by simp [opens,nested.closed])
      | cons d m => exact Or.inl (List.append_eq_nil_iff.mp (List.cons.inj last).2.symm).2
    · have nonneg := nested.opened u m before
      rw [depth_cons,opens]
      exact Or.inr (by omega)

theorem bracketed (nested : Nested a) (opens : nesting opening = 1)
    (closes : nesting closing = -1) : Nested (opening :: (a ++ [closing])) := by
  have closed : depth (opening :: (a ++ [closing])) = 0 := by simp [nested.closed,opens,closes]
  refine ⟨closed,fun u v same => ?_⟩
  rcases nested.between opens same with rfl | rfl | inside
  · exact Int.le_refl 0
  · rw [List.append_nil] at same
    exact Int.le_of_eq (same ▸ closed).symm
  · omega

theorem uncut (nested : Nested a) (opens : nesting opening = 1) :
    Uncut 0 (opening :: (a ++ [closing])) := by
  have other (c : Char) (level : nesting c = 0) : c ≠ opening := by
    rintro rfl
    omega
  constructor
  · intro u v same
    rw [List.append_assoc] at same
    rcases nested.between opens same with rfl | none | inside
    · exact absurd (List.cons.inj same).1.symm (other ' ' rfl)
    · simp at none
    · omega
  · intro u v same
    rcases nested.between opens same with rfl | none | inside
    · exact absurd (List.cons.inj same).1.symm (other '|' rfl)
    · simp at none
    · omega

/-- A text in brackets is one alternative. -/
theorem segment (nested : Nested a) (opens : nesting opening = 1) (closes : nesting closing = -1) :
    Segment (opening :: (a ++ [closing])) := by
  have visible {c : Char} (bracket : nesting c ≠ 0) : Text.isBlank c = false :=
    Bool.eq_false_iff.mpr fun blank => bracket (nesting_of_blank blank)
  refine ⟨nested.uncut opens,(nested.bracketed opens closes).closed,⟨?_,?_⟩,by simp⟩
  · intro c head
    obtain rfl : opening = c := by simpa using head
    exact visible (by omega)
  · intro c last
    obtain rfl : closing = c := by simpa [List.getLast?_cons] using last
    exact visible (by omega)

end Nested

theorem Phrasal.trimmed {t : Text} (phrasal : Phrasal t) : Text.Trimmed t := by
  obtain ⟨read,_,words,rfl⟩ := phrasal
  exact Text.Trimmed.join (fun w member => Text.trimmed_of_unblank fun c inside =>
    unblank_of_wordPart ((words w member).parts c inside)) fun w member => (words w member).nonempty

theorem Phrasal.segment {t : Text} (phrasal : Phrasal t) : Segment t := by
  have noBar : '|' ∉ t := by
    intro bar
    rcases phrasal.chars '|' bar with same | part
    · exact absurd same (by decide)
    · exact absurd part (by decide)
  obtain ⟨c,rest,text,_⟩ := phrasal.head
  refine ⟨⟨phrasal.fieldOnly.orsInside 0,?_⟩,phrasal.enclosed.closed,phrasal.trimmed,by simp [text]⟩
  intro u v same
  exact absurd (by simp [same]) noBar

end Phrase

namespace LuaType

open Phrase (Phrasal Nested Segment)

variable {type : LuaType}

theorem kept_nested : Kept Phrasal Nested Nested := by
  have level {t : Text} (each : ∀ c ∈ t, Phrase.nesting c = 0) : Nested t := .of_level each
  have word {w : Text} (parts : ∀ c ∈ w, Phrase.isWordPart c = true) : Nested w :=
    .of_level fun c member => Phrase.nesting_of_wordPart (parts c member)
  have any : Nested "any" := level (by decide)
  exact {
    leaves := fun _ phrasal => .of_level fun c member => by
      rcases phrasal.chars c member with rfl | part
      · rfl
      · exact Phrase.nesting_of_wordPart part
    union := fun _ _ all => .join (level (by decide)) all
    bare := level (by decide)
    entries := (level (by decide : ∀ c ∈ ("table" : Text), _)).append
      ((level (by decide : ∀ c ∈ ("any, any" : Text), _)).bracketed rfl rfl)
    field := fun _ _ isWord nested => ((word isWord.parts).append (level (by decide))).append nested
    entry := (show Nested ('[' :: (("any" : Text) ++ [']'])) from any.bracketed rfl rfl).append
      (level (by decide : ∀ c ∈ (": any" : Text), _))
    braced := fun _ all => (Nested.join (level (by decide)) all).bracketed rfl rfl }

theorem segment_renderTable {fields : List Text} (each : ∀ field ∈ fields, Nested field)
    (isOpen : Bool) : Segment (renderTable fields isOpen) := by
  have between : Nested ", " := .of_level (by decide)
  unfold renderTable
  split
  · exact (Phrase.IsWord.phrasal (by decide)).segment
  · have trimmed : Text.Trimmed (("table<any," : Text) ++ ' ' :: ("any>" : Text)) :=
      (Text.trimmed_of_unblank (by decide)).append_cons ' ' (by decide)
        (Text.trimmed_of_unblank (by decide)) (by decide)
    refine ⟨⟨fun u v same => ?_,fun u v same => ?_⟩,rfl,trimmed,by decide⟩
    · have letter : 'o' ∈ ("table<any, any>" : Text) := by rw [same]; simp
      exact absurd letter (by decide)
    · have bar : '|' ∈ ("table<any, any>" : Text) := by rw [same]; simp
      exact absurd bar (by decide)
  · exact (Nested.join between each).segment rfl rfl
  · refine (Nested.join between fun field member => ?_).segment rfl rfl
    rcases List.mem_append.mp member with listed | entry
    · exact each field listed
    · exact List.mem_singleton.mp entry ▸ kept_nested.entry

/-- The text of a type that is no union is one alternative. -/
theorem Over.segment (made : type.Over Phrasal) (single : ∀ inner, type ≠ .union inner) :
    Segment type.render := by
  cases made with
  | primitive phrasal => exact phrasal.segment
  | named phrasal => exact phrasal.segment
  | union => exact absurd rfl (single _)
  | @table fields isOpen words all =>
    rw [LuaType.render,renderFields_eq]
    refine segment_renderTable (fun text member => ?_) isOpen
    obtain ⟨⟨name,type⟩,among,rfl⟩ := List.mem_map.mp member
    exact kept_nested.field name _ (words _ among) ((all _ among).render kept_nested)

theorem render_eq_join (type : LuaType) : type.render = Text.join "|" (type.arms.map render) := by
  cases type with
  | union arms => rw [render,renderArms_eq]; rfl
  | _ => simp [LuaType.arms]

/-- A union is taken apart into its arms. -/
theorem alternatives_render (made : type.Over Phrasal) (flat : type.Flat) :
    Phrase.alternatives type.render = type.arms.map render := by
  rw [render_eq_join]
  refine Phrase.alternatives_join fun text member => ?_
  obtain ⟨arm,among,rfl⟩ := List.mem_map.mp member
  exact (made.arms.2 arm among).segment (flat.arms.2 arm among).2

theorem firstOfEach_render (seen : List Text) (types : List LuaType) :
    (firstOfEach seen types).map render =
      ((types.map render).filter fun text => !seen.contains text).eraseDups := by
  induction types generalizing seen with
  | nil => rfl
  | cons type rest ih =>
    rw [firstOfEach,List.map_cons]
    split
    · rename_i known
      rw [ih,List.filter_cons_of_neg (by simpa using known)]
    · rename_i fresh
      have unseen (text : Text) : (!(type.render :: seen).contains text) =
          (!text == type.render && !seen.contains text) := by
        rw [List.contains_cons,Bool.not_or]
      rw [List.map_cons,ih,List.filter_cons_of_pos (by simpa using fresh),List.eraseDups_cons,
        List.filter_filter]
      simp only [unseen]

theorem kept_render (types : List LuaType) : (kept types).map render =
    (types.flatMap fun type => type.arms.map render).eraseDups := by
  rw [kept,firstOfEach_render,List.map_flatMap]
  exact congrArg List.eraseDups (List.filter_eq_self.mpr fun _ _ => rfl)

end LuaType

namespace Resolver

open Phrase (Phrasal)

variable {r : Resolver}

/-- The names of several words in the built-in table are phrases too. -/
theorem builtin_parse {raw spelling : Text} {tree : Phrase.Tree} (parsed : Phrase.parse raw = .ok tree)
    (found : TypeTable.builtin.spelling? (Text.collapse raw) = some spelling) :
    tree = .phrase (Text.collapse raw) := by
  have phrases : ∀ entry ∈ TypeTable.builtin.multiWord,
      Phrase.parse entry.1 = .ok (.phrase entry.1) := by
    intro entry member
    rcases List.mem_cons.mp member with rfl | later
    · rfl
    · obtain rfl := List.mem_singleton.mp later
      rfl
  have read := phrases _ (TypeTable.mem_of_lookup found)
  rw [Phrase.parse_collapse,parsed] at read
  exact Except.ok.inj read

/-- With the built-in table a text that is read has the type of its tree. -/
theorem typeOr_of_parse (builtin : r.config.table = .builtin) {raw : Text} {tree : Phrase.Tree}
    (parsed : Phrase.parse raw = .ok tree) (other : Phrase.Error → LuaType) :
    r.typeOr other raw = r.treeType tree := by
  unfold typeOr
  split
  · rename_i spelling found
    obtain rfl := builtin_parse parsed (builtin ▸ found)
    rw [treeType,phraseType,TypeTable.classify,found]
  · rw [parsed]

theorem type_of_parse (builtin : r.config.table = .builtin) {raw : Text} {tree : Phrase.Tree}
    (parsed : Phrase.parse raw = .ok tree) : r.type raw = r.treeType tree :=
  typeOr_of_parse builtin parsed _

theorem findings_of_parse (builtin : r.config.table = .builtin) {raw : Text} {tree : Phrase.Tree}
    (parsed : Phrase.parse raw = .ok tree) (subject : Text) :
    r.findings subject raw = r.treeFindings subject tree := by
  unfold findings findingsOr
  split
  · rename_i spelling found
    obtain rfl := builtin_parse parsed (builtin ▸ found)
    rw [treeFindings,phraseFindings,TypeTable.classify,found]
  · rw [parsed]

/-- A tree all of whose phrases are resolved in words is taken apart into its arms. -/
theorem alternatives_treeType {tree : Phrase.Tree} (worded : tree.Worded)
    (phrases : ∀ p ∈ tree.phrases, (r.phraseType p).Over Phrasal) :
    Phrase.alternatives (r.treeType tree).render = (r.treeType tree).arms.map LuaType.render :=
  LuaType.alternatives_render (treeType_over worded phrases) (r.treeType_flat worded)

theorem alternatives_union {alts : List Phrase.Tree} (worded : (Phrase.Tree.union alts).Worded)
    (phrases : ∀ p ∈ (Phrase.Tree.union alts).phrases, (r.phraseType p).Over Phrasal) :
    Phrase.alternatives (r.treeType (.union alts)).render =
      (alts.flatMap fun alt => Phrase.alternatives (r.treeType alt).render).eraseDups := by
  cases worded with
  | union several all =>
    have each (alt : Phrase.Tree) (member : alt ∈ alts) :
        (r.treeType alt).arms.map LuaType.render = Phrase.alternatives (r.treeType alt).render :=
      (alternatives_treeType (all alt member) fun p inside =>
        phrases p (Phrase.Tree.mem_phrases_union.mpr ⟨alt,member,inside⟩)).symm
    have nonempty : alts.map r.treeType ≠ [] := by
      rintro none
      simp [List.map_eq_nil_iff.mp none] at several
    have flat : ∀ type ∈ alts.map r.treeType, type.Flat := by
      intro type member
      obtain ⟨alt,among,rfl⟩ := List.mem_map.mp member
      exact r.treeType_flat (all alt among)
    calc Phrase.alternatives (r.treeType (.union alts)).render
      _ = (LuaType.unionOf (alts.map r.treeType)).arms.map LuaType.render := by
        rw [alternatives_treeType (.union several all) phrases,treeType,treeTypes_eq]
      _ = ((alts.map r.treeType).flatMap fun type => type.arms.map LuaType.render).eraseDups := by
        rw [LuaType.arms_unionOf nonempty flat,LuaType.kept_render]
      _ = (alts.flatMap fun alt => Phrase.alternatives (r.treeType alt).render).eraseDups := by
        rw [List.flatMap_map,List.flatMap_def,List.flatMap_def,List.map_congr_left each]

/-- A union that is read, written and taken apart again: the alternatives of its alternatives, in
order, each text where it is first. An alternative has the type of any text that is read as it. -/
theorem union_roundTrip {raw : Text} {alts : List Phrase.Tree}
    (builtin : r.config.table = .builtin) (space : Lua.isName r.config.space = true)
    (parsed : Phrase.parse raw = .ok (.union alts)) :
    Phrase.alternatives (r.normalize raw false).rendered =
        (alts.flatMap fun alt => Phrase.alternatives (r.treeType alt).render).eraseDups ∧
      ∀ alt ∈ alts, ∀ text, Phrase.parse text = .ok alt →
        (r.normalize text false).rendered = (r.treeType alt).render := by
  constructor
  · change Phrase.alternatives (r.type raw).render = _
    rw [type_of_parse builtin parsed]
    exact alternatives_union (Phrase.parse_worded parsed) (phraseType_phrasal builtin space _ parsed)
  · intro alt _ text read
    exact congrArg LuaType.render (type_of_parse builtin read)

def grouped : Text :=
  "Image or (string or \x7bx: number | nil, y: Image\x7d) | light userdata or (Image | (lightuserdata))"

def groups : List Phrase.Tree :=
  [.phrase "Image",
    .union [.phrase "string",
      .table [("x",.union [.phrase "number",.phrase "nil"]),("y",.phrase "Image")] false],
    .phrase "light userdata",
    .union [.phrase "Image",.phrase "lightuserdata"]]

theorem grouped_roundTrip :
    Phrase.parse grouped = .ok (.union groups) ∧
      Phrase.alternatives ((Resolver.mk .default ["Image"]).normalize grouped false).rendered =
        (["love.Image","string","\x7bx: number|nil, y: love.Image\x7d","lightuserdata"] : List Text) := by
  have parsed : Phrase.parse grouped = .ok (.union groups) := rfl
  have apart := union_roundTrip (r := ⟨.default,["Image"]⟩) rfl (by decide) parsed
  exact ⟨parsed,apart.1.trans (by decide +kernel)⟩

end Resolver
end LuaStubs
