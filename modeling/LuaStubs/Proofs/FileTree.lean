import LuaStubs.Generation
import LuaStubs.Proofs.Words

/-! The file tree under its operations: what is at each place afterwards, and which paths still lead
where they led. -/
namespace LuaStubs

theorem bind_eq_ok {ε α β : Type} {x : Except ε α} {f : α → Except ε β} {b : β} :
    (x >>= f) = .ok b ↔ ∃ a, x = .ok a ∧ f a = .ok b := by
  cases x <;> simp [bind,Except.bind]

namespace Files

namespace Tree

variable {t u : Tree} {place other stop : Place}

theorem lookup_filter_ne (entries : List (Place × Node)) (place other : Place) :
    (entries.filter (·.1 != place)).lookup other =
      if other = place then none else entries.lookup other := by
  induction entries with
  | nil => simp
  | cons entry rest ih =>
    obtain ⟨at_,node⟩ := entry
    by_cases there : at_ = place
    · subst there
      rw [List.filter_cons_of_neg (by simp),ih]
      by_cases same : other = at_
      · simp [same]
      · simp [same,List.lookup_cons,beq_false_of_ne same]
    · rw [List.filter_cons_of_pos (by simp [there]),List.lookup_cons,ih,List.lookup_cons]
      by_cases same : other = place
      · subst same
        simp [beq_false_of_ne (Ne.symm there)]
      · simp [same]

theorem node?_put (t : Tree) (node : Node) (nonempty : place ≠ []) (other : Place) :
    (t.put place node).node? other = if other = place then some node else t.node? other := by
  by_cases root : other = []
  · simp [node?,root,Ne.symm nonempty]
  · simp only [node?,put,List.isEmpty_iff,root,if_false,List.lookup_append,lookup_filter_ne]
    by_cases same : other = place
    · simp [same]
    · simp [same,List.lookup_cons,beq_false_of_ne same]

/-- Directories stay directories, and what is there stays there. -/
structure Extends (t u : Tree) : Prop where
  directory : ∀ place, t.isDirectory place = true → u.isDirectory place = true
  present : ∀ place, (t.node? place).isSome = true → (u.node? place).isSome = true

theorem Extends.walk (more : Extends t u) {steps : List Text}
    (leads : t.walk place steps = .ok stop) : u.walk place steps = .ok stop := by
  induction steps generalizing place with
  | nil => exact leads
  | cons step rest ih =>
    unfold Tree.walk at leads ⊢
    cases inside : t.isDirectory place with
    | false => simp [inside] at leads
    | true =>
      simp only [inside,more.directory _ inside,Bool.not_true,Bool.false_eq_true,if_false] at leads ⊢
      by_cases here : step = "."
      · simp only [here,if_true] at leads ⊢
        exact ih leads
      by_cases up : step = ".."
      · simp only [up,if_true] at leads ⊢
        cases higher : above? place with
        | none => simp [higher] at leads
        | some place =>
          simp only [higher] at leads ⊢
          exact ih leads
      simp only [here,up,if_false] at leads ⊢
      by_cases long : 255 < Text.byteSize step
      · simp [long] at leads
      simp only [long,if_false] at leads ⊢
      cases found : t.node? (place ++ [step]) with
      | none => simp [found] at leads
      | some node =>
        have stays := more.present (place ++ [step]) (by simp [found])
        simp [found] at leads
        rw [if_neg (by simpa using Option.isSome_iff_ne_none.mp stays)]
        exact ih leads

theorem walk_append (t : Tree) (place : Place) (a b : List Text) :
    t.walk place (a ++ b) = (t.walk place a).bind (t.walk · b) := by
  induction a generalizing place with
  | nil => rfl
  | cons step rest ih =>
    simp only [List.cons_append,Tree.walk,ih]
    split
    · rfl
    split
    · rfl
    split
    · cases above? place <;> rfl
    split
    · rfl
    split <;> rfl

theorem walk_name {name : Text} (inside : t.isDirectory place = true)
    (ordinary : name ≠ "." ∧ name ≠ "..") :
    t.walk place [name] = .ok stop ↔
      Text.byteSize name ≤ 255 ∧ (t.node? (place ++ [name])).isSome = true ∧ stop = place ++ [name] := by
  simp only [walk,inside,ordinary.1,ordinary.2,Bool.not_true,Bool.false_eq_true,if_false]
  by_cases long : 255 < Text.byteSize name
  · simp [long,Nat.not_le.mpr long]
  cases found : t.node? (place ++ [name]) with
  | none => simp [long]
  | some node => simp [long,Nat.not_lt.mp long,eq_comm]

def Usable (p : Path) : Prop := '\x00' ∉ p ∧ p ≠ []

theorem unusable?_eq_none {p : Path} : unusable? p = none ↔ Usable p := by
  unfold unusable? Usable
  by_cases zero : '\x00' ∈ p
  · simp [zero]
  · by_cases empty : p = []
    · simp [empty]
    · simp [zero,empty]

theorem steps_ne_nil {p : Path} (nonempty : p ≠ []) : steps p ≠ [] := by
  obtain ⟨c,rest,rfl⟩ := List.exists_cons_of_ne_nil nonempty
  unfold steps
  by_cases slash : c = '/'
  · have absolute : Path.isAbsolute (c :: rest) = true := by
      subst slash; exact Text.startsWith_iff.mpr ⟨rest,rfl⟩
    simp [absolute]
  · obtain ⟨piece,others,pieces⟩ := List.exists_cons_of_ne_nil (Text.splitAt_ne_nil (· == '/') rest)
    have first : Path.pieces (c :: rest) = (c :: piece) :: others :=
      Text.splitAt_cons_of_uncut (by simpa using slash) pieces
    simp [first]

theorem target_eq_ok {p : Path} {name : Text} :
    t.target p = .ok (place,name) ↔ Usable p ∧ ∃ before, steps p = before ++ [name] ∧
      t.walk [] before = .ok place ∧ t.isDirectory place = true := by
  unfold target
  constructor
  · intro found
    cases usable : unusable? p with
    | some trouble => simp [usable] at found
    | none =>
      simp only [usable,bind_eq_ok] at found
      obtain ⟨reached,walked,last⟩ := found
      by_cases inside : t.isDirectory reached = true
      · have usable := unusable?_eq_none.mp usable
        have some := steps_ne_nil usable.2
        rw [if_pos inside] at last
        cases last
        refine ⟨usable,_,?_,walked,inside⟩
        rw [List.getLast?_eq_some_getLast some,Option.getD_some,List.dropLast_concat_getLast]
      · simp [inside] at last
  · rintro ⟨usable,before,split,walked,inside⟩
    simp only [unusable?_eq_none.mpr usable,bind_eq_ok]
    exact ⟨place,by simpa [split] using walked,by simp [split,inside]⟩

theorem locate_eq_ok {p : Path} :
    t.locate p = .ok stop ↔ Usable p ∧ t.walk [] (steps p) = .ok stop ∧
      (Text.endsWith p "/" = true → t.isDirectory stop = true) := by
  unfold locate
  rw [← unusable?_eq_none]
  cases unusable? p with
  | some trouble => simp
  | none =>
    simp only [bind_eq_ok,true_and]
    constructor
    · rintro ⟨reached,walked,last⟩
      by_cases fails : (Text.endsWith p "/" && !t.isDirectory reached) = true
      · rw [if_pos fails] at last
        contradiction
      · rw [if_neg fails] at last
        cases last
        exact ⟨walked,by simpa using fails⟩
    · rintro ⟨walked,directory⟩
      exact ⟨stop,walked,if_neg (by simpa using directory)⟩

theorem Extends.target (more : Extends t u) {p : Path} {found : Place × Text}
    (leads : t.target p = .ok found) : u.target p = .ok found := by
  obtain ⟨usable,before,split,walked,inside⟩ := target_eq_ok.mp leads
  exact target_eq_ok.mpr ⟨usable,before,split,more.walk walked,more.directory _ inside⟩

theorem Extends.temporaryTrouble? (more : Extends t u) {dir : Path}
    (free : t.temporaryTrouble? dir = none) : u.temporaryTrouble? dir = none := by
  unfold Tree.temporaryTrouble? at free ⊢
  cases found : t.target (Path.join dir temporaryName) with
  | error trouble => simp [found] at free
  | ok found' => rw [more.target found]

/-- A path leads to a directory. The empty path leads to the working directory. -/
structure Leads (t : Tree) (p : Path) (place : Place) : Prop where
  walked : t.walk [] (steps p) = .ok place
  inside : t.isDirectory place = true
  nonzero : '\x00' ∉ p

theorem hasDirectory_iff {p : Path} :
    t.hasDirectory p = true ↔ p ≠ [] ∧ ∃ place, t.Leads p place := by
  unfold hasDirectory
  constructor
  · intro found
    cases located : t.locate p with
    | error trouble => simp [located] at found
    | ok place =>
      obtain ⟨⟨nonzero,nonempty⟩,walked,-⟩ := locate_eq_ok.mp located
      exact ⟨nonempty,place,walked,by simpa [located] using found,nonzero⟩
  · rintro ⟨nonempty,place,leads⟩
    have located := locate_eq_ok.mpr ⟨⟨leads.nonzero,nonempty⟩,leads.walked,fun _ => leads.inside⟩
    rw [located]
    exact leads.inside

theorem Leads.extend {p : Path} (leads : t.Leads p place) (more : Extends t u) : u.Leads p place :=
  ⟨more.walk leads.walked,more.directory _ leads.inside,leads.nonzero⟩

theorem isDirectory_iff : t.isDirectory place = true ↔ t.node? place = some .directory := by
  simp [isDirectory]

/-- Putting something where nothing was leaves the rest in place. -/
theorem extends_put (node : Node) (nonempty : place ≠ []) (free : t.node? place = none) :
    Extends t (t.put place node) := by
  constructor
  · intro other inside
    rw [isDirectory_iff] at inside ⊢
    have apart : other ≠ place := by rintro rfl; simp [free] at inside
    rw [node?_put _ _ nonempty,if_neg apart,inside]
  · intro other present
    have apart : other ≠ place := by rintro rfl; simp [free] at present
    rw [node?_put _ _ nonempty,if_neg apart]
    exact present

theorem ordinary_of_special {name : Text} (special : isSpecial name = false) :
    name ≠ "." ∧ name ≠ ".." := by
  simp only [isSpecial,Bool.or_eq_false_iff,decide_eq_false_iff_not] at special
  exact special.1

theorem makeDirectory_eq_ok {p : Path} :
    t.makeDirectory p = .ok u ↔ ∃ place name, t.target p = .ok (place,name) ∧
      isSpecial name = false ∧ Text.byteSize name ≤ 255 ∧ t.node? (place ++ [name]) = none ∧
      t.put (place ++ [name]) .directory = u := by
  unfold makeDirectory
  simp only [bind_eq_ok,Prod.exists]
  refine exists_congr fun place => exists_congr fun name => and_congr_right fun _ => ?_
  by_cases special : isSpecial name = true
  · simp [special]
  by_cases long : 255 < Text.byteSize name
  · simp [special,long,Nat.not_le.mpr long]
  cases found : t.node? (place ++ [name]) with
  | none => simp [special,long,Nat.not_lt.mp long]
  | some node => simp [special,long]

theorem leads_of_makeDirectory {p : Path} (made : t.makeDirectory p = .ok u) :
    ∃ place, u.Leads p place := by
  obtain ⟨place,name,target,special,short,free,rfl⟩ := makeDirectory_eq_ok.mp made
  obtain ⟨⟨nonzero,-⟩,before,split,walked,inside⟩ := target_eq_ok.mp target
  have more := extends_put .directory (by simp) free
  have there : (t.put (place ++ [name]) .directory).node? (place ++ [name]) = some .directory := by
    rw [node?_put _ _ (by simp),if_pos rfl]
  refine ⟨place ++ [name],?_,isDirectory_iff.mpr there,nonzero⟩
  rw [split,walk_append,more.walk walked]
  exact (walk_name (more.directory _ inside) (ordinary_of_special special)).mpr ⟨short,by simp [there],rfl⟩

theorem leads_of_ensureDirectory {p : Path} (ensured : t.ensureDirectory p = .ok u) :
    ∃ place, u.Leads p place := by
  unfold ensureDirectory at ensured
  cases made : t.makeDirectory p with
  | ok v =>
    simp only [made,Except.ok.injEq] at ensured
    exact leads_of_makeDirectory (ensured ▸ made)
  | error trouble =>
    by_cases found : t.hasDirectory p = true
    · simp only [made,found,if_true,Except.ok.injEq] at ensured
      exact ensured ▸ (hasDirectory_iff.mp found).2
    · simp [made,found] at ensured

/-- A path that is made is made at once, or after the path above it. -/
theorem makeAllWith_eq_none {fuel : Nat} {p : Path} (nonempty : p ≠ [])
    (made : makeAllWith (fuel + 1) t p = (u,none)) :
    t.ensureDirectory p = .ok u ∨
      ∃ parent v, makeAllWith fuel t parent = (v,none) ∧ v.ensureDirectory p = .ok u := by
  simp only [makeAllWith,List.isEmpty_iff,nonempty,if_false] at made
  split at made
  · next ensured => cases made; exact Or.inl ensured
  · split at made
    · cases made
    · split at made
      · cases made
      · next above =>
        split at made
        · next ensured => cases made; exact Or.inr ⟨_,_,above,ensured⟩
        · cases made
  · cases made

theorem leads_of_makeAll {p : Path} (made : t.makeAll p = (u,none)) : ∃ place, u.Leads p place := by
  by_cases empty : p = []
  · subst empty
    cases made
    exact ⟨[],rfl,rfl,by simp⟩
  rcases makeAllWith_eq_none empty made with ensured | ⟨_,_,-,ensured⟩
  · exact leads_of_ensureDirectory ensured
  · exact leads_of_ensureDirectory ensured

/-- A directory that is there need not be made. -/
theorem Leads.makeAll {p : Path} (leads : t.Leads p place) : t.makeAll p = (t,none) := by
  unfold Tree.makeAll makeAllWith
  by_cases empty : p = []
  · simp [empty]
  have found : t.hasDirectory p = true := hasDirectory_iff.mpr ⟨empty,place,leads⟩
  have ensured : t.ensureDirectory p = .ok t := by
    unfold ensureDirectory
    cases made : t.makeDirectory p with
    | error trouble => simp [found]
    | ok u =>
      -- a new directory would stand where the path led already
      obtain ⟨above,name,target,special,short,free,-⟩ := makeDirectory_eq_ok.mp made
      obtain ⟨-,before,split,walked,inside⟩ := target_eq_ok.mp target
      have arrives := leads.walked
      rw [split,walk_append,walked] at arrives
      have present := ((walk_name inside (ordinary_of_special special)).mp arrives).2.1
      simp [free] at present
  simp [empty,ensured]

/-- The same, but for directories where nothing was. -/
def Deepens (t u : Tree) : Prop :=
  ∀ place, u.node? place = t.node? place ∨ t.node? place = none ∧ u.node? place = some .directory

theorem Deepens.trans {v : Tree} (first : Deepens t u) (second : Deepens u v) : Deepens t v := by
  intro place
  rcases first place with same | ⟨free,made⟩
  · rw [← same]
    exact second place
  · rcases second place with same | ⟨gone,-⟩
    · exact Or.inr ⟨free,same.trans made⟩
    · simp [made] at gone

theorem deepens_of_ensureDirectory {p : Path} (ensured : t.ensureDirectory p = .ok u) :
    Deepens t u := by
  unfold ensureDirectory at ensured
  cases made : t.makeDirectory p with
  | ok v =>
    simp only [made,Except.ok.injEq] at ensured
    obtain ⟨place,name,-,-,-,free,rfl⟩ := makeDirectory_eq_ok.mp made
    subst ensured
    intro other
    rw [node?_put _ _ (by simp)]
    by_cases same : other = place ++ [name]
    · exact Or.inr ⟨same ▸ free,if_pos same⟩
    · exact Or.inl (if_neg same)
  | error trouble =>
    by_cases found : t.hasDirectory p = true
    · simp only [made,found,if_true,Except.ok.injEq] at ensured
      exact fun _ => Or.inl (ensured ▸ rfl)
    · simp [made,found] at ensured

theorem deepens_of_makeAllWith {fuel : Nat} {p : Path} (made : makeAllWith fuel t p = (u,none)) :
    Deepens t u := by
  induction fuel generalizing p u with
  | zero => cases made; exact fun _ => Or.inl rfl
  | succ fuel ih =>
    by_cases empty : p = []
    · subst empty
      cases made
      exact fun _ => Or.inl rfl
    rcases makeAllWith_eq_none empty made with ensured | ⟨_,_,above,ensured⟩
    · exact deepens_of_ensureDirectory ensured
    · exact (ih above).trans (deepens_of_ensureDirectory ensured)

end Tree

theorem Path.isAbsolute_append {dir : Path} (nonempty : dir ≠ []) (rest : Text) :
    isAbsolute (dir ++ rest) = isAbsolute dir := by
  obtain ⟨c,others,rfl⟩ := List.exists_cons_of_ne_nil nonempty
  simp only [isAbsolute,Text.startsWith,List.cons_append]
  by_cases slash : c = '/'
  · simp [slash,Text.after]
  · simp [Text.after,Ne.symm slash]

structure IsFileName (file : Text) : Prop where
  nonempty : file ≠ []
  slashless : '/' ∉ file
  nonzero : '\x00' ∉ file
  ordinary : file ≠ "." ∧ file ≠ ".."

namespace IsFileName

open Files.Tree

variable {t u : Tree} {out : Path} {place stop : Place} {file : Text}

theorem pieces (named : IsFileName file) : Path.pieces file = [file] := by
  refine Text.splitAt_of_uncut fun c among => beq_false_of_ne ?_
  rintro rfl
  exact named.slashless among

theorem relative (named : IsFileName file) : Path.isAbsolute file = false := by
  refine Bool.eq_false_iff.mpr fun absolute => ?_
  obtain ⟨rest,rfl⟩ := Text.startsWith_iff.mp absolute
  exact named.slashless (by simp)

theorem unslashed (named : IsFileName file) (before : Text) :
    Text.endsWith (before ++ file) "/" = false := by
  refine Bool.eq_false_iff.mpr fun slash => ?_
  obtain ⟨rest,reversed⟩ := Text.startsWith_iff.mp slash
  obtain ⟨c,others,last⟩ := List.exists_cons_of_ne_nil (mt List.reverse_eq_nil_iff.mp named.nonempty)
  rw [List.reverse_append,last] at reversed
  have head : c = '/' := (List.cons.inj reversed).1
  have among : c ∈ file.reverse := by simp [last]
  exact named.slashless (head ▸ List.mem_reverse.mp among)

/-- The name of a file follows its directory and one slash, or stands alone. -/
theorem join (named : IsFileName file) (out : Path) :
    out = [] ∧ Path.join out file = file ∨ ∃ dir, (out = dir ++ "/" ∨ out = dir ∧ dir ≠ []) ∧
      Path.join out file = dir ++ '/' :: file := by
  unfold Path.join
  by_cases empty : out = []
  · exact Or.inl ⟨empty,by simp [empty]⟩
  refine Or.inr ?_
  rw [if_neg (by simp [named.relative,empty])]
  cases slash : Text.endsWith out "/" with
  | true =>
    obtain ⟨rest,reversed⟩ := Text.startsWith_iff.mp slash
    have whole : out = rest.reverse ++ "/" := by simpa using congrArg List.reverse reversed
    exact ⟨rest.reverse,Or.inl whole,by simp [whole]⟩
  | false => exact ⟨out,Or.inr ⟨rfl,empty⟩,by simp⟩

theorem steps_join (named : IsFileName file) (out : Path) :
    steps (Path.join out file) = steps out ++ [file] := by
  have nonempty : (!file.isEmpty) = true := by simpa using named.nonempty
  have cut (dir rest : Text) : Path.pieces (dir ++ '/' :: rest) = Path.pieces dir ++ Path.pieces rest :=
    Text.splitAt_append_cons (by rfl) dir rest
  rcases named.join out with ⟨rfl,alone⟩ | ⟨dir,rfl | ⟨rfl,some⟩,below⟩
  · have none : steps [] = [] := rfl
    rw [alone,none]
    simp [steps,named.relative,named.pieces,nonempty]
  · have head : Path.isAbsolute (dir ++ '/' :: file) = Path.isAbsolute (dir ++ "/") := by
      rw [List.append_cons]
      exact Path.isAbsolute_append (by simp) file
    have void : Path.pieces (dir ++ "/") = Path.pieces dir ++ [[]] := cut dir []
    rw [below]
    simp only [steps,head,cut,void,named.pieces]
    simp [nonempty]
  · rw [below]
    simp only [steps,Path.isAbsolute_append some,cut,named.pieces]
    simp [nonempty]

theorem usable_join (named : IsFileName file) {out : Path} (nonzero : '\x00' ∉ out) :
    Usable (Path.join out file) := by
  rcases named.join out with ⟨rfl,alone⟩ | ⟨dir,whole,below⟩
  · rw [alone]
    exact ⟨named.nonzero,named.nonempty⟩
  · rw [below]
    have dirNonzero : '\x00' ∉ dir := by rcases whole with rfl | ⟨rfl,-⟩ <;> simp_all
    exact ⟨by simp [dirNonzero,named.nonzero],by simp⟩

theorem unslashed_join (named : IsFileName file) (out : Path) :
    Text.endsWith (Path.join out file) "/" = false := by
  rcases named.join out with ⟨-,alone⟩ | ⟨dir,-,below⟩
  · rw [alone]
    exact named.unslashed []
  · rw [below,List.append_cons]
    exact named.unslashed _

variable (named : IsFileName file) (leads : t.Leads out place)
include named leads

theorem target_join : t.target (Path.join out file) = .ok (place,file) :=
  target_eq_ok.mpr ⟨named.usable_join leads.nonzero,steps out,named.steps_join out,leads.walked,
    leads.inside⟩

theorem locate_join : t.locate (Path.join out file) = .ok stop ↔
    Text.byteSize file ≤ 255 ∧ (t.node? (place ++ [file])).isSome = true ∧ stop = place ++ [file] := by
  rw [locate_eq_ok,named.steps_join,walk_append,leads.walked]
  simp only [Except.bind,walk_name leads.inside named.ordinary,named.unslashed_join,
    named.usable_join leads.nonzero,true_and]
  simp

theorem read_join {content : Text.Bytes} : t.read (Path.join out file) = .ok content ↔
    Text.byteSize file ≤ 255 ∧ t.node? (place ++ [file]) = some (.file content) := by
  simp only [Tree.read,bind_eq_ok,named.locate_join leads]
  constructor
  · rintro ⟨stop,⟨short,present,rfl⟩,found⟩
    refine ⟨short,?_⟩
    split at found
    · next there => cases found; exact there
    · cases found
    · cases found
  · rintro ⟨short,there⟩
    exact ⟨place ++ [file],⟨short,by simp [there],rfl⟩,by simp [there]⟩

theorem holds_join {content : Text.Bytes} : t.holds (Path.join out file) content = true ↔
    Text.byteSize file ≤ 255 ∧ t.node? (place ++ [file]) = some (.file content) := by
  rw [← named.read_join leads,Tree.holds]
  cases t.read (Path.join out file) <;> simp

theorem replace_join {content : Text.Bytes} : t.replace (Path.join out file) content = .ok u ↔
    Text.byteSize file ≤ 255 ∧ t.isDirectory (place ++ [file]) = false ∧
      t.put (place ++ [file]) (.file content) = u := by
  have special : isSpecial file = false := by
    have notRoot : file ≠ rootName := by rintro rfl; exact named.slashless (by decide)
    simpa [isSpecial,notRoot] using named.ordinary
  unfold Tree.replace
  rw [named.target_join leads]
  simp only [bind,Except.bind,special,named.unslashed_join]
  by_cases long : 255 < Text.byteSize file
  · simp [long,Nat.not_le.mpr long]
  · cases taken : t.isDirectory (place ++ [file]) <;> simp [long,Nat.not_lt.mp long]

end IsFileName

/-- A name of the language has no mark that means something in a path. -/
theorem isFileName_of_name {name : Text} (named : Lua.isName name = true) :
    IsFileName (name ++ ".lua") := by
  have absent {mark : Char} (tail : Lua.isNameTail mark = false) (ending : mark ∉ (".lua" : Text)) :
      mark ∉ name ++ ".lua" := by
    refine List.not_mem_append (fun among => ?_) ending
    simp [Phrase.nameTails_of_name named mark among] at tail
  refine ⟨by simp,absent (by decide) (by decide),absent (by decide) (by decide),?_,?_⟩
  · intro same
    have := congrArg List.length same
    simp at this
  · intro same
    have := congrArg List.length same
    simp at this

end Files

end LuaStubs
