import LuaStubs.Proofs.Fragments
import LuaStubs.Proofs.PathOrder
import LuaStubs.Proofs.Ranking
import LuaStubs.Validator.Files

/-! Reports on files. The remarks on a file are those of the four checks, collated by line and concern; the
report has an entry for each path, and neither their order nor other files have a part in it. -/
namespace LuaStubs

def Remark.NotAfter (a b : Remark) : Prop :=
  a.line < b.line ∨ a.line = b.line ∧ a.concern.rank ≤ b.concern.rank

def Remark.isAt (line : Nat) (concern : Concern) (remark : Remark) : Bool :=
  remark.line = line && remark.concern = concern

/-- What the checks say, in one list: all of it, once, in order, and what a check says on a line in its own
order. -/
structure Collates (told : Concern → List Remark) (remarks : List Remark) : Prop where
  perm : remarks.Perm (told .program ++ told .tag ++ told .fragment ++ told .union)
  ordered : remarks.Pairwise Remark.NotAfter
  own : ∀ line concern, remarks.filter (Remark.isAt line concern) =
    (told concern).filter fun remark => remark.line = line

theorem Concern.eq_of_rank {a b : Concern} (same : a.rank = b.rank) : a = b := by
  cases a <;> cases b <;> first | rfl | contradiction

namespace Remark

theorem le_iff {a b : Remark} : a.le b = true ↔ a.NotAfter b := by
  simp [le,NotAfter]

theorem isAt_iff {line : Nat} {concern : Concern} {remark : Remark} :
    remark.isAt line concern = true ↔ remark.line = line ∧ remark.concern = concern := by
  simp [isAt]

theorem le_total (a b : Remark) : a.le b = true ∨ b.le a = true := by
  rw [le_iff,le_iff,NotAfter,NotAfter]
  omega

theorem le_trans (a b c : Remark) (first : a.le b = true) (second : b.le c = true) : a.le c = true := by
  rw [le_iff,NotAfter] at *
  omega

theorem sort_ordered (remarks : List Remark) : (sort remarks).Pairwise NotAfter := by
  have source : remarks.Pairwise fun _ _ => True := List.pairwise_of_forall fun _ _ => trivial
  exact (sortBy_inOrder le_total le_trans source).imp fun order => le_iff.mp order.1

theorem sort_filter (line : Nat) (concern : Concern) (remarks : List Remark) :
    (sort remarks).filter (isAt line concern) = remarks.filter (isAt line concern) := by
  refine sortBy_filter (fun a b first second => ?_) remarks
  obtain ⟨rfl,rfl⟩ := isAt_iff.mp first
  obtain ⟨line,concern⟩ := isAt_iff.mp second
  exact le_iff.mpr (Or.inr ⟨line.symm,Nat.le_of_eq (congrArg Concern.rank concern.symm)⟩)

theorem NotAfter.refl (a : Remark) : a.NotAfter a := Or.inr ⟨rfl,Nat.le_refl _⟩

theorem NotAfter.same_place {a b : Remark} (first : a.NotAfter b) (second : b.NotAfter a) :
    b.isAt a.line a.concern = true := by
  rw [NotAfter] at first second
  have line : b.line = a.line := by omega
  have rank : b.concern.rank = a.concern.rank := by omega
  exact isAt_iff.mpr ⟨line,Concern.eq_of_rank rank⟩

theorem isAt_self (a : Remark) : a.isAt a.line a.concern = true := isAt_iff.mpr ⟨rfl,rfl⟩

theorem mem_of_filter {first second : List Remark} (same : ∀ line concern,
    first.filter (isAt line concern) = second.filter (isAt line concern)) {a : Remark}
    (member : a ∈ first) : a ∈ second := by
  have found : a ∈ first.filter (isAt a.line a.concern) := List.mem_filter.mpr ⟨member,a.isAt_self⟩
  rw [same] at found
  exact (List.mem_filter.mp found).1

/-- Lists in order are equal if they are so on each line for each concern. -/
theorem eq_of_filter {first second : List Remark} (ordered : first.Pairwise NotAfter)
    (sorted : second.Pairwise NotAfter) (same : ∀ line concern,
      first.filter (isAt line concern) = second.filter (isAt line concern)) : first = second := by
  induction first generalizing second with
  | nil =>
    cases second with
    | nil => rfl
    | cons b bs => cases mem_of_filter (fun line concern => (same line concern).symm) List.mem_cons_self
  | cons a as ih =>
    cases second with
    | nil => cases mem_of_filter same List.mem_cons_self
    | cons b bs =>
      obtain ⟨before,later⟩ := List.pairwise_cons.mp ordered
      obtain ⟨ahead,rest⟩ := List.pairwise_cons.mp sorted
      -- each head is in the other list, so neither goes before the other
      have least : a.NotAfter b := by
        have member := mem_of_filter (fun line concern => (same line concern).symm) List.mem_cons_self
        rcases List.mem_cons.mp member with rfl | inside
        · exact .refl b
        · exact before b inside
      have most : b.NotAfter a := by
        rcases List.mem_cons.mp (mem_of_filter same List.mem_cons_self) with rfl | inside
        · exact .refl a
        · exact ahead a inside
      have heads := same a.line a.concern
      rw [List.filter_cons_of_pos a.isAt_self,List.filter_cons_of_pos (least.same_place most)] at heads
      obtain ⟨rfl,_⟩ := List.cons.inj heads
      refine congrArg (a :: ·) (ih later rest fun line concern => ?_)
      have tails := same line concern
      rw [List.filter_cons,List.filter_cons] at tails
      split at tails
      · exact (List.cons.inj tails).2
      · exact tails

end Remark

namespace Collates

variable {told : Concern → List Remark}

/-- Where each check has a concern of its own, sorting collates. -/
theorem sort (owned : ∀ concern, ∀ remark ∈ told concern, remark.concern = concern) :
    Collates told (Remark.sort (told .program ++ told .tag ++ told .fragment ++ told .union)) := by
  refine ⟨sortBy_perm _ _,Remark.sort_ordered _,fun line concern => ?_⟩
  have part (other : Concern) : (told other).filter (Remark.isAt line concern) =
      if other = concern then (told concern).filter fun remark => remark.line = line else [] := by
    by_cases same : other = concern
    · subst same
      rw [if_pos rfl]
      refine List.filter_congr fun remark member => ?_
      simp [Remark.isAt,owned other remark member]
    · rw [if_neg same]
      refine List.filter_eq_nil_iff.mpr fun remark member here => same ?_
      rw [← owned other remark member,(Remark.isAt_iff.mp here).2]
  rw [Remark.sort_filter,List.filter_append,List.filter_append,List.filter_append,part,part,part,part]
  cases concern <;> simp

theorem unique {first second : List Remark} (collated : Collates told first)
    (other : Collates told second) : first = second :=
  Remark.eq_of_filter collated.ordered other.ordered fun line concern =>
    (collated.own line concern).trans (other.own line concern).symm

end Collates

namespace Validator

def told (v : Validator) (name source : Text) : Concern → List Remark
  | .program => ((Lua.complaint? name source).map (programRemark (Text.lines source))).toList
  | .tag => Tag.remarks (Text.lines source)
  | .fragment => Tag.fragmentRemarks v.fragments (Tag.typedLines v.names (Text.lines source))
  | .union => Tag.unionRemarks (Tag.typedLines v.names (Text.lines source))

theorem concern_told {v : Validator} {name source : Text} (concern : Concern) :
    ∀ remark ∈ v.told name source concern, remark.concern = concern := by
  intro remark member
  cases concern with
  | program =>
    obtain ⟨complaint,_,rfl⟩ := Option.map_eq_some_iff.mp (Option.mem_toList.mp member)
    rfl
  | tag => exact Tag.concern_remarks member
  | fragment =>
    obtain ⟨t,_,inside⟩ := List.mem_flatMap.mp member
    rw [← List.flatMap_singleton (Tag.fragmentRemarksOn v.fragments) t] at inside
    obtain ⟨_,_,_,rfl⟩ := Tag.mem_fragmentRemarks.mp inside
    rfl
  | union =>
    obtain ⟨t,_,rfl⟩ := List.mem_map.mp member
    rfl

/-- The remarks on a text are what the checks say, collated. -/
theorem remarks_eq_iff {v : Validator} {name source : Text} {remarks : List Remark} :
    v.remarks name source = remarks ↔ Collates (v.told name source) remarks := by
  have collated : Collates (v.told name source) (v.remarks name source) := .sort concern_told
  constructor
  · rintro rfl
    exact collated
  · exact collated.unique

/-- What a report says of a path: where no text can be read one remark that is on no line, else what the
checks say, collated. -/
structure Describes (v : Validator) (t : Files.Tree) (entry : FileReport) : Prop where
  unreadable : ∀ cause, t.read entry.path = .error cause →
    entry.remarks = [⟨0,.program,"cannot read file: " ++ cause.message,[]⟩]
  undecodable : ∀ bytes, t.read entry.path = .ok bytes → Text.ofUtf8? bytes = none →
    entry.remarks = [⟨0,.program,"cannot read file: " ++ Files.Trouble.notText.message,[]⟩]
  collated : ∀ bytes source, t.read entry.path = .ok bytes → Text.ofUtf8? bytes = some source →
    Collates (v.told ((Files.Path.fileName? entry.path).getD []) source) entry.remarks

variable {v : Validator} {t : Files.Tree} {paths : List Files.Path}

theorem fileRemarks_of_error {p : Files.Path} {cause : Files.Trouble} (failed : t.read p = .error cause) :
    v.fileRemarks t p = [unreadable cause] := by
  have text : t.readText p = .error cause := by
    rw [Files.Tree.readText,failed]
    rfl
  rw [fileRemarks,text]

theorem fileRemarks_of_bytes {p : Files.Path} {bytes : Text.Bytes} (read : t.read p = .ok bytes)
    (none : Text.ofUtf8? bytes = none) : v.fileRemarks t p = [unreadable .notText] := by
  have text : t.readText p = .error .notText := by
    simp only [Files.Tree.readText,read,bind,Except.bind,none]
  rw [fileRemarks,text]

theorem fileRemarks_of_text {p : Files.Path} {bytes : Text.Bytes} {source : Text}
    (read : t.read p = .ok bytes) (decoded : Text.ofUtf8? bytes = some source) :
    v.fileRemarks t p = v.remarks ((Files.Path.fileName? p).getD []) source := by
  have text : t.readText p = .ok source := by
    simp only [Files.Tree.readText,read,bind,Except.bind,decoded]
  rw [fileRemarks,text]

theorem fileRemarks_congr {other : Files.Tree} {p : Files.Path} (same : other.read p = t.read p) :
    v.fileRemarks other p = v.fileRemarks t p := by
  rw [fileRemarks,fileRemarks,Files.Tree.readText,Files.Tree.readText,same]

theorem describes_iff {entry : FileReport} :
    v.Describes t entry ↔ entry.remarks = v.fileRemarks t entry.path := by
  constructor
  · intro described
    cases read : t.read entry.path with
    | error cause => rw [fileRemarks_of_error read,described.unreadable cause read,unreadable]
    | ok bytes =>
      cases decoded : Text.ofUtf8? bytes with
      | none => rw [fileRemarks_of_bytes read decoded,described.undecodable bytes read decoded,unreadable]
      | some source =>
        rw [fileRemarks_of_text read decoded]
        exact (remarks_eq_iff.mpr (described.collated bytes source read decoded)).symm
  · intro same
    refine ⟨fun cause failed => ?_,fun bytes read none => ?_,fun bytes source read decoded => ?_⟩
    · rw [same,fileRemarks_of_error failed,Validator.unreadable]
    · rw [same,fileRemarks_of_bytes read none,Validator.unreadable]
    · rw [same,fileRemarks_of_text read decoded]
      exact remarks_eq_iff.mp rfl

theorem mem_checkFiles {entry : FileReport} : entry ∈ (v.checkFiles t paths).files ↔
    entry.path ∈ paths ∧ entry.remarks = v.fileRemarks t entry.path := by
  rw [checkFiles,(sortBy_perm _ _).mem_iff,List.mem_map]
  constructor
  · rintro ⟨p,member,rfl⟩
    exact ⟨member,rfl⟩
  · rintro ⟨member,same⟩
    exact ⟨entry.path,member,by rw [← same]⟩

theorem paths_perm (v : Validator) (t : Files.Tree) (paths : List Files.Path) :
    ((v.checkFiles t paths).files.map FileReport.path).Perm paths := by
  have entries := (sortBy_perm (fun a b => Files.Path.le a.path b.path)
    (paths.map fun p => FileReport.mk p (v.fileRemarks t p))).map FileReport.path
  have same : (paths.map fun p => FileReport.mk p (v.fileRemarks t p)).map FileReport.path = paths := by
    rw [List.map_map]
    exact List.map_id' paths
  rwa [same] at entries

/-- Entries go in strict order, since no two paths tie. -/
theorem files_ordered (different : paths.Pairwise fun a b =>
    Files.Path.Precedes a b ∨ Files.Path.Precedes b a) :
    (v.checkFiles t paths).files.Pairwise fun a b => Files.Path.Precedes a.path b.path := by
  have source : (paths.map fun p => FileReport.mk p (v.fileRemarks t p)).Pairwise fun a b =>
      Files.Path.Precedes a.path b.path ∨ Files.Path.Precedes b.path a.path :=
    List.pairwise_map.mpr different
  have sorted := sortBy_inOrder (fun a b => Files.Path.le_total a.path b.path)
    (fun a b c => Files.Path.le_trans a.path b.path c.path) source
  -- only a tie could stand in both orders
  refine sorted.imp fun {a b} order => ⟨order.1,Bool.eq_false_iff.mpr fun back => ?_⟩
  rcases order.2 back with before | behind
  · exact Bool.false_ne_true (before.2.symm.trans back)
  · exact Bool.false_ne_true (behind.2.symm.trans order.1)

theorem checkFiles_of_perm {shuffled : List Files.Path} (same : shuffled.Perm paths)
    (different : paths.Pairwise fun a b => Files.Path.Precedes a b ∨ Files.Path.Precedes b a) :
    v.checkFiles t shuffled = v.checkFiles t paths := by
  have again : shuffled.Pairwise fun a b => Files.Path.Precedes a b ∨ Files.Path.Precedes b a :=
    same.symm.pairwise different Or.symm
  have entries : (v.checkFiles t shuffled).files.Perm (v.checkFiles t paths).files :=
    (sortBy_perm _ _).trans ((same.map _).trans (sortBy_perm _ _).symm)
  refine congrArg Report.mk (List.Perm.eq_of_pairwise ?_ (files_ordered again) (files_ordered different)
    entries)
  intro a b _ _ first back
  exact absurd back first.asymm

/-- A report has one entry for each path, in the order of the paths, whatever order they are given in. An
entry says what is found at its path, and what is found elsewhere does not change it. -/
theorem report_in_any_order (v : Validator) (t : Files.Tree) {paths : List Files.Path}
    (different : paths.Pairwise fun a b => Files.Path.Precedes a b ∨ Files.Path.Precedes b a) :
    (∀ shuffled, shuffled.Perm paths → v.checkFiles t shuffled = v.checkFiles t paths) ∧
    ((v.checkFiles t paths).files.map FileReport.path).Perm paths ∧
    ((v.checkFiles t paths).files.map FileReport.path).Pairwise Files.Path.Precedes ∧
    (∀ entry, entry ∈ (v.checkFiles t paths).files ↔ entry.path ∈ paths ∧ v.Describes t entry) ∧
    ∀ entry ∈ (v.checkFiles t paths).files, ∀ other others, entry.path ∈ others →
      Files.Tree.read other entry.path = t.read entry.path → entry ∈ (v.checkFiles other others).files := by
  refine ⟨fun shuffled same => checkFiles_of_perm same different,paths_perm v t paths,
    List.pairwise_map.mpr (files_ordered different),fun entry => ?_,?_⟩
  · rw [mem_checkFiles,describes_iff]
  · intro entry member other others listed same
    obtain ⟨_,remarks⟩ := mem_checkFiles.mp member
    exact mem_checkFiles.mpr ⟨listed,remarks.trans (fileRemarks_congr same).symm⟩

def shelf : Files.Tree :=
  ⟨[(["a"],.directory),(["a","z.lua"],.file [0xff]),
    (["a-b.lua"],.file (Text.utf8 "---@return light or x\nf("))]⟩

/-- Paths go by components, so what is in `a` comes first. -/
def shelved : List Files.Path := ["a.lua","a-b.lua","a/z.lua"]

theorem shelf_in_any_order :
    shelved.Pairwise (fun a b => Files.Path.Precedes a b ∨ Files.Path.Precedes b a) ∧
    (((ofTable .builtin).checkFiles shelf shelved).files.map fun entry =>
      (entry.path,entry.remarks.map fun r => (r.line,r.concern))) =
      ([("a/z.lua",[(0,.program)]),("a-b.lua",[(1,.tag),(1,.fragment),(1,.union),(2,.program)]),
        ("a.lua",[(0,.program)])] : List (Files.Path × List (Nat × Concern))) ∧
    (ofTable .builtin).checkFiles shelf shelved.reverse = (ofTable .builtin).checkFiles shelf shelved := by
  have different : shelved.Pairwise fun a b => Files.Path.Precedes a b ∨ Files.Path.Precedes b a := by
    decide +kernel
  refine ⟨different,by decide +kernel,?_⟩
  exact (report_in_any_order (ofTable .builtin) shelf different).1 _ shelved.reverse_perm

end Validator
end LuaStubs
