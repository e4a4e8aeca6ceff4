import LuaStubs.Proofs.Fragments
import LuaStubs.Proofs.Structures
import Mathlib.Data.List.Forall2

/-! What is told about a written type: one finding for each phrase that means nothing to the table and
the model, from left to right, with the table fields that lead to the phrase. -/
namespace LuaStubs

namespace Phrase

/-- A phrase of a tree, with the names of the table fields around it, outermost first. -/
structure Leaf where
  path : List Text
  text : Text
  deriving DecidableEq

def Leaf.under (name : Text) (leaf : Leaf) : Leaf := ⟨name :: leaf.path,leaf.text⟩

namespace Tree

mutual
def leaves : Tree → List Leaf
  | .phrase text => [⟨[],text⟩]
  | .union alts => leavesOfAll alts
  | .table fields _ => leavesOfFields fields

def leavesOfAll : List Tree → List Leaf
  | [] => []
  | alt :: rest => leaves alt ++ leavesOfAll rest

def leavesOfFields : List (Text × Tree) → List Leaf
  | [] => []
  | field :: rest => leavesOfField field ++ leavesOfFields rest

def leavesOfField : Text × Tree → List Leaf
  | (name, tree) => (leaves tree).map (Leaf.under name)
end

theorem leaves_union (alts : List Tree) : (Tree.union alts).leaves = alts.flatMap leaves := by
  rw [leaves]
  induction alts with
  | nil => rfl
  | cons alt rest ih => rw [leavesOfAll,ih,List.flatMap_cons]

theorem leaves_table (fields : List (Text × Tree)) (isOpen : Bool) :
    (Tree.table fields isOpen).leaves =
      fields.flatMap fun field => field.2.leaves.map (Leaf.under field.1) := by
  rw [leaves]
  induction fields with
  | nil => rfl
  | cons field rest ih =>
    obtain ⟨name,tree⟩ := field
    rw [leavesOfFields,leavesOfField,ih,List.flatMap_cons]

end Tree
end Phrase

namespace Resolver

open Phrase (Leaf)

variable {r : Resolver}

/-- A phrase that is worth telling: a fragment, or a name that is not known and has no dot. -/
inductive Reported (r : Resolver) (p : Text) : Prop where
  | fragment {completions : List Text} : r.config.table.classify p = .fragment completions → Reported r p
  | unknown : r.config.table.classify p = .unknown → p ∉ r.known → '.' ∉ p → Reported r p

def isReported (r : Resolver) (p : Text) : Bool :=
  match r.config.table.classify p with
  | .primitive _ => false
  | .fragment _ => true
  | .unknown => !r.known.contains p && !p.contains '.'

theorem isReported_iff {p : Text} : r.isReported p = true ↔ Reported r p := by
  unfold isReported
  split
  · rename_i spelling classified
    refine iff_of_false (by simp) fun reported => ?_
    cases reported with
    | fragment same => simp [classified] at same
    | unknown same => simp [classified] at same
  · rename_i completions classified
    exact iff_of_true rfl (.fragment classified)
  · rename_i classified
    constructor
    · intro fresh
      simp only [Bool.and_eq_true,Bool.not_eq_true',List.contains_eq_mem,decide_eq_false_iff_not] at fresh
      exact .unknown classified fresh.1 fresh.2
    · intro reported
      cases reported with
      | fragment same => simp [classified] at same
      | unknown _ fresh undotted => simp [fresh,undotted]

instance (r : Resolver) (p : Text) : Decidable (Reported r p) := decidable_of_iff _ isReported_iff

structure Reports (r : Resolver) (subject : Text) (leaf : Leaf) (finding : Finding) : Prop where
  text : finding.text = leaf.text
  place : finding.subject = subject ++ leaf.path.flatMap fun name => '.' :: name
  completed : finding.kind = .completedFragment ↔
    r.config.table.completeFragments = true ∧ (r.config.table.completions leaf.text).length = 1
  unrecognized : finding.kind ≠ .completedFragment →
    finding.kind = .unrecognizedType ∧ (finding.severity = .error ↔ r.config.verbose = true)

theorem Reports.under {subject name : Text} {leaf : Leaf} {finding : Finding}
    (reports : Reports r (subject ++ "." ++ name) leaf finding) :
    Reports r subject (leaf.under name) finding := by
  refine ⟨reports.text,?_,reports.completed,reports.unrecognized⟩
  rw [reports.place,Leaf.under,List.flatMap_cons]
  simp

theorem completion?_eq_some_iff {completions : List Text} {full : Text} :
    r.completion? completions = some full ↔
      completions = [full] ∧ r.config.table.completeFragments = true := by
  unfold completion?
  split
  · simp
    exact And.comm
  · rename_i other
    simpa using fun same => absurd same (other full)

theorem reports_unrecognized {subject message p : Text}
    (other : ¬(r.config.table.completeFragments = true ∧ (r.config.table.completions p).length = 1)) :
    Reports r subject ⟨[],p⟩ (r.unrecognized subject message p) := by
  refine ⟨rfl,by simp [Resolver.unrecognized],by simpa [Resolver.unrecognized] using other,
    fun _ => ⟨rfl,?_⟩⟩
  unfold Resolver.unrecognized
  by_cases verbose : r.config.verbose = true <;> simp [verbose]

/-- A phrase gets one finding where it is worth telling, and none elsewhere. -/
theorem phraseFindings_reports (subject p : Text) :
    List.Forall₂ (Reports r subject) ([⟨[],p⟩].filter fun leaf : Leaf => Reported r leaf.text)
      (r.phraseFindings subject p) := by
  have told {finding : Finding} (reported : r.isReported p = true)
      (reports : Reports r subject ⟨[],p⟩ finding) : List.Forall₂ (Reports r subject)
        ([⟨[],p⟩].filter fun leaf : Leaf => Reported r leaf.text) [finding] := by
    rw [List.filter_cons_of_pos (by simpa using isReported_iff.mp reported)]
    exact .cons reports .nil
  have silent (ignored : r.isReported p = false) : List.Forall₂ (Reports r subject)
      ([⟨[],p⟩].filter fun leaf : Leaf => Reported r leaf.text) [] := by
    rw [List.filter_cons_of_neg (by simpa [← isReported_iff] using ignored)]
    exact .nil
  unfold phraseFindings
  split
  · rename_i spelling classified
    exact silent (by simp [isReported,classified])
  · rename_i completions classified
    have reported : r.isReported p = true := by simp [isReported,classified]
    obtain ⟨_,_,_,found,_⟩ := TypeTable.classify_fragment.mp classified
    split
    · rename_i full completes
      obtain ⟨one,allowed⟩ := completion?_eq_some_iff.mp completes
      refine told reported ⟨rfl,by simp,?_,by simp⟩
      exact iff_of_true rfl ⟨allowed,by simp [found,one]⟩
    · rename_i kept
      refine told reported (reports_unrecognized ?_)
      rintro ⟨allowed,one⟩
      obtain ⟨full,single⟩ := List.length_eq_one_iff.mp (found ▸ one)
      rw [completion?_eq_some_iff.mpr ⟨single,allowed⟩] at kept
      contradiction
  · rename_i classified
    unfold nameFindings
    split
    · rename_i known
      exact silent (by simpa [isReported,classified,imp_iff_not_or] using known)
    · rename_i fresh
      refine told (by simpa [isReported,classified] using fresh) (reports_unrecognized ?_)
      simp [(TypeTable.classify_unknown.mp classified).2.2.2]

theorem forall₂_flatMap {related : β → γ → Prop} {f : α → List β} {g : α → List γ}
    {xs : List α} (each : ∀ x ∈ xs, List.Forall₂ related (f x) (g x)) :
    List.Forall₂ related (xs.flatMap f) (xs.flatMap g) := by
  have same : List.Forall₂ (fun x y => x = y ∧ x ∈ xs) xs xs :=
    List.forall₂_same.mpr fun _ member => ⟨rfl,member⟩
  refine List.rel_flatMap same ?_
  rintro x _ ⟨rfl,member⟩
  exact each x member

/-- The subject grows on the way down, as the path of a phrase does on the way up. -/
theorem treeFindings_reports {tree : Phrase.Tree} (worded : tree.Worded) (subject : Text) :
    List.Forall₂ (Reports r subject) (tree.leaves.filter fun leaf => Reported r leaf.text)
      (r.treeFindings subject tree) := by
  induction worded generalizing subject with
  | phrase nonempty words => exact phraseFindings_reports subject _
  | union _ _ ih =>
    rw [Phrase.Tree.leaves_union,List.filter_flatMap,treeFindings,treesFindings_eq]
    exact forall₂_flatMap fun alt member => ih alt member subject
  | table _ _ ih =>
    rw [Phrase.Tree.leaves_table,List.filter_flatMap,treeFindings,fieldsFindings_eq]
    refine forall₂_flatMap fun field member => ?_
    rw [List.filter_map,List.forall₂_map_left_iff]
    exact (ih field member _).imp fun _ _ reports => reports.under

/-- A text that is read is told about phrase by phrase: each that is worth it once, in place, and
nothing else. -/
theorem findings_in_place {raw : Text} {tree : Phrase.Tree} (parsed : Phrase.parse raw = .ok tree)
    (unlisted : Text.collapse raw ∉ r.config.table.names) (subject : Text) :
    List.Forall₂ (Reports r subject) (tree.leaves.filter fun leaf => Reported r leaf.text)
      (r.findings subject raw) := by
  unfold findings findingsOr
  rw [TypeTable.spelling?_eq_none_iff.mpr unlisted,parsed]
  exact treeFindings_reports (Phrase.parse_worded parsed) subject

def scattered : Text := "\x7bat: \x7bx: Imag | light or raw, y: Image\x7d, z: Imag | a.b\x7d or Imag"

def scatter : Phrase.Tree :=
  .union [.table [
      ("at",.table [("x",.union [.phrase "Imag",.phrase "light",.phrase "raw"]),("y",.phrase "Image")] false),
      ("z",.union [.phrase "Imag",.phrase "a.b"])] false,
    .phrase "Imag"]

theorem scattered_in_place :
    let table := { TypeTable.builtin with
      multiWord := [("light userdata","lightuserdata"),("raw memory","userdata"),("raw data","string")] }
    let r : Resolver := ⟨⟨"love",true,table⟩,["Image"]⟩
    Phrase.parse scattered = .ok scatter ∧ Text.collapse scattered ∉ r.config.table.names ∧
      List.Forall₂ (Reports r "f")
        [⟨["at","x"],"Imag"⟩,⟨["at","x"],"light"⟩,⟨["at","x"],"raw"⟩,⟨["z"],"Imag"⟩,⟨[],"Imag"⟩]
        (r.findings "f" scattered) := by
  intro table r
  have parsed : Phrase.parse scattered = .ok scatter := rfl
  have unlisted : Text.collapse scattered ∉ r.config.table.names := by decide +kernel
  have leaves : (scatter.leaves.filter fun leaf => Reported r leaf.text) =
      [⟨["at","x"],"Imag"⟩,⟨["at","x"],"light"⟩,⟨["at","x"],"raw"⟩,⟨["z"],"Imag"⟩,⟨[],"Imag"⟩] := by
    decide +kernel
  refine ⟨parsed,unlisted,?_⟩
  rw [← leaves]
  exact findings_in_place parsed unlisted "f"

end Resolver
end LuaStubs
