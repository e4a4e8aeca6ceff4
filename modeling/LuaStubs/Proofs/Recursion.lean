import LuaStubs.Proofs.Silence
import LuaStubs.Proofs.TypePlaces

/-! The recursion through alternatives. No separator is left in an alternative, so it is its own only
alternative; resolving a text asks for the types of shorter texts at most, and these ask for nothing. -/
namespace LuaStubs

namespace Phrase

def BarsInside (before : Int) (t : Text) : Prop := ∀ u v, t = u ++ '|' :: v → before + depth u ≠ 0

theorem barsInside_nil (before : Int) : BarsInside before [] := by
  intro u v same
  simp at same

theorem BarsInside.cons {before : Int} {c : Char} {t : Text}
    (inside : BarsInside (before + nesting c) t) (here : c = '|' → before ≠ 0) :
    BarsInside before (c :: t) := by
  intro u v same
  cases u with
  | nil => simpa using here (List.cons.inj same).1
  | cons d u =>
    obtain ⟨rfl,rest⟩ := List.cons.inj same
    simpa [Int.add_assoc] using inside u v rest

/-- The first piece starts at the depth of the text, the others where all brackets are closed. -/
theorem bars_cut (before : Int) (t : Text) : ∃ first rest, cut before t = first :: rest ∧
    BarsInside before first ∧ ∀ piece ∈ rest, BarsInside 0 piece := by
  fun_induction cut before t with
  | case1 before => exact ⟨[],[],rfl,barsInside_nil before,by simp⟩
  | case2 t ih =>
    obtain ⟨first,rest,pieces,here,later⟩ := ih
    refine ⟨[],_,rfl,barsInside_nil 0,?_⟩
    rw [pieces]
    exact List.forall_mem_cons.mpr ⟨here,later⟩
  | case3 before t opened ih =>
    obtain ⟨first,rest,pieces,here,later⟩ := ih
    have step {c : Char} {t : Text} (level : nesting c = 0) (inside : BarsInside before t) :
        BarsInside before (c :: t) := by
      rw [← Int.add_zero before,← level] at inside
      exact inside.cons fun _ => opened
    rw [pieces]
    exact ⟨_,rest,rfl,step rfl (step rfl (step rfl (step rfl here))),later⟩
  | case4 before c t other after separates ih =>
    obtain ⟨first,rest,pieces,here,later⟩ := ih
    obtain ⟨_,closed⟩ : c = '|' ∧ after = 0 := by simpa using separates
    refine ⟨[],_,rfl,barsInside_nil before,?_⟩
    rw [pieces]
    exact List.forall_mem_cons.mpr ⟨closed ▸ here,later⟩
  | case5 before c t other after whole ih =>
    obtain ⟨first,rest,pieces,here,later⟩ := ih
    rw [pieces]
    refine ⟨c :: first,rest,rfl,here.cons ?_,later⟩
    rintro rfl rfl
    exact whole rfl

theorem uncut_of_mem_cut {t piece : Text} (member : piece ∈ cut 0 t) : Uncut 0 piece := by
  obtain ⟨first,rest,pieces,here,later⟩ := bars_cut 0 t
  have each : ∀ piece ∈ cut 0 t, BarsInside 0 piece := by
    rw [pieces]
    exact List.forall_mem_cons.mpr ⟨here,later⟩
  exact ⟨(cuts_cut 0 t).inside rfl piece member,each piece member⟩

/-- What stands in a text behind closed brackets has no cut that the text has not. -/
theorem Uncut.middle {a w b : Text} (uncut : Uncut 0 (a ++ w ++ b)) (level : depth a = 0) :
    Uncut 0 w := by
  constructor
  · intro u v same
    simpa [level] using uncut.ors (a ++ u) (v ++ b) (by simp [same])
  · intro u v same
    simpa [level] using uncut.bars (a ++ u) (v ++ b) (by simp [same])

/-- A piece stands in the text, and is shorter by a separator at least if there are others. -/
theorem Parted.within {t : Text} {pieces : List Text} (parted : Parted t pieces) :
    ∀ piece ∈ pieces, piece <:+: t ∧ (2 ≤ pieces.length → piece.length < t.length) := by
  have step {first sep rest : Text} {pieces : List Text} (long : sep ≠ [])
      (later : ∀ piece ∈ pieces, piece <:+: rest ∧ (2 ≤ pieces.length → piece.length < rest.length)) :
      ∀ piece ∈ first :: pieces, piece <:+: first ++ sep ++ rest ∧
        piece.length < (first ++ sep ++ rest).length := by
    have some : 0 < sep.length := List.length_pos_iff.mpr long
    intro piece member
    rcases List.mem_cons.mp member with rfl | inside
    · refine ⟨⟨[],sep ++ rest,by simp⟩,?_⟩
      simp only [List.length_append]
      omega
    · obtain ⟨a,b,rfl⟩ := (later piece inside).1
      refine ⟨⟨first ++ sep ++ a,b,by simp⟩,?_⟩
      simp only [List.length_append]
      omega
  induction parted with
  | last =>
    intro piece member
    obtain rfl := List.mem_singleton.mp member
    exact ⟨List.infix_refl piece,by simp⟩
  | bar _ ih =>
    intro piece member
    exact (step (by decide) ih piece member).imp_right fun less _ => less
  | or _ ih =>
    intro piece member
    exact (step (by decide) ih piece member).imp_right fun less _ => less

/-- Without a separator outside brackets a text is its own only alternative. -/
theorem alternatives_of_uncut {t : Text} (uncut : Uncut 0 t) (trimmed : Text.Trimmed t)
    (nonempty : t ≠ []) : alternatives t = [t] := by
  have whole : cut 0 t = [t] := by
    have pieces := cut_append uncut [] (by simp)
    rw [List.append_nil,cut,foldr_consFirst,List.append_nil] at pieces
    exact pieces
  simp [alternatives,whole,trimmed.trim,nonempty]

theorem alternatives_of_mem {raw segment : Text} (member : segment ∈ alternatives raw) :
    alternatives segment = [segment] := by
  obtain ⟨listed,kept⟩ := List.mem_filter.mp member
  obtain ⟨piece,among,rfl⟩ := List.mem_map.mp listed
  obtain ⟨a,b,whole,before,_⟩ := Text.eq_trim piece
  have uncut := uncut_of_mem_cut among
  rw [whole] at uncut
  exact alternatives_of_uncut (uncut.middle (depth_of_blank before)) (Text.trimmed_trim piece)
    (by simpa using kept)

theorem alternative_within {raw segment : Text} (member : segment ∈ alternatives raw) :
    segment <:+: raw ∧ (2 ≤ (alternatives raw).length → segment.length < raw.length) := by
  obtain ⟨piece,among,rfl⟩ := List.mem_map.mp (List.mem_filter.mp member).1
  obtain ⟨a,b,whole,_,_⟩ := Text.eq_trim piece
  have part : Text.trim piece <:+: piece := ⟨a,b,whole.symm⟩
  obtain ⟨inside,shorter⟩ := (parted_cut 0 raw).within piece among
  refine ⟨part.trans inside,fun several => ?_⟩
  have kept : (alternatives raw).length ≤ ((cut 0 raw).map Text.trim).length :=
    List.length_filter_le _ _
  rw [List.length_map] at kept
  exact Nat.lt_of_le_of_lt part.length_le (shorter (Nat.le_trans several kept))

end Phrase

namespace Resolver

variable (r : Resolver)

/-- Resolving `raw` asks for the type of `segment`: the text is no name of several words, it is refused,
and the segment is one of its several alternatives. -/
structure Asks (raw segment : Text) : Prop where
  unlisted : r.config.table.spelling? (Text.collapse raw) = none
  rejected : (Phrase.parse raw).isOk = false
  several : 2 ≤ (Phrase.alternatives raw).length
  among : segment ∈ Phrase.alternatives raw

def answer (subject raw : Text) : LuaType × List Finding := (r.type raw,r.findings subject raw)

/-- One step of the recursion, where `inner` answers for the texts that are asked for. -/
def answerThrough (inner : Text → LuaType × List Finding) (subject raw : Text) :
    LuaType × List Finding :=
  match r.config.table.spelling? (Text.collapse raw) with
  | some spelling => (.primitive spelling,[])
  | none =>
    match Phrase.parse raw with
    | .ok tree => (r.treeType tree,r.treeFindings subject tree)
    | .error e =>
      let segments := Phrase.alternatives raw
      if 2 ≤ segments.length then
        (.unionOf (segments.map fun segment => (inner segment).1),
          segments.flatMap fun segment => (inner segment).2)
      else (.named (Text.collapse raw),
        [r.unrecognized subject ("cannot parse type: " ++ e.message) (Text.collapse raw)])

variable {r}

/-- What is asked for asks for nothing. -/
theorem Asks.last {raw segment other : Text} (asks : r.Asks raw segment) :
    ¬r.Asks segment other := by
  intro again
  have several := again.several
  rw [Phrase.alternatives_of_mem asks.among] at several
  simp at several

theorem asks_wellFounded (r : Resolver) : WellFounded fun segment raw => r.Asks raw segment := by
  have shorter {segment raw : Text} (asks : r.Asks raw segment) : segment.length < raw.length :=
    (Phrase.alternative_within asks.among).2 asks.several
  exact Subrelation.wf shorter (measure List.length).wf

/-- A step reads the inner answers only where it asks for them. -/
theorem answerThrough_congr {first second : Text → LuaType × List Finding} {subject raw : Text}
    (same : ∀ segment, r.Asks raw segment → first segment = second segment) :
    r.answerThrough first subject raw = r.answerThrough second subject raw := by
  unfold answerThrough
  cases listed : r.config.table.spelling? (Text.collapse raw) with
  | some spelling => rfl
  | none =>
    cases parsed : Phrase.parse raw with
    | ok tree => rfl
    | error e =>
      by_cases several : 2 ≤ (Phrase.alternatives raw).length
      · have each : ∀ segment ∈ Phrase.alternatives raw, first segment = second segment :=
          fun segment among => same segment ⟨listed,by rw [parsed]; rfl,several,among⟩
        have types : (Phrase.alternatives raw).map (fun segment => (first segment).1) =
            (Phrase.alternatives raw).map fun segment => (second segment).1 :=
          List.map_congr_left fun segment among => congrArg Prod.fst (each segment among)
        have findings : (Phrase.alternatives raw).flatMap (fun segment => (first segment).2) =
            (Phrase.alternatives raw).flatMap fun segment => (second segment).2 :=
          List.flatMap_congr fun segment among => congrArg Prod.snd (each segment among)
        simp only [types,findings]
      · simp only [if_neg several]

/-- Without alternatives of its own a text is resolved alone. -/
theorem answer_of_single {subject t : Text} (single : Phrase.alternatives t = [t]) :
    r.answer subject t = (r.aloneType t,r.aloneFindings subject t) := by
  unfold answer Resolver.type findings aloneType aloneFindings
  rw [single]

theorem answer_eq_through (r : Resolver) (subject raw : Text) :
    r.answer subject raw = r.answerThrough (r.answer subject) subject raw := by
  have once : r.answer subject raw =
      r.answerThrough (fun segment => (r.aloneType segment,r.aloneFindings subject segment)) subject raw := by
    unfold answer answerThrough Resolver.type findings typeOr findingsOr
    cases r.config.table.spelling? (Text.collapse raw) with
    | some spelling => rfl
    | none =>
      cases Phrase.parse raw with
      | ok tree => rfl
      | error e => rcases Phrase.alternatives raw with _ | ⟨first,_ | ⟨second,rest⟩⟩ <;> simp
  rw [once]
  exact answerThrough_congr fun segment asks =>
    (answer_of_single (Phrase.alternatives_of_mem asks.among)).symm

/-- Only one function answers for every text as the step does with its own answers. -/
theorem eq_answer {subject : Text} {inner : Text → LuaType × List Finding}
    (steps : ∀ text, inner text = r.answerThrough inner subject text) : inner = r.answer subject := by
  funext text
  induction text using (asks_wellFounded r).induction with
  | _ text ih =>
    -- the texts that are asked for are shorter, so both answer the same for them
    rw [steps,answer_eq_through]
    exact answerThrough_congr ih

/-- Alternatives are parts of the text with no alternatives of their own, and shorter than it if there are
several. So asking for their types ends on every text, behind the first alternatives, and the recursion has
one answer. -/
theorem alternatives_final (r : Resolver) (subject raw : Text) :
    (∀ segment ∈ Phrase.alternatives raw, segment ≠ [] ∧ Text.trim segment = segment ∧
      segment <:+: raw ∧ Phrase.alternatives segment = [segment] ∧
      (2 ≤ (Phrase.alternatives raw).length → segment.length < raw.length)) ∧
    Acc (fun segment text => r.Asks text segment) raw ∧
    (∀ segment other, r.Asks raw segment → ¬r.Asks segment other) ∧
    (∀ first second, (∀ segment, r.Asks raw segment → first segment = second segment) →
      r.answerThrough first subject raw = r.answerThrough second subject raw) ∧
    ∀ inner, (∀ text, inner text = r.answerThrough inner subject text) ↔ inner = r.answer subject := by
  refine ⟨fun segment member => ?_,(asks_wellFounded r).apply raw,fun _ _ asks => asks.last,
    fun _ _ => answerThrough_congr,fun inner => ⟨eq_answer,?_⟩⟩
  · obtain ⟨inside,shorter⟩ := Phrase.alternative_within member
    obtain ⟨listed,kept⟩ := List.mem_filter.mp member
    obtain ⟨piece,_,rfl⟩ := List.mem_map.mp listed
    exact ⟨by simpa using kept,(Text.trimmed_trim piece).trim,inside,Phrase.alternatives_of_mem member,
      shorter⟩
  · rintro rfl text
    exact answer_eq_through r subject text

end Resolver
end LuaStubs
