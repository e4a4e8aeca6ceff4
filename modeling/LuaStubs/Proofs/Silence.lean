import LuaStubs.Proofs.Spacing

/-! Texts outside the grammar that nothing is told about. If all alternatives of a text are read, so is
the text; hence one that is refused has an alternative that is refused, and that is told unless the
table knows it as a name. -/
namespace LuaStubs

namespace Phrase

/-- A text in pieces, with the separators between them. -/
inductive Parted : Text → List Text → Prop where
  | last {t : Text} : Parted t [t]
  | bar {piece rest : Text} {pieces : List Text} : Parted rest pieces →
      Parted (piece ++ "|" ++ rest) (piece :: pieces)
  | or {piece rest : Text} {pieces : List Text} : Parted rest pieces →
      Parted (piece ++ " or " ++ rest) (piece :: pieces)

theorem Parted.cons {t : Text} {pieces : List Text} (parted : Parted t pieces) (c : Char) :
    Parted (c :: t) (consFirst c pieces) := by
  cases parted with
  | last => exact .last
  | @bar piece _ _ rest => exact @Parted.bar (c :: piece) _ _ rest
  | @or piece _ _ rest => exact @Parted.or (c :: piece) _ _ rest

theorem parted_cut (before : Int) (t : Text) : Parted t (cut before t) := by
  fun_induction cut before t with
  | case1 before => exact .last
  | case2 rest ih => exact @Parted.or [] _ _ ih
  | case3 before rest opened ih => exact (((ih.cons ' ').cons 'r').cons 'o').cons ' '
  | case4 before c rest other after separates ih =>
    obtain ⟨rfl,_⟩ : c = '|' ∧ after = 0 := by simpa using separates
    exact @Parted.bar [] _ _ ih
  | case5 before c rest other after whole ih => exact ih.cons c

/-- Separators go between alternatives, so a text of pieces that are read is read. -/
theorem Parted.reads {t : Text} {pieces : List Text} (parted : Parted t pieces)
    (each : ∀ piece ∈ pieces, ∃ trees, Reads piece trees) : ∃ trees, Reads t trees := by
  induction parted with
  | last => exact each _ (by simp)
  | bar _ ih =>
    obtain ⟨first,here⟩ := each _ List.mem_cons_self
    obtain ⟨second,later⟩ := ih fun piece member => each piece (by simp [member])
    exact ⟨_,here.bar later⟩
  | or _ ih =>
    obtain ⟨first,here⟩ := each _ List.mem_cons_self
    obtain ⟨second,later⟩ := ih fun piece member => each piece (by simp [member])
    exact ⟨_,here.or later⟩

/-- White space around a text does not matter to its tokens. -/
theorem Reads.of_trim {t : Text} {trees : List Tree} (reads : Reads (Text.trim t) trees) :
    Reads t trees := by
  obtain ⟨all,cut,derived⟩ := reads
  refine ⟨all,?_,derived⟩
  rw [← bare_collapse,Text.collapse,← Text.words_trim]
  exact (bare_collapse (Text.trim t)).trans cut

/-- A text without empty alternatives that is refused has an alternative that is refused. -/
theorem exists_rejected {raw : Text} (rejected : (parse raw).isOk = false)
    (filled : ∀ piece ∈ cut 0 raw, Text.words piece ≠ []) :
    ∃ segment ∈ alternatives raw, (parse segment).isOk = false := by
  apply Classical.byContradiction
  intro none
  have accepted : ∀ segment ∈ alternatives raw, (parse segment).isOk = true := by
    simpa using none
  have each : ∀ piece ∈ cut 0 raw, ∃ trees, Reads piece trees := by
    intro piece member
    have nonempty : Text.trim piece ≠ [] := mt Text.trim_eq_nil.mp (filled piece member)
    have listed : Text.trim piece ∈ alternatives raw :=
      List.mem_filter.mpr ⟨List.mem_map_of_mem member,by simpa using nonempty⟩
    obtain ⟨tree,parsed⟩ := parse_of_isOk (accepted _ listed)
    obtain ⟨trees,reads⟩ := exists_reads parsed
    exact ⟨trees,reads.of_trim⟩
  obtain ⟨trees,reads⟩ := (parted_cut 0 raw).reads each
  rw [reads.parse] at rejected
  contradiction

end Phrase

namespace Resolver

variable {r : Resolver} {raw : Text}

theorem findingsOr_of_rejected (unlisted : Text.collapse raw ∉ r.config.table.names)
    (rejected : (Phrase.parse raw).isOk = false) (subject : Text) :
    ∃ e, ∀ other, r.findingsOr other subject raw = other e := by
  obtain ⟨e,failed⟩ := Phrase.error_of_not_isOk rejected
  refine ⟨e,fun other => ?_⟩
  unfold findingsOr
  rw [TypeTable.spelling?_eq_none_iff.mpr unlisted,failed]

/-- A text that is neither a name of several words nor read is told as a whole, or alternative by
alternative if it has several. -/
theorem findings_of_rejected (unlisted : Text.collapse raw ∉ r.config.table.names)
    (rejected : (Phrase.parse raw).isOk = false) (subject : Text) : ∃ message, r.findings subject raw =
      if 2 ≤ (Phrase.alternatives raw).length then
        (Phrase.alternatives raw).flatMap (r.aloneFindings subject)
      else [r.unrecognized subject message (Text.collapse raw)] := by
  obtain ⟨e,other⟩ := findingsOr_of_rejected unlisted rejected subject
  refine ⟨"cannot parse type: " ++ e.message,?_⟩
  rw [findings,other]
  rcases Phrase.alternatives raw with _ | ⟨first,_ | ⟨second,rest⟩⟩ <;> simp

theorem aloneFindings_of_rejected (unlisted : Text.collapse raw ∉ r.config.table.names)
    (rejected : (Phrase.parse raw).isOk = false) (subject : Text) : ∃ message, r.aloneFindings subject raw =
      [r.unrecognized subject message (Text.collapse raw)] := by
  obtain ⟨e,other⟩ := findingsOr_of_rejected unlisted rejected subject
  exact ⟨"cannot parse type: " ++ e.message,other _⟩

/-- One of several alternatives that is refused and no name of several words is told, whatever the
others are. -/
theorem alternative_told (unlisted : Text.collapse raw ∉ r.config.table.names)
    (rejected : (Phrase.parse raw).isOk = false) (several : 2 ≤ (Phrase.alternatives raw).length)
    {segment : Text} (member : segment ∈ Phrase.alternatives raw)
    (unknown : Text.collapse segment ∉ r.config.table.names)
    (refused : (Phrase.parse segment).isOk = false) (subject : Text) :
    ∃ message, r.unrecognized subject message (Text.collapse segment) ∈ r.findings subject raw := by
  obtain ⟨_,all⟩ := findings_of_rejected unlisted rejected subject
  obtain ⟨message,here⟩ := aloneFindings_of_rejected unknown refused subject
  refine ⟨message,?_⟩
  rw [all,if_pos several]
  apply List.mem_flatMap_of_mem member
  rw [here]
  exact List.mem_singleton_self _

/-- A name that the table knows is no reason to tell anything, also where it is outside the grammar and
one of several alternatives. -/
theorem known_alternative_silent :
    let table := { TypeTable.builtin with multiWord := [("file-handle object","userdata")] }
    let r : Resolver := ⟨⟨"love",false,table⟩,[]⟩
    (Phrase.parse "file-handle object or nil").isOk = false ∧
      Text.collapse "file-handle object or nil" ∉ r.config.table.names ∧
      r.findings "t" "file-handle object or nil" = [] := by
  decide +kernel

/-- Nothing outside the grammar is taken without a word, unless all that is outside are names that the
table knows: each alternative that is refused and no such name is told, and where there are not several
the text is. An empty alternative between others is left out of account where nothing else is refused. -/
theorem rejected_told (rejected : (Phrase.parse raw).isOk = false)
    (unlisted : Text.collapse raw ∉ r.config.table.names) (subject : Text) :
    ((Phrase.alternatives raw).length < 2 →
      ∃ message, r.findings subject raw = [r.unrecognized subject message (Text.collapse raw)]) ∧
    (2 ≤ (Phrase.alternatives raw).length → ∀ segment ∈ Phrase.alternatives raw,
      (Phrase.parse segment).isOk = false → Text.collapse segment ∉ r.config.table.names →
        ∃ message, r.unrecognized subject message (Text.collapse segment) ∈ r.findings subject raw) ∧
    ((2 ≤ (Phrase.alternatives raw).length → ∀ piece ∈ Phrase.cut 0 raw, Text.words piece ≠ []) →
      r.findings subject raw ≠ [] ∨
        (∃ segment ∈ Phrase.alternatives raw, (Phrase.parse segment).isOk = false) ∧
          ∀ segment ∈ Phrase.alternatives raw, (Phrase.parse segment).isOk = false →
            Text.collapse segment ∈ r.config.table.names) := by
  obtain ⟨message,all⟩ := findings_of_rejected unlisted rejected subject
  have whole (few : (Phrase.alternatives raw).length < 2) :
      r.findings subject raw = [r.unrecognized subject message (Text.collapse raw)] := by
    rw [all,if_neg (Nat.not_le.mpr few)]
  refine ⟨fun few => ⟨message,whole few⟩,fun several segment member refused unknown => ?_,?_⟩
  · exact alternative_told unlisted rejected several member unknown refused subject
  intro filled
  by_cases silent : r.findings subject raw = []
  · right
    have several : 2 ≤ (Phrase.alternatives raw).length := by
      apply Nat.not_lt.mp
      intro few
      rw [whole few] at silent
      contradiction
    refine ⟨Phrase.exists_rejected rejected (filled several),fun segment member refused => ?_⟩
    apply Classical.byContradiction
    intro unknown
    obtain ⟨_,found⟩ := alternative_told unlisted rejected several member unknown refused subject
    rw [silent] at found
    contradiction
  · exact Or.inl silent

def halfKnown : Text := "file-handle object or table<K, V> | nil"

theorem halfKnown_told :
    let table := { TypeTable.builtin with multiWord := [("file-handle object","userdata")] }
    let r : Resolver := ⟨⟨"love",false,table⟩,[]⟩
    (Phrase.parse halfKnown).isOk = false ∧ r.findings "t" halfKnown ≠ [] ∧
      (Phrase.parse "table<K, V>||nil").isOk = false ∧
      ∃ message, r.unrecognized "t" message "table<K, V>" ∈ r.findings "t" "table<K, V>||nil" := by
  intro table r
  have rejected : (Phrase.parse halfKnown).isOk = false := by decide +kernel
  have filled : ∀ piece ∈ Phrase.cut 0 halfKnown, Text.words piece ≠ [] := by decide +kernel
  have told := (rejected_told (r := r) rejected (by decide +kernel) "t").2.2 fun _ => filled
  have spoken : r.findings "t" halfKnown ≠ [] := by
    apply told.resolve_right
    intro known
    have strange := known.2 "table<K, V>" (by decide +kernel) (by decide +kernel)
    exact absurd strange (by decide +kernel)
  have beside : (Phrase.parse "table<K, V>||nil").isOk = false := by decide +kernel
  have each := (rejected_told (r := r) beside (by decide +kernel) "t").2.1 (by decide +kernel)
  refine ⟨rejected,spoken,beside,?_⟩
  exact each "table<K, V>" (by decide +kernel) (by decide +kernel) (by decide +kernel)

-- An empty alternative between others is dropped, and nothing is told about it.
example : (Phrase.parse "number||string").isOk = false ∧
    (Resolver.mk .default []).findings "t" "number||string" = [] := by
  decide +kernel

end Resolver
end LuaStubs
