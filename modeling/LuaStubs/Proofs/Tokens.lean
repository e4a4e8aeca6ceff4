import LuaStubs.Proofs.Grammar
import LuaStubs.Proofs.Words

/-! White space between tokens: how much of it there is and of which kind does not matter. -/
namespace LuaStubs.Phrase

def bare (cut : Except Error (List Placed)) : Option (List Token) :=
  cut.toOption.map (·.map Placed.token)

def wordTokens (read : Text) : List Token := if read.isEmpty then [] else [.ofWord read.reverse]

theorem endWord_tokens (stop : Nat) (read : Text) :
    (endWord stop read).map Placed.token = wordTokens read := by
  unfold endWord wordTokens
  split <;> rfl

section

variable (stop : Nat) (read : Text) (cut : Except Error (List Placed))

theorem bare_map {f : List Placed → List Placed} {front : List Token}
    (same : ∀ all, (f all).map Placed.token = front ++ all.map Placed.token) :
    bare (f <$> cut) = (bare cut).map (front ++ ·) := by
  cases cut with
  | error e => rfl
  | ok all => exact congrArg some (same all)

theorem bare_ellipsis : bare ((⟨.ellipsis, stop⟩ :: ·) <$> cut) =
    (bare cut).map ([.ellipsis] ++ ·) :=
  bare_map cut fun _ => rfl

theorem bare_single (token : Token) : bare ((endWord stop read ++ ⟨token, stop⟩ :: ·) <$> cut) =
    (bare cut).map (wordTokens read ++ [token] ++ ·) :=
  bare_map cut fun all => by simp [endWord_tokens]

theorem bare_blank : bare ((endWord stop read ++ ·) <$> cut) =
    (bare cut).map (wordTokens read ++ ·) :=
  bare_map cut fun all => by simp [endWord_tokens]

end

/-- Which tokens there are does not depend on where the text starts. -/
theorem bare_tokensFrom (start other : Nat) (read t : Text) :
    bare (tokensFrom start read t) = bare (tokensFrom other read t) := by
  fun_induction tokensFrom start read t generalizing other with
  | case1 start read =>
    rw [tokensFrom]
    exact congrArg some ((endWord_tokens start read).trans (endWord_tokens other read).symm)
  | case2 start read rest empty ih =>
    rw [tokensFrom,if_pos empty,bare_ellipsis,bare_ellipsis,ih]
  | case3 start read rest nonempty ih =>
    rw [tokensFrom,if_neg nonempty]
    exact ih _
  | case4 start read c rest notDots part ih =>
    rw [tokensFrom.eq_3 _ _ _ _ notDots,if_pos part]
    exact ih _
  | case5 start read c rest notDots notPart token single ih =>
    rw [tokensFrom.eq_3 _ _ _ _ notDots,if_neg notPart,single,bare_single,bare_single,ih]
  | case6 start read c rest notDots notPart notSingle blank ih =>
    rw [tokensFrom.eq_3 _ _ _ _ notDots,if_neg notPart,notSingle,bare_blank]
    simp only [blank,↓reduceIte]
    rw [bare_blank,ih]
  | case7 start read c rest notDots notPart notSingle notBlank =>
    rw [tokensFrom.eq_3 _ _ _ _ notDots,if_neg notPart,notSingle]
    simp only [notBlank]
    rfl

def joined (first second : Option (List Token)) : Option (List Token) :=
  first.bind fun front => second.map (front ++ ·)

theorem joined_map (front : List Token) (first second : Option (List Token)) :
    joined (first.map (front ++ ·)) second = (joined first second).map (front ++ ·) := by
  cases first with
  | none => rfl
  | some tokens => cases second <;> simp [joined]

/-- A character that ends a word, with the tokens that it is itself: white space is none, a mark is
one. -/
inductive EndsWord (c : Char) : (own : List Token) → Prop where
  | blank : Text.isBlank c = true → EndsWord c []
  | mark {token : Token} : Token.ofChar c = some token → EndsWord c [token]

theorem EndsWord.not_wordPart {c : Char} {own : List Token} (ends : EndsWord c own) :
    ¬isWordPart c = true := by
  cases ends with
  | blank blank => simp [wordPart_of_blank blank]
  | mark single =>
    unfold Token.ofChar at single
    split at single <;> first | contradiction | decide

theorem bare_endsWord {start : Nat} (other : Nat) {c : Char} {own : List Token}
    (ends : EndsWord c own) (read b : Text) : bare (tokensFrom start read (c :: b)) =
      (bare (tokensFrom other [] b)).map (wordTokens read ++ own ++ ·) := by
  have notDot : c ≠ '.' := by
    rintro rfl
    exact ends.not_wordPart (by decide)
  rw [tokensFrom.eq_3 _ _ _ _ fun _ dot => absurd dot notDot,if_neg ends.not_wordPart]
  cases ends with
  | blank blank =>
    have single : Token.ofChar c = none := by
      unfold Token.ofChar
      split <;> first | rfl | exact absurd blank (by decide)
    simp only [single,blank,↓reduceIte,List.append_nil]
    rw [bare_blank,bare_tokensFrom _ other]
  | mark single =>
    simp only [single]
    rw [bare_single,bare_tokensFrom _ other]

/-- What follows the end of a word is cut on its own. -/
theorem bare_append {start : Nat} (other : Nat) {read a : Text} {c : Char} {own : List Token}
    (ends : EndsWord c own) (b : Text) : bare (tokensFrom start read (a ++ c :: b)) =
      joined (bare (tokensFrom start read a)) ((bare (tokensFrom other [] b)).map (own ++ ·)) := by
  have notDot : c ≠ '.' := by
    rintro rfl
    exact ends.not_wordPart (by decide)
  have apart {d : Char} {rest : Text}
      (notDots : ∀ further, d = '.' → rest = '.' :: '.' :: further → False) :
      ∀ further, d = '.' → rest ++ c :: b = '.' :: '.' :: further → False := by
    intro further dot same
    cases rest with
    | nil => exact notDot (List.cons.inj same).1
    | cons e rest =>
      obtain ⟨rfl,next⟩ := List.cons.inj same
      cases rest with
      | nil => exact notDot (List.cons.inj next).1
      | cons f rest =>
        obtain ⟨rfl,_⟩ := List.cons.inj next
        exact notDots rest dot rfl
  fun_induction tokensFrom start read a with
  | case1 start read =>
    have here : bare (.ok (endWord start read)) = some (wordTokens read) :=
      congrArg some (endWord_tokens start read)
    rw [List.nil_append,bare_endsWord other ends,here]
    simp only [joined,Option.bind_some,Option.map_map,Function.comp_def,List.append_assoc]
  | case2 start read rest empty ih =>
    rw [List.cons_append,List.cons_append,List.cons_append,tokensFrom,if_pos empty,bare_ellipsis,
      bare_ellipsis,ih,joined_map]
  | case3 start read rest nonempty ih =>
    rw [List.cons_append,List.cons_append,List.cons_append,tokensFrom,if_neg nonempty,ih]
  | case4 start read d rest notDots part ih =>
    rw [List.cons_append,tokensFrom.eq_3 _ _ _ _ (apart notDots),if_pos part,ih]
  | case5 start read d rest notDots notPart token single ih =>
    rw [List.cons_append,tokensFrom.eq_3 _ _ _ _ (apart notDots),if_neg notPart,single,bare_single,
      bare_single,ih,joined_map]
  | case6 start read d rest notDots notPart notSingle white ih =>
    rw [List.cons_append,tokensFrom.eq_3 _ _ _ _ (apart notDots),if_neg notPart,notSingle,bare_blank]
    simp only [white,↓reduceIte]
    rw [bare_blank,ih,joined_map]
  | case7 start read d rest notDots notPart notSingle notBlank =>
    rw [List.cons_append,tokensFrom.eq_3 _ _ _ _ (apart notDots),if_neg notPart,notSingle]
    simp only [notBlank]
    rfl

theorem bare_tokens_append {a : Text} {c : Char} (blank : Text.isBlank c = true) (b : Text) :
    bare (tokens (a ++ c :: b)) = joined (bare (tokens a)) (bare (tokens b)) := by
  have cut : bare (tokens (a ++ c :: b)) =
      joined (bare (tokens a)) ((bare (tokens b)).map ([] ++ ·)) := bare_append 0 (.blank blank) b
  simpa only [List.nil_append,Option.map_id'] using cut

theorem bare_tokens_mark {a : Text} {c : Char} {token : Token} (mark : Token.ofChar c = some token)
    (b : Text) : bare (tokens (a ++ c :: b)) =
      joined (bare (tokens a)) ((bare (tokens b)).map (token :: ·)) :=
  bare_append 0 (.mark mark) b

/-- A run of word characters is one word. Three dots at its start would be an ellipsis, but not behind
other characters of the word. -/
theorem bare_wordParts (start : Nat) {read t : Text} (parts : ∀ c ∈ t, isWordPart c = true)
    (inside : read ≠ [] ∨ ∀ rest, t ≠ '.' :: '.' :: '.' :: rest) :
    bare (tokensFrom start read t) = some (wordTokens (t.reverse ++ read)) := by
  fun_induction tokensFrom start read t with
  | case1 start read => exact congrArg some (endWord_tokens start read)
  | case2 start read rest empty ih =>
    rcases inside with nonempty | other
    · exact absurd (List.isEmpty_iff.mp empty) nonempty
    · exact absurd rfl (other rest)
  | case3 start read rest nonempty ih =>
    rw [ih (fun c member => parts c (by simp [member])) (Or.inl (by simp))]
    simp
  | case4 start read c rest notDots part ih =>
    rw [ih (fun d member => parts d (by simp [member])) (Or.inl (by simp))]
    simp
  | case5 start read c rest notDots notPart token single ih => exact absurd (parts c (by simp)) notPart
  | case6 start read c rest notDots notPart notSingle blank ih =>
    exact absurd (parts c (by simp)) notPart
  | case7 start read c rest notDots notPart notSingle notBlank =>
    exact absurd (parts c (by simp)) notPart

/-- White space may be collapsed: the tokens stay the same. -/
theorem bare_collapse (t : Text) : bare (tokens (Text.collapse t)) = bare (tokens t) := by
  have before (cut : Option (List Token)) : joined (bare (tokens [])) cut = cut := by
    cases cut <;> rfl
  have behind (cut : Option (List Token)) : joined cut (bare (tokens [])) = cut := by
    cases cut with
    | none => rfl
    | some all => exact congrArg some (List.append_nil all)
  induction t using Text.wordInduction with
  | word t unblank => rw [Text.collapse_of_unblank unblank]
  | blank word c rest unblank blank ih =>
    rw [bare_tokens_append blank,← ih]
    cases word with
    | nil => rw [List.nil_append,Text.collapse_blank blank,before]
    | cons e word =>
      rcases Text.collapse_word (List.cons_ne_nil e word) unblank blank rest with ⟨none,alone⟩ | more
      · rw [alone,none,behind]
      · rw [more,bare_tokens_append (by decide)]

theorem parse_eq_ok_iff_bare {t : Text} {tree : Tree} :
    parse t = .ok tree ↔ ∃ all, bare (tokens t) = some all ∧ Derives (.union tree) all := by
  rw [parse_eq_ok_iff]
  cases tokens t with
  | error e => simp [bare,Except.toOption]
  | ok all => simp [bare,Except.toOption]

theorem parse_collapse {t : Text} {tree : Tree} :
    parse (Text.collapse t) = .ok tree ↔ parse t = .ok tree := by
  rw [parse_eq_ok_iff_bare,parse_eq_ok_iff_bare,bare_collapse]

end LuaStubs.Phrase
