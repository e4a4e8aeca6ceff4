import LuaStubs.Proofs.Grammar
import LuaStubs.Proofs.Phrase

/-! Where a written type stops being one. Whatever the automaton has read can still be completed, so
the tokens before an error begin a sentence of the grammar; the token at the error cannot follow
them. -/
namespace LuaStubs

@[simp] theorem Text.byteSize_append (a b : Text) : byteSize (a ++ b) = byteSize a + byteSize b := by
  induction a with
  | nil => simp [byteSize]
  | cons c a ih => simp [byteSize,ih,Nat.add_assoc]

theorem Text.byteSize_reverse (t : Text) : byteSize t.reverse = byteSize t := by
  induction t with
  | nil => rfl
  | cons c t ih =>
    rw [List.reverse_cons,byteSize_append,ih,byteSize,byteSize,byteSize]
    omega

theorem Text.byteSize_pos {t : Text} (nonempty : t ≠ []) : 0 < byteSize t := by
  obtain ⟨c,rest,rfl⟩ := List.exists_cons_of_ne_nil nonempty
  have := c.utf8Size_pos
  rw [byteSize]
  omega

namespace Phrase

def Token.spellings : Token → List Text
  | .word text => [text]
  | .or => ["or", "|"]
  | .openBrace => ["\x7b"]
  | .closeBrace => ["\x7d"]
  | .openParen => ["("]
  | .closeParen => [")"]
  | .comma => [","]
  | .colon => [":"]
  | .ellipsis => ["..."]

def Placed.StandsIn (t : Text) (placed : Placed) : Prop :=
  ∃ before spelling after, t = before ++ spelling ++ after ∧
    spelling ∈ placed.token.spellings ∧ spelling ≠ [] ∧ Text.byteSize before = placed.offset

/-- A text from byte `start` on is tokens with white space around them, each where its offset says. -/
inductive Spread : (start : Nat) → Text → List Placed → Prop where
  | done {start : Nat} {gap : Text} : (∀ c ∈ gap, Text.isBlank c = true) → Spread start gap []
  | token {start : Nat} {gap spelling rest : Text} {token : Token} {all : List Placed} :
      (∀ c ∈ gap, Text.isBlank c = true) → spelling ∈ token.spellings → spelling ≠ [] →
      Spread (start + Text.byteSize gap + Text.byteSize spelling) rest all →
      Spread start (gap ++ spelling ++ rest) (⟨token, start + Text.byteSize gap⟩ :: all)

namespace Spread

variable {start : Nat} {t : Text} {all : List Placed}

theorem here {spelling : Text} {token : Token} (written : spelling ∈ token.spellings)
    (nonempty : spelling ≠ []) (rest : Spread (start + Text.byteSize spelling) t all) :
    Spread start (spelling ++ t) (⟨token, start⟩ :: all) := by
  have none : ∀ c ∈ ([] : Text), Text.isBlank c = true := by simp
  exact .token none written nonempty rest

theorem blank {c : Char} (white : Text.isBlank c = true) (rest : Spread (start + c.utf8Size) t all) :
    Spread start (c :: t) all := by
  have longer {gap : Text} (gaps : ∀ d ∈ gap, Text.isBlank d = true) :
      ∀ d ∈ c :: gap, Text.isBlank d = true := List.forall_mem_cons.mpr ⟨white,gaps⟩
  cases rest with
  | done gaps => exact .done (longer gaps)
  | @token _ gap spelling _ _ _ gaps written nonempty rest =>
    have moved : start + c.utf8Size + Text.byteSize gap = start + Text.byteSize (c :: gap) := by
      rw [Text.byteSize]
      omega
    rw [moved] at rest ⊢
    exact .token (longer gaps) written nonempty rest

/-- The characters of an open word, last first, are the next token. -/
theorem behind_word {stop : Nat} {read : Text} (size : stop = start + Text.byteSize read)
    (rest : Spread stop t all) : Spread start (read.reverse ++ t) (endWord stop read ++ all) := by
  unfold endWord
  by_cases empty : read = []
  · subst empty
    obtain rfl : stop = start := size
    exact rest
  · have written : read.reverse ∈ (Token.ofWord read.reverse).spellings := by
      unfold Token.ofWord
      split
      · rename_i isOr
        simp [isOr,Token.spellings]
      · simp [Token.spellings]
    have offset : stop - Text.byteSize read = start := by omega
    rw [if_neg (by simpa using empty),offset]
    apply here written (by simpa using empty)
    rwa [Text.byteSize_reverse,← size]

theorem bounds (spread : Spread start t all) :
    ∀ placed ∈ all, start ≤ placed.offset ∧ placed.offset < start + Text.byteSize t := by
  induction spread with
  | done _ => simp
  | @token start gap spelling rest token all _ _ nonempty _ ih =>
    have some := Text.byteSize_pos nonempty
    simp only [Text.byteSize_append]
    intro placed member
    rcases List.mem_cons.mp member with rfl | later
    · constructor
      · exact Nat.le_add_right start _
      · change start + Text.byteSize gap < _
        omega
    · have := ih placed later
      omega

theorem increasing (spread : Spread start t all) :
    all.Pairwise fun first second => first.offset < second.offset := by
  induction spread with
  | done _ => exact .nil
  | @token start gap spelling rest token all _ _ nonempty further ih =>
    refine .cons (fun placed member => ?_) ih
    have some := Text.byteSize_pos nonempty
    have later := (further.bounds placed member).1
    change start + Text.byteSize gap < placed.offset
    omega

/-- What is listed before a token starts before it, and what is listed after it starts later. -/
theorem around {before after : List Placed} {placed : Placed}
    (spread : Spread start t (before ++ placed :: after)) :
    (∀ other ∈ before, other.offset < placed.offset) ∧ ∀ other ∈ after, placed.offset < other.offset := by
  obtain ⟨_,behind,across⟩ := List.pairwise_append.mp spread.increasing
  exact ⟨fun other member => across other member placed (by simp),(List.pairwise_cons.mp behind).1⟩

theorem standsIn (spread : Spread start t all) : ∀ placed ∈ all, ∃ before spelling after,
    t = before ++ spelling ++ after ∧ spelling ∈ placed.token.spellings ∧ spelling ≠ [] ∧
      start + Text.byteSize before = placed.offset := by
  induction spread with
  | done _ => simp
  | @token start gap spelling rest token all _ written nonempty _ ih =>
    intro placed member
    rcases List.mem_cons.mp member with rfl | later
    · exact ⟨gap,spelling,rest,rfl,written,nonempty,rfl⟩
    · obtain ⟨before,other,after,rfl,spelled,some,offset⟩ := ih placed later
      refine ⟨gap ++ spelling ++ before,other,after,by simp,spelled,some,?_⟩
      simp only [Text.byteSize_append]
      omega

end Spread

theorem mem_spellings_of_ofChar {c : Char} {token : Token} (single : Token.ofChar c = some token) :
    [c] ∈ token.spellings := by
  unfold Token.ofChar at single
  split at single <;> first | contradiction | (obtain rfl := Option.some.inj single; decide)

/-- `read` is part of the text that the tokens are spread over: its word is still open. -/
theorem tokensFrom_spread {start stop : Nat} {read t : Text} {all : List Placed}
    (size : stop = start + Text.byteSize read) (result : tokensFrom stop read t = .ok all) :
    Spread start (read.reverse ++ t) all := by
  have dot : '.'.utf8Size = 1 := rfl
  fun_induction tokensFrom stop read t generalizing start all with
  | case1 stop read =>
    obtain rfl := Except.ok.inj result
    have last : Spread stop [] [] := .done (by simp)
    simpa using last.behind_word size
  | case2 stop read rest empty ih =>
    obtain ⟨found,inner,rfl⟩ := map_eq_ok result
    obtain rfl : read = [] := by simpa using empty
    obtain rfl : stop = start := size
    have written : ("..." : Text) ∈ Token.ellipsis.spellings := by decide
    change Spread stop (("..." : Text) ++ rest) _
    exact .here written (by decide) (ih rfl inner)
  | case3 stop read rest nonempty ih =>
    have longer : stop + 3 = start + Text.byteSize ('.' :: '.' :: '.' :: read) := by
      simp only [Text.byteSize,dot]
      omega
    simpa using ih longer result
  | case4 stop read c rest notDots part ih =>
    have longer : stop + c.utf8Size = start + Text.byteSize (c :: read) := by
      rw [Text.byteSize]
      omega
    simpa using ih longer result
  | case5 stop read c rest notDots notPart token single ih =>
    obtain ⟨found,inner,rfl⟩ := map_eq_ok result
    have further : Spread (stop + c.utf8Size) rest found := ih rfl inner
    exact .behind_word size (.here (mem_spellings_of_ofChar single) (by simp) further)
  | case6 stop read c rest notDots notPart notSingle white ih =>
    obtain ⟨found,inner,rfl⟩ := map_eq_ok result
    have further : Spread (stop + c.utf8Size) rest found := ih rfl inner
    exact .behind_word size (.blank white further)
  | case7 => cases result

theorem tokens_spread {t : Text} {all : List Placed} (result : tokens t = .ok all) : Spread 0 t all := by
  have none : 0 = 0 + Text.byteSize [] := rfl
  exact tokensFrom_spread none result

def Begins (sequence : List Token) : Prop :=
  ∃ rest tree, Derives (.union tree) (sequence ++ rest)

/-- What closes all that is open around a complete alternative, the innermost first. -/
def Context.closers : Context → List Token
  | .top => []
  | .group _ outer => .closeParen :: outer.closers
  | .field _ _ _ _ outer => .closeBrace :: outer.closers

/-- What makes a written type of the tokens that were read. Where an alternative has to come, a word
stands for it. -/
def State.completion : State → List Token
  | .alt _ context => .word "nil" :: context.closers
  | .words _ _ context => context.closers
  | .closed _ context => context.closers
  | .entry _ _ _ context => .closeBrace :: context.closers
  | .colon _ _ _ _ context => .colon :: .word "nil" :: .closeBrace :: context.closers
  | .opened _ context => .closeBrace :: context.closers

def Accepts (state : State) (sequence : List Token) : Prop :=
  ∃ last tree, Walks state sequence last ∧ finish last = .ok tree

theorem Accepts.step {state next : State} {token : Token} {rest : List Token}
    (here : Phrase.step state token = .ok next) (accepts : Accepts next rest) :
    Accepts state (token :: rest) := by
  obtain ⟨last,tree,walk,ended⟩ := accepts
  exact ⟨last,tree,.step here walk,ended⟩

/-- A complete alternative is all that is missing inside the brackets that are open. -/
theorem Complete.accepts {context : Context} {trees : List Tree} {state : State}
    (complete : Complete context trees state) : Accepts state context.closers := by
  induction context generalizing trees state with
  | top => exact ⟨state,_,.done,complete.finish⟩
  | group outer context ih =>
    have close : Phrase.step state .closeParen = .ok (.closed (outer ++ [.ofAlts trees]) context) := by
      rw [complete.step (by simp)]
      rfl
    exact .step close (ih .closed)
  | field name fields isOpen outer context ih =>
    exact .step (Filled.field complete).closeBrace (ih .closed)

theorem State.accepts_completion (state : State) : Accepts state state.completion := by
  cases state with
  | alt alts context => exact .step rfl (Complete.accepts .words)
  | words read alts context => exact Complete.accepts .words
  | closed alts context => exact Complete.accepts .closed
  | entry fields isOpen alts context => exact .step rfl (Complete.accepts .closed)
  | colon name fields isOpen alts context =>
    have word : Accepts (.words ["nil"] [] (.field name fields isOpen alts context))
      (.closeBrace :: context.closers) := Complete.accepts .words
    exact .step rfl (.step rfl word)
  | opened alts context => exact .step rfl (Complete.accepts .closed)

theorem Reached.begins {state : State} {sequence : List Token} (reached : Reached state sequence) :
    Begins sequence := by
  obtain ⟨last,tree,walk,ended⟩ := state.accepts_completion
  exact ⟨_,tree,finish_reached (walks_reached reached walk) ended⟩

theorem Walks.begins {state : State} {sequence : List Token} (walk : Walks start sequence state) :
    Begins sequence :=
  Reached.begins (walks_reached (.alt .top .none) walk)

theorem Walks.of_append {a c : State} {first second : List Token} (walk : Walks a (first ++ second) c) :
    ∃ b, Walks a first b ∧ Walks b second c := by
  induction first generalizing a with
  | nil => exact ⟨a,.done,walk⟩
  | cons token first ih =>
    cases walk with
    | step here rest =>
      obtain ⟨b,before,after⟩ := ih rest
      exact ⟨b,.step here before,after⟩

/-- A sentence has to pass the state that its beginning leads to. -/
theorem Walks.not_begins {state : State} {sequence : List Token} {token : Token} {trouble : Trouble}
    (walk : Walks start sequence state) (stuck : Phrase.step state token = .error trouble) :
    ¬Begins (sequence ++ [token]) := by
  rintro ⟨rest,tree,derived⟩
  obtain ⟨trees,last,whole,_,_⟩ := derived.read .top
  rw [List.append_assoc] at whole
  obtain ⟨middle,before,after⟩ := whole.of_append
  obtain rfl := walk.unique before
  cases after with
  | step here _ =>
    rw [stuck] at here
    contradiction

/-- A run fails at the end of the text, or at a token that the state before it does not take. -/
theorem run_eq_error {stop : Nat} {state : State} {all : List Placed} {e : Error}
    (failed : run stop state all = .error e) :
    (e.offset = stop ∧ ∃ last, Walks state (all.map Placed.token) last) ∨
    ∃ before placed after middle trouble, all = before ++ placed :: after ∧
      Walks state (before.map Placed.token) middle ∧ step middle placed.token = .error trouble ∧
      e.offset = placed.offset := by
  induction all generalizing state with
  | nil =>
    rw [run] at failed
    cases ended : finish state with
    | ok tree =>
      rw [ended] at failed
      contradiction
    | error trouble =>
      rw [ended] at failed
      obtain rfl := Except.error.inj failed
      exact Or.inl ⟨rfl,state,.done⟩
  | cons placed rest ih =>
    rw [run] at failed
    split at failed
    · rename_i next here
      rcases ih failed with ⟨offset,last,walk⟩ | ⟨before,misfit,after,middle,trouble,rfl,walk,stuck,offset⟩
      · exact Or.inl ⟨offset,last,.step here walk⟩
      · exact Or.inr ⟨placed :: before,misfit,after,middle,trouble,rfl,.step here walk,stuck,offset⟩
    · rename_i trouble stuck
      obtain rfl := Except.error.inj failed
      exact Or.inr ⟨[],placed,rest,state,trouble,rfl,.done,stuck,rfl⟩

def tokensBefore (offset : Nat) (all : List Placed) : List Token :=
  (all.filter (·.offset < offset)).map Placed.token

theorem tokensBefore_placed {before after : List Placed} {placed : Placed}
    (lower : ∀ other ∈ before, other.offset < placed.offset)
    (higher : ∀ other ∈ after, placed.offset < other.offset) :
    tokensBefore placed.offset (before ++ placed :: after) = before.map Placed.token := by
  have kept : before.filter (·.offset < placed.offset) = before :=
    List.filter_eq_self.mpr (by simpa using lower)
  have dropped : (placed :: after).filter (·.offset < placed.offset) = [] := by
    apply List.filter_eq_nil_iff.mpr
    intro other member
    rw [decide_eq_true_eq]
    rcases List.mem_cons.mp member with rfl | later
    · omega
    · have := higher other later
      omega
  rw [tokensBefore,List.filter_append,kept,dropped,List.append_nil]

/-- An error of a text that is made of tokens is at a token or at the end of the text. The tokens
before it begin a sentence of the grammar, and with the token at the error they begin none. -/
theorem error_at_first_misfit {t : Text} {all : List Placed} {e : Error} (cut : tokens t = .ok all)
    (failed : parse t = .error e) :
    ((∃ placed ∈ all, placed.offset = e.offset ∧ placed.StandsIn t) ∨ e.offset = Text.byteSize t) ∧
    Begins (tokensBefore e.offset all) ∧
    ∀ placed ∈ all, placed.offset = e.offset →
      ¬Begins (tokensBefore e.offset all ++ [placed.token]) := by
  have spread := tokens_spread cut
  have ran : run (Text.byteSize t) start all = .error e := by
    simpa [parse,cut,bind,Except.bind] using failed
  rcases run_eq_error ran with ⟨offset,last,walk⟩ |
    ⟨before,misfit,after,middle,trouble,rfl,walk,stuck,offset⟩
  · have inside : ∀ placed ∈ all, placed.offset < e.offset := by
      intro placed member
      have := (spread.bounds placed member).2
      omega
    have whole : tokensBefore e.offset all = all.map Placed.token := by
      rw [tokensBefore,List.filter_eq_self.mpr fun placed member => by simpa using inside placed member]
    refine ⟨Or.inr offset,whole ▸ walk.begins,fun placed member same => ?_⟩
    have := inside placed member
    omega
  · obtain ⟨lower,higher⟩ := spread.around
    have member : misfit ∈ before ++ misfit :: after := by simp
    have front : tokensBefore e.offset (before ++ misfit :: after) = before.map Placed.token := by
      rw [offset]
      exact tokensBefore_placed lower higher
    obtain ⟨u,spelling,v,text,written,nonempty,place⟩ := spread.standsIn misfit member
    rw [front]
    refine ⟨Or.inl ⟨misfit,member,offset.symm,u,spelling,v,text,written,nonempty,by omega⟩,walk.begins,?_⟩
    intro placed among same
    -- offsets increase, so no other token is at the error
    rcases List.mem_append.mp among with early | late
    · have := lower placed early
      omega
    · rcases List.mem_cons.mp late with rfl | later
      · exact walk.not_begins stuck
      · have := higher placed later
        omega

def unclosed : Text := "\x7b..., a: (é or b\x7d | c"

theorem unclosed_misfit : ∃ all, tokens unclosed = .ok all ∧
    parse unclosed = .error ⟨.expectedCloseParen, 17⟩ ∧
    (∃ placed ∈ all, placed.offset = 17 ∧ placed.StandsIn unclosed) ∧
    Begins (tokensBefore 17 all) ∧ ¬Begins (tokensBefore 17 all ++ [.closeBrace]) := by
  have cut : tokens unclosed = .ok [⟨.openBrace, 0⟩, ⟨.ellipsis, 1⟩, ⟨.comma, 4⟩, ⟨.word "a", 6⟩,
    ⟨.colon, 7⟩, ⟨.openParen, 9⟩, ⟨.word "é", 10⟩, ⟨.or, 13⟩, ⟨.word "b", 16⟩, ⟨.closeBrace, 17⟩,
    ⟨.or, 19⟩, ⟨.word "c", 21⟩] := rfl
  have failed : parse unclosed = .error ⟨.expectedCloseParen, 17⟩ := rfl
  obtain ⟨place,begins,misfit⟩ := error_at_first_misfit cut failed
  refine ⟨_,cut,failed,place.resolve_right (by decide),begins,?_⟩
  exact misfit ⟨.closeBrace, 17⟩ (by simp) rfl

end Phrase
end LuaStubs
