import LuaStubs.Phrase.Tree

/-! The grammar of written types, as derivations of token sequences, and the automaton held against
it. What is derived is accepted with the tree that is derived; what is accepted is derived. -/
namespace LuaStubs.Phrase

inductive Part where
  | union (tree : Tree)
  | alts (trees : List Tree)
  | alt (tree : Tree)
  | entries (fields : List (Text × Tree)) (isOpen : Bool)

/-- The rules of the grammar. A union of one alternative and a group stand for their content, and an
ellipsis is an entry only where no entry is before it. -/
inductive Derives : Part → List Token → Prop where
  | one {tree : Tree} {tokens : List Token} :
      Derives (.alts [tree]) tokens → Derives (.union tree) tokens
  | several {trees : List Tree} {tokens : List Token} : 2 ≤ trees.length →
      Derives (.alts trees) tokens → Derives (.union (.union trees)) tokens
  | firstAlt {tree : Tree} {tokens : List Token} :
      Derives (.alt tree) tokens → Derives (.alts [tree]) tokens
  | nextAlt {trees : List Tree} {tree : Tree} {tokens more : List Token} :
      Derives (.alts trees) tokens → Derives (.alt tree) more →
      Derives (.alts (trees ++ [tree])) (tokens ++ .or :: more)
  | phrase {words : List Text} : words ≠ [] →
      Derives (.alt (.phrase (Text.join " " words))) (words.map .word)
  | group {tree : Tree} {tokens : List Token} : Derives (.union tree) tokens →
      Derives (.alt tree) (.openParen :: tokens ++ [.closeParen])
  | emptyTable : Derives (.alt (.table [] false)) [.openBrace, .closeBrace]
  | table {fields : List (Text × Tree)} {isOpen : Bool} {tokens : List Token} :
      Derives (.entries fields isOpen) tokens →
      Derives (.alt (.table fields isOpen)) (.openBrace :: tokens ++ [.closeBrace])
  | tableComma {fields : List (Text × Tree)} {isOpen : Bool} {tokens : List Token} :
      Derives (.entries fields isOpen) tokens →
      Derives (.alt (.table fields isOpen)) (.openBrace :: tokens ++ [.comma, .closeBrace])
  | ellipsis : Derives (.entries [] true) [.ellipsis]
  | firstField {name : Text} {tree : Tree} {tokens : List Token} : Derives (.union tree) tokens →
      Derives (.entries [(name, tree)] false) (.word name :: .colon :: tokens)
  | nextField {fields : List (Text × Tree)} {isOpen : Bool} {name : Text} {tree : Tree}
      {tokens more : List Token} :
      Derives (.entries fields isOpen) tokens → Derives (.union tree) more →
      Derives (.entries (fields ++ [(name, tree)]) isOpen)
        (tokens ++ .comma :: .word name :: .colon :: more)

inductive Walks : State → List Token → State → Prop where
  | done {state : State} : Walks state [] state
  | step {state next last : State} {token : Token} {rest : List Token} :
      step state token = .ok next → Walks next rest last → Walks state (token :: rest) last

namespace Walks

variable {a b c : State} {tokens more : List Token}

theorem append (first : Walks a tokens b) (second : Walks b more c) :
    Walks a (tokens ++ more) c := by
  induction first with
  | done => exact second
  | step here _ ih => exact .step here (ih second)

theorem then_step {token : Token} (first : Walks a tokens b) (last : Phrase.step b token = .ok c) :
    Walks a (tokens ++ [token]) c :=
  first.append (.step last .done)

/-- The automaton has one way to go. -/
theorem unique (first : Walks a tokens b) (second : Walks a tokens c) : b = c := by
  induction first with
  | done => cases second; rfl
  | step here _ ih =>
    cases second with
    | step there rest =>
      rw [here] at there
      cases there
      exact ih rest

end Walks

theorem run_eq_ok_iff {stop : Nat} {state : State} {all : List Placed} {tree : Tree} :
    run stop state all = .ok tree ↔
      ∃ last, Walks state (all.map Placed.token) last ∧ finish last = .ok tree := by
  induction all generalizing state with
  | nil =>
    constructor
    · intro result
      cases ended : finish state with
      | error trouble =>
        rw [run,ended] at result
        cases result
      | ok found =>
        rw [run,ended] at result
        cases result
        exact ⟨state,.done,ended⟩
    · rintro ⟨last,walk,ended⟩
      cases walk
      rw [run,ended]
      rfl
  | cons placed rest ih =>
    rw [run,List.map_cons]
    constructor
    · intro result
      split at result
      · rename_i next stepped
        obtain ⟨last,walk,ended⟩ := ih.mp result
        exact ⟨last,.step stepped walk,ended⟩
      · contradiction
    · rintro ⟨last,walk,ended⟩
      cases walk with
      | step stepped walk =>
        rw [stepped]
        exact ih.mpr ⟨last,walk,ended⟩

/-- An alternative is complete; `trees` are those of its union so far. -/
inductive Complete (context : Context) : List Tree → State → Prop where
  | closed {trees : List Tree} : Complete context trees (.closed trees context)
  | words {trees : List Tree} {read : List Text} :
      Complete context (trees ++ [.phrase (Text.join " " read)]) (.words read trees context)

namespace Complete

variable {context : Context} {trees : List Tree} {state : State}

theorem step {token : Token} (complete : Complete context trees state)
    (noWord : ∀ w, token ≠ .word w) : step state token = afterAlt trees context token := by
  cases complete with
  | closed => rfl
  | words =>
    cases token with
    | word w => exact absurd rfl (noWord w)
    | _ => rfl

theorem finish (complete : Complete context trees state) :
    finish state = endAfterAlt trees context := by
  cases complete <;> rfl

theorem or (complete : Complete context trees state) :
    Phrase.step state .or = .ok (.alt trees context) := by
  rw [complete.step (by simp)]
  cases context <;> rfl

end Complete

/-- An entry of a table is complete; `fields` are those of the table so far. -/
inductive Filled (outer : List Tree) (context : Context) :
    List (Text × Tree) → Bool → State → Prop where
  | opened : Filled outer context [] true (.opened outer context)
  | field {name : Text} {fields : List (Text × Tree)} {isOpen : Bool} {trees : List Tree}
      {state : State} : Complete (.field name fields isOpen outer context) trees state →
      Filled outer context (fields ++ [(name, .ofAlts trees)]) isOpen state

namespace Filled

variable {outer : List Tree} {context : Context} {fields : List (Text × Tree)} {isOpen : Bool}
  {state : State}

theorem comma (filled : Filled outer context fields isOpen state) :
    step state .comma = .ok (.entry fields isOpen outer context) := by
  cases filled with
  | opened => rfl
  | field complete => rw [complete.step (by simp)]; rfl

theorem closeBrace (filled : Filled outer context fields isOpen state) :
    step state .closeBrace = .ok (.closed (outer ++ [.table fields isOpen]) context) := by
  cases filled with
  | opened => rfl
  | field complete => rw [complete.step (by simp)]; rfl

end Filled

theorem walks_words (read words : List Text) (trees : List Tree) (context : Context) :
    Walks (.words read trees context) (words.map .word) (.words (read ++ words) trees context) := by
  induction words generalizing read with
  | nil => simpa using .done
  | cons w words ih =>
    refine .step rfl ?_
    simpa using ih (read ++ [w])

/-- What the automaton does with the tokens of a part, in any context. -/
def Part.Read : Part → List Token → Prop
  | .union tree, tokens => ∀ context, ∃ trees state,
      Walks (.alt [] context) tokens state ∧ Complete context trees state ∧ .ofAlts trees = tree
  | .alts trees, tokens => ∀ context, ∃ state,
      Walks (.alt [] context) tokens state ∧ Complete context trees state
  | .alt tree, tokens => ∀ trees context, ∃ state,
      Walks (.alt trees context) tokens state ∧ Complete context (trees ++ [tree]) state
  | .entries fields isOpen, tokens => ∀ outer context, ∃ state,
      Walks (.entry [] false outer context) tokens state ∧ Filled outer context fields isOpen state

theorem Derives.read {part : Part} {tokens : List Token} (derived : Derives part tokens) :
    part.Read tokens := by
  induction derived with
  | @one tree tokens _ ih =>
    intro context
    obtain ⟨state,walk,complete⟩ := ih context
    exact ⟨[tree],state,walk,complete,rfl⟩
  | @several trees tokens many _ ih =>
    intro context
    obtain ⟨state,walk,complete⟩ := ih context
    refine ⟨trees,state,walk,complete,?_⟩
    cases trees with
    | nil => simp at many
    | cons first rest =>
      cases rest with
      | nil => simp at many
      | cons second rest => rfl
  | firstAlt _ ih => exact fun context => ih [] context
  | nextAlt _ _ before alt =>
    intro context
    obtain ⟨state,walk,complete⟩ := before context
    obtain ⟨last,more,ended⟩ := alt _ context
    exact ⟨last,walk.append (.step complete.or more),ended⟩
  | @phrase words nonempty =>
    intro trees context
    obtain ⟨first,rest,rfl⟩ := List.exists_cons_of_ne_nil nonempty
    exact ⟨_,.step rfl (walks_words [first] rest trees context),.words⟩
  | group _ ih =>
    intro trees context
    obtain ⟨inner,state,walk,complete,rfl⟩ := ih (.group trees context)
    have close : step state .closeParen = .ok (.closed (trees ++ [.ofAlts inner]) context) := by
      rw [complete.step (by simp)]
      rfl
    exact ⟨_,.step rfl (walk.then_step close),.closed⟩
  | emptyTable => exact fun trees context => ⟨_,.step rfl (.step rfl .done),.closed⟩
  | table _ ih =>
    intro trees context
    obtain ⟨state,walk,filled⟩ := ih trees context
    exact ⟨_,.step rfl (walk.then_step filled.closeBrace),.closed⟩
  | tableComma _ ih =>
    intro trees context
    obtain ⟨state,walk,filled⟩ := ih trees context
    exact ⟨_,.step rfl (walk.append (.step filled.comma (.step rfl .done))),.closed⟩
  | ellipsis => exact fun outer context => ⟨_,.step rfl .done,.opened⟩
  | @firstField name tree tokens _ ih =>
    intro outer context
    obtain ⟨trees,state,walk,complete,rfl⟩ := ih (.field name [] false outer context)
    exact ⟨state,.step rfl (.step rfl walk),.field complete⟩
  | @nextField fields isOpen name tree tokens more _ _ before field =>
    intro outer context
    obtain ⟨state,walk,filled⟩ := before outer context
    obtain ⟨trees,last,rest,complete,rfl⟩ := field (.field name fields isOpen outer context)
    exact ⟨last,walk.append (.step filled.comma (.step rfl (.step rfl rest))),.field complete⟩

inductive Started : List Tree → List Token → Prop where
  | none : Started [] []
  | some {trees : List Tree} {tokens : List Token} : Derives (.alts trees) tokens →
      Started trees (tokens ++ [.or])

inductive Begun : List (Text × Tree) → Bool → List Token → Prop where
  | none : Begun [] false []
  | some {fields : List (Text × Tree)} {isOpen : Bool} {tokens : List Token} :
      Derives (.entries fields isOpen) tokens → Begun fields isOpen (tokens ++ [.comma])

/-- The tokens before the union that is being read. -/
inductive Around : Context → List Token → Prop where
  | top : Around .top []
  | group {context : Context} {trees : List Tree} {before alts : List Token} :
      Around context before → Started trees alts →
      Around (.group trees context) (before ++ alts ++ [.openParen])
  | field {context : Context} {trees : List Tree} {name : Text} {fields : List (Text × Tree)}
      {isOpen : Bool} {before alts entries : List Token} :
      Around context before → Started trees alts → Begun fields isOpen entries →
      Around (.field name fields isOpen trees context)
        (before ++ alts ++ .openBrace :: entries ++ [.word name, .colon])

inductive Reached : State → List Token → Prop where
  | alt {context : Context} {trees : List Tree} {before alts : List Token} :
      Around context before → Started trees alts → Reached (.alt trees context) (before ++ alts)
  | words {context : Context} {trees : List Tree} {read : List Text} {before alts : List Token} :
      Around context before → Started trees alts → read ≠ [] →
      Reached (.words read trees context) (before ++ alts ++ read.map .word)
  | closed {context : Context} {trees : List Tree} {before alts : List Token} :
      Around context before → Derives (.alts trees) alts →
      Reached (.closed trees context) (before ++ alts)
  | entry {context : Context} {trees : List Tree} {fields : List (Text × Tree)} {isOpen : Bool}
      {before alts entries : List Token} :
      Around context before → Started trees alts → Begun fields isOpen entries →
      Reached (.entry fields isOpen trees context) (before ++ alts ++ .openBrace :: entries)
  | colon {context : Context} {trees : List Tree} {name : Text} {fields : List (Text × Tree)}
      {isOpen : Bool} {before alts entries : List Token} :
      Around context before → Started trees alts → Begun fields isOpen entries →
      Reached (.colon name fields isOpen trees context)
        (before ++ alts ++ .openBrace :: entries ++ [.word name])
  | opened {context : Context} {trees : List Tree} {before alts : List Token} :
      Around context before → Started trees alts →
      Reached (.opened trees context) (before ++ alts ++ [.openBrace, .ellipsis])

theorem Started.alt {trees : List Tree} {tree : Tree} {alts tokens : List Token}
    (started : Started trees alts) (derived : Derives (.alt tree) tokens) :
    Derives (.alts (trees ++ [tree])) (alts ++ tokens) := by
  cases started with
  | none => exact .firstAlt derived
  | some before => simpa using Derives.nextAlt before derived

theorem Begun.field {fields : List (Text × Tree)} {isOpen : Bool} {tree : Tree}
    {entries tokens : List Token} (begun : Begun fields isOpen entries) (name : Text)
    (derived : Derives (.union tree) tokens) :
    Derives (.entries (fields ++ [(name, tree)]) isOpen)
      (entries ++ .word name :: .colon :: tokens) := by
  cases begun with
  | none => exact .firstField derived
  | some before => simpa using Derives.nextField before derived

theorem Begun.table {fields : List (Text × Tree)} {isOpen : Bool} {entries : List Token}
    (begun : Begun fields isOpen entries) :
    Derives (.alt (.table fields isOpen)) (.openBrace :: entries ++ [.closeBrace]) := by
  cases begun with
  | none => exact .emptyTable
  | some before => simpa using Derives.tableComma before

theorem Derives.alts_ne_nil {trees : List Tree} {tokens : List Token}
    (derived : Derives (.alts trees) tokens) : trees ≠ [] := by
  cases derived <;> simp

theorem Derives.ofAlts {trees : List Tree} {tokens : List Token}
    (derived : Derives (.alts trees) tokens) : Derives (.union (.ofAlts trees)) tokens := by
  cases trees with
  | nil => exact absurd rfl derived.alts_ne_nil
  | cons first rest =>
    cases rest with
    | nil => exact .one derived
    | cons second rest => exact .several (by simp) derived

theorem afterAlt_reached {trees : List Tree} {context : Context} {token : Token} {next : State}
    {before alts : List Token} (around : Around context before) (derived : Derives (.alts trees) alts)
    (result : afterAlt trees context token = .ok next) : Reached next (before ++ alts ++ [token]) := by
  cases around with
  | top =>
    cases token <;> simp only [afterAlt] at result
    case or => cases result; simpa using Reached.alt .top (.some derived)
    all_goals contradiction
  | group further started =>
    cases token <;> simp only [afterAlt] at result
    case or => cases result; simpa using Reached.alt (.group further started) (.some derived)
    case closeParen =>
      cases result
      simpa using Reached.closed further (started.alt (.group derived.ofAlts))
    all_goals contradiction
  | @field _ _ name _ _ _ _ _ further started begun =>
    have entries := begun.field name derived.ofAlts
    cases token <;> simp only [afterAlt] at result
    case or => cases result; simpa using Reached.alt (.field further started begun) (.some derived)
    case comma => cases result; simpa using Reached.entry further started (.some entries)
    case closeBrace =>
      cases result
      simpa using Reached.closed further (started.alt (.table entries))
    all_goals contradiction

/-- Each step adds its token to those that lead to the state. -/
theorem step_reached {state next : State} {token : Token} {tokens : List Token}
    (reached : Reached state tokens) (result : step state token = .ok next) :
    Reached next (tokens ++ [token]) := by
  cases reached with
  | alt around started =>
    cases token <;> simp only [step] at result
    case word w => cases result; exact .words around started (List.cons_ne_nil w [])
    case openParen => cases result; simpa using Reached.alt (.group around started) .none
    case openBrace => cases result; exact .entry around started .none
    all_goals contradiction
  | @words _ _ read _ _ around started nonempty =>
    have derived := started.alt (.phrase nonempty)
    cases token <;> simp only [step] at result
    case word w =>
      cases result
      have more : read ++ [w] ≠ [] := by simp
      simpa using Reached.words around started more
    all_goals simpa using afterAlt_reached around derived result
  | closed around derived => exact afterAlt_reached around derived result
  | entry around started begun =>
    cases token <;> simp only [step] at result
    case closeBrace =>
      cases result
      simpa using Reached.closed around (started.alt begun.table)
    case ellipsis =>
      split at result
      · rename_i first
        cases begun with
        | none => cases result; simpa using Reached.opened around started
        | some derived =>
          -- an entry was read, so there is a field or the table is open
          cases derived <;> simp at first
      · contradiction
    case word name => cases result; exact .colon around started begun
    all_goals contradiction
  | colon around started begun =>
    cases token <;> simp only [step] at result
    case colon => cases result; simpa using Reached.alt (.field around started begun) .none
    all_goals contradiction
  | opened around started =>
    cases token <;> simp only [step] at result
    case comma => cases result; simpa using Reached.entry around started (.some .ellipsis)
    case closeBrace =>
      cases result
      simpa using Reached.closed around (started.alt (.table .ellipsis))
    all_goals contradiction

theorem walks_reached {state last : State} {before tokens : List Token}
    (reached : Reached state before) (walk : Walks state tokens last) :
    Reached last (before ++ tokens) := by
  induction walk generalizing before with
  | done => simpa using reached
  | step here _ ih => simpa using ih (step_reached reached here)

theorem finish_reached {state : State} {tokens : List Token} {tree : Tree}
    (reached : Reached state tokens) (result : finish state = .ok tree) :
    Derives (.union tree) tokens := by
  have ends {context : Context} {trees : List Tree} {before alts : List Token}
      (around : Around context before) (derived : Derives (.alts trees) alts)
      (result : endAfterAlt trees context = .ok tree) : Derives (.union tree) (before ++ alts) := by
    cases around with
    | top => cases result; exact derived.ofAlts
    | _ => contradiction
  cases reached with
  | words around started nonempty =>
    simpa using ends around (started.alt (.phrase nonempty)) result
  | closed around derived => exact ends around derived result
  | _ => contradiction

theorem run_eq_ok_iff_derives {stop : Nat} {all : List Placed} {tree : Tree} :
    run stop start all = .ok tree ↔ Derives (.union tree) (all.map Placed.token) := by
  rw [run_eq_ok_iff]
  constructor
  · rintro ⟨last,walk,ended⟩
    exact finish_reached (walks_reached (.alt .top .none) walk) ended
  · intro derived
    obtain ⟨trees,last,walk,complete,rfl⟩ := derived.read .top
    exact ⟨last,walk,complete.finish⟩

theorem parse_eq_ok_iff {t : Text} {tree : Tree} : parse t = .ok tree ↔
    ∃ all, tokens t = .ok all ∧ Derives (.union tree) (all.map Placed.token) := by
  cases cut : tokens t with
  | error e => simp [parse,cut,bind,Except.bind]
  | ok all => simp [parse,cut,bind,Except.bind,run_eq_ok_iff_derives]

/-- The automaton ends in one state, and that tells the tree. -/
theorem Derives.unique {sequence : List Token} {tree other : Tree}
    (first : Derives (.union tree) sequence) (second : Derives (.union other) sequence) :
    tree = other := by
  obtain ⟨trees,last,walk,complete,rfl⟩ := first.read .top
  obtain ⟨others,stop,again,ended,rfl⟩ := second.read .top
  obtain rfl := walk.unique again
  exact Except.ok.inj (complete.finish.symm.trans ended.finish)

/-- A text is read as a tree exactly where its tokens derive the tree, and tokens derive one tree at
most. -/
theorem parse_exactly_derives :
    (∀ t tree, parse t = .ok tree ↔
      ∃ all, tokens t = .ok all ∧ Derives (.union tree) (all.map Placed.token)) ∧
    ∀ sequence tree other, Derives (.union tree) sequence → Derives (.union other) sequence →
      tree = other :=
  ⟨fun _ _ => parse_eq_ok_iff,fun _ _ _ first second => first.unique second⟩

end LuaStubs.Phrase
