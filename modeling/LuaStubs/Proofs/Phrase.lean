import LuaStubs.Phrase.Tree
import LuaStubs.Proofs.Text

/-! What the trees of written types are made of. Phrases and field names consist of words, and a word
is never the one that separates alternatives. -/
namespace LuaStubs.Phrase

structure IsWord (w : Text) : Prop where
  nonempty : w ≠ []
  parts : ∀ c ∈ w, isWordPart c = true
  notOr : w ≠ ("or" : Text)

theorem map_eq_ok {f : α → β} {x : Except ε α} {b : β} (result : f <$> x = .ok b) :
    ∃ a, x = .ok a ∧ f a = b := by
  cases x with
  | error e => cases result
  | ok a => exact ⟨a,rfl,Except.ok.inj result⟩

theorem mem_endWord {stop : Nat} {read w : Text} {placed : Placed} (member : placed ∈ endWord stop read)
    (isWord : placed.token = .word w) : read ≠ [] ∧ w = read.reverse ∧ w ≠ ("or" : Text) := by
  unfold endWord at member
  split at member
  · simp at member
  · rename_i nonempty
    obtain rfl := List.mem_singleton.mp member
    simp only [Token.ofWord] at isWord
    split at isWord
    · contradiction
    · rename_i notOr
      obtain rfl := Token.word.inj isWord
      exact ⟨by simpa using nonempty,rfl,notOr⟩

theorem endWord_words {stop : Nat} {read w : Text} {placed : Placed}
    (parts : ∀ c ∈ read, isWordPart c = true) (member : placed ∈ endWord stop read)
    (isWord : placed.token = .word w) : IsWord w := by
  obtain ⟨nonempty,rfl,notOr⟩ := mem_endWord member isWord
  exact ⟨by simpa using nonempty,fun c inside => parts c (List.mem_reverse.mp inside),notOr⟩

/-- `read` holds the characters of the open word, so they stay word parts at every step. -/
theorem tokensFrom_words {start : Nat} {read t w : Text} {all : List Placed} {placed : Placed}
    (parts : ∀ c ∈ read, isWordPart c = true) (result : tokensFrom start read t = .ok all)
    (member : placed ∈ all) (isWord : placed.token = .word w) : IsWord w := by
  have none : ∀ c ∈ ([] : Text), isWordPart c = true := by simp
  have dot : isWordPart '.' = true := by decide
  fun_induction tokensFrom start read t generalizing all with
  | case1 start read =>
    obtain rfl := Except.ok.inj result
    exact endWord_words parts member isWord
  | case2 start read rest empty ih =>
    obtain ⟨found,inner,rfl⟩ := map_eq_ok result
    rcases List.mem_cons.mp member with rfl | later
    · simp at isWord
    · exact ih none inner later
  | case3 start read rest nonempty ih =>
    refine ih ?_ result member
    simpa [dot] using parts
  | case4 start read c rest notDots part ih =>
    refine ih ?_ result member
    simpa [part] using parts
  | case5 start read c rest notDots notPart token single ih =>
    obtain ⟨found,inner,rfl⟩ := map_eq_ok result
    rcases List.mem_append.mp member with word | further
    · exact endWord_words parts word isWord
    · rcases List.mem_cons.mp further with rfl | later
      · simp only at isWord
        subst isWord
        unfold Token.ofChar at single
        split at single <;> simp at single
      · exact ih none inner later
  | case6 start read c rest notDots notPart notSingle blank ih =>
    obtain ⟨found,inner,rfl⟩ := map_eq_ok result
    rcases List.mem_append.mp member with word | later
    · exact endWord_words parts word isWord
    · exact ih none inner later
  | case7 => cases result

theorem tokens_words {t w : Text} {all : List Placed} {placed : Placed}
    (result : tokens t = .ok all) (member : placed ∈ all) (isWord : placed.token = .word w) :
    IsWord w :=
  tokensFrom_words (by simp) result member isWord

namespace Tree

/-- The tree of a text that was read: its phrases and field names are made of words, and its unions
have several alternatives. -/
inductive Worded : Tree → Prop where
  | phrase {read : List Text} : read ≠ [] → (∀ w ∈ read, IsWord w) →
      Worded (.phrase (Text.join " " read))
  | union {alts : List Tree} : 2 ≤ alts.length → (∀ alt ∈ alts, Worded alt) → Worded (.union alts)
  | table {fields : List (Text × Tree)} {isOpen : Bool} : (∀ field ∈ fields, IsWord field.1) →
      (∀ field ∈ fields, Worded field.2) → Worded (.table fields isOpen)

theorem ofAlts_worded {alts : List Tree} (nonempty : alts ≠ []) (all : ∀ alt ∈ alts, Worded alt) :
    Worded (ofAlts alts) := by
  cases alts with
  | nil => contradiction
  | cons first rest =>
    cases rest with
    | nil => exact all first (by simp)
    | cons second rest => exact .union (by simp) all

mutual
def phrases : Tree → List Text
  | .phrase text => [text]
  | .union alts => phrasesOfAll alts
  | .table fields _ => phrasesOfFields fields

def phrasesOfAll : List Tree → List Text
  | [] => []
  | alt :: rest => phrases alt ++ phrasesOfAll rest

def phrasesOfFields : List (Text × Tree) → List Text
  | [] => []
  | field :: rest => phrasesOfField field ++ phrasesOfFields rest

def phrasesOfField : Text × Tree → List Text
  | (_, tree) => phrases tree
end

theorem mem_phrases_union {alts : List Tree} {p : Text} :
    p ∈ (Tree.union alts).phrases ↔ ∃ alt ∈ alts, p ∈ alt.phrases := by
  rw [phrases]
  induction alts with
  | nil => simp [phrasesOfAll]
  | cons first rest ih => simp [phrasesOfAll,ih]

theorem mem_phrases_table {fields : List (Text × Tree)} {isOpen : Bool} {p : Text} :
    p ∈ (Tree.table fields isOpen).phrases ↔ ∃ field ∈ fields, p ∈ field.2.phrases := by
  rw [phrases]
  induction fields with
  | nil => simp [phrasesOfFields]
  | cons first rest ih =>
    obtain ⟨name,tree⟩ := first
    simp [phrasesOfFields,phrasesOfField,ih]

theorem Worded.phrase_words {tree : Tree} (worded : tree.Worded) {p : Text}
    (member : p ∈ tree.phrases) :
    ∃ read : List Text, read ≠ [] ∧ (∀ w ∈ read, IsWord w) ∧ p = Text.join " " read := by
  induction worded with
  | @phrase read nonempty words =>
    exact ⟨read,nonempty,words,by simpa [phrases] using member⟩
  | @union alts _ _ ih =>
    obtain ⟨alt,among,inside⟩ := mem_phrases_union.mp member
    exact ih alt among inside
  | @table fields isOpen _ _ ih =>
    obtain ⟨field,among,inside⟩ := mem_phrases_table.mp member
    exact ih field among inside

end Tree

def AllWorded (alts : List Tree) : Prop := ∀ alt ∈ alts, alt.Worded

def FieldsWorded (fields : List (Text × Tree)) : Prop :=
  ∀ field ∈ fields, IsWord field.1 ∧ field.2.Worded

def Context.Worded : Context → Prop
  | .top => True
  | .group alts outer => AllWorded alts ∧ outer.Worded
  | .field name fields _ alts outer =>
    IsWord name ∧ FieldsWorded fields ∧ AllWorded alts ∧ outer.Worded

def State.Worded : State → Prop
  | .alt alts context => AllWorded alts ∧ context.Worded
  | .words read alts context =>
    (read ≠ [] ∧ ∀ w ∈ read, IsWord w) ∧ AllWorded alts ∧ context.Worded
  | .closed alts context => alts ≠ [] ∧ AllWorded alts ∧ context.Worded
  | .entry fields _ alts context => FieldsWorded fields ∧ AllWorded alts ∧ context.Worded
  | .colon name fields _ alts context =>
    IsWord name ∧ FieldsWorded fields ∧ AllWorded alts ∧ context.Worded
  | .opened alts context => AllWorded alts ∧ context.Worded

theorem allWorded_concat {alts : List Tree} {alt : Tree} (all : AllWorded alts)
    (last : alt.Worded) : AllWorded (alts ++ [alt]) := by
  intro other member
  rcases List.mem_append.mp member with earlier | same
  · exact all other earlier
  · exact List.mem_singleton.mp same ▸ last

theorem fieldsWorded_concat {fields : List (Text × Tree)} {name : Text} {tree : Tree}
    (all : FieldsWorded fields) (word : IsWord name) (last : tree.Worded) :
    FieldsWorded (fields ++ [(name, tree)]) := by
  intro other member
  rcases List.mem_append.mp member with earlier | same
  · exact all other earlier
  · exact List.mem_singleton.mp same ▸ ⟨word,last⟩

theorem table_worded {fields : List (Text × Tree)} {isOpen : Bool} (all : FieldsWorded fields) :
    (Tree.table fields isOpen).Worded :=
  .table (fun field member => (all field member).1) (fun field member => (all field member).2)

theorem afterAlt_worded {alts : List Tree} {context : Context} {token : Token} {next : State}
    (nonempty : alts ≠ []) (all : AllWorded alts) (around : context.Worded)
    (result : afterAlt alts context token = .ok next) : next.Worded := by
  have tree := Tree.ofAlts_worded nonempty all
  cases context with
  | top =>
    cases token <;> simp only [afterAlt] at result
    case or => exact Except.ok.inj result ▸ ⟨all,around⟩
    all_goals contradiction
  | group outer context =>
    cases token <;> simp only [afterAlt] at result
    case or => exact Except.ok.inj result ▸ ⟨all,around⟩
    case closeParen =>
      exact Except.ok.inj result ▸ ⟨by simp,allWorded_concat around.1 tree,around.2⟩
    all_goals contradiction
  | field name fields isOpen outer context =>
    obtain ⟨word,before,others,further⟩ := around
    have fieldsNow := fieldsWorded_concat before word tree
    cases token <;> simp only [afterAlt] at result
    case or => exact Except.ok.inj result ▸ ⟨all,word,before,others,further⟩
    case comma => exact Except.ok.inj result ▸ ⟨fieldsNow,others,further⟩
    case closeBrace =>
      exact Except.ok.inj result ▸
        ⟨by simp,allWorded_concat others (table_worded fieldsNow),further⟩
    all_goals contradiction

theorem step_worded {state next : State} {token : Token} (valid : state.Worded)
    (words : ∀ w, token = .word w → IsWord w) (result : step state token = .ok next) :
    next.Worded := by
  cases state with
  | alt alts context =>
    cases token <;> simp only [step] at result
    case word w =>
      exact Except.ok.inj result ▸ ⟨⟨by simp,by simpa using words w rfl⟩,valid.1,valid.2⟩
    case openParen => exact Except.ok.inj result ▸ ⟨by simp [AllWorded],valid.1,valid.2⟩
    case openBrace => exact Except.ok.inj result ▸ ⟨by simp [FieldsWorded],valid.1,valid.2⟩
    all_goals contradiction
  | words read alts context =>
    obtain ⟨⟨nonempty,parts⟩,all,around⟩ := valid
    have alt : AllWorded (alts ++ [.phrase (Text.join " " read)]) :=
      allWorded_concat all (.phrase nonempty parts)
    cases token <;> simp only [step] at result
    case word w =>
      refine Except.ok.inj result ▸ ⟨⟨by simp,?_⟩,all,around⟩
      intro other member
      rcases List.mem_append.mp member with earlier | same
      · exact parts other earlier
      · exact List.mem_singleton.mp same ▸ words w rfl
    all_goals exact afterAlt_worded (by simp) alt around result
  | closed alts context =>
    obtain ⟨nonempty,all,around⟩ := valid
    exact afterAlt_worded nonempty all around result
  | entry fields isOpen alts context =>
    obtain ⟨before,all,around⟩ := valid
    cases token <;> simp only [step] at result
    case closeBrace =>
      exact Except.ok.inj result ▸ ⟨by simp,allWorded_concat all (table_worded before),around⟩
    case ellipsis =>
      split at result
      · exact Except.ok.inj result ▸ ⟨all,around⟩
      · contradiction
    case word name => exact Except.ok.inj result ▸ ⟨words name rfl,before,all,around⟩
    all_goals contradiction
  | colon name fields isOpen alts context =>
    cases token <;> simp only [step] at result
    case colon => exact Except.ok.inj result ▸ ⟨by simp [AllWorded],valid⟩
    all_goals contradiction
  | opened alts context =>
    have empty : FieldsWorded [] := by simp [FieldsWorded]
    cases token <;> simp only [step] at result
    case comma => exact Except.ok.inj result ▸ ⟨empty,valid.1,valid.2⟩
    case closeBrace =>
      exact Except.ok.inj result ▸ ⟨by simp,allWorded_concat valid.1 (table_worded empty),valid.2⟩
    all_goals contradiction

theorem finish_worded {state : State} {tree : Tree} (valid : state.Worded)
    (result : finish state = .ok tree) : tree.Worded := by
  have ends {alts : List Tree} {context : Context} (nonempty : alts ≠ []) (all : AllWorded alts)
      (result : endAfterAlt alts context = .ok tree) : tree.Worded := by
    cases context <;> simp only [endAfterAlt] at result
    case top => exact Except.ok.inj result ▸ Tree.ofAlts_worded nonempty all
    all_goals contradiction
  cases state <;> simp only [finish] at result
  case words read alts context =>
    exact ends (by simp) (allWorded_concat valid.2.1 (.phrase valid.1.1 valid.1.2)) result
  case closed alts context => exact ends valid.1 valid.2.1 result
  all_goals contradiction

theorem run_worded {stop : Nat} {state : State} {all : List Placed} {tree : Tree}
    (valid : state.Worded) (words : ∀ placed ∈ all, ∀ w, placed.token = .word w → IsWord w)
    (result : run stop state all = .ok tree) : tree.Worded := by
  induction all generalizing state with
  | nil =>
    cases ended : finish state with
    | error trouble =>
      rw [run,ended] at result
      cases result
    | ok found =>
      rw [run,ended] at result
      exact Except.ok.inj result ▸ finish_worded valid ended
  | cons placed rest ih =>
    simp only [run] at result
    split at result
    · rename_i next stepped
      exact ih (step_worded valid (words placed (by simp)) stepped)
        (fun other member => words other (by simp [member])) result
    · contradiction

/-- What is read is made of words. -/
theorem parse_worded {t : Text} {tree : Tree} (result : parse t = .ok tree) : tree.Worded := by
  cases cut : tokens t with
  | error e => simp [parse,cut,bind,Except.bind] at result
  | ok all =>
    simp only [parse,cut,bind,Except.bind] at result
    exact run_worded (by simp [start,State.Worded,AllWorded,Context.Worded])
      (fun placed member w isWord => tokens_words cut member isWord) result

end LuaStubs.Phrase
