import LuaStubs.Stub.Fault

/-! Brackets that match. A stack takes one bracket at a time; what it accepts is described without it,
as the words in which every bracket that opens is closed by one of its kind, the inner ones first. -/
namespace LuaStubs.Stub

def bracketPairs : List (Char × Char) := [('\x7b','\x7d'),('(',')'),('<','>'),('[',']')]

def brackets (t : Text) : Text := t.filter fun c => ("\x7b\x7d()<>[]" : Text).contains c

/-- Words over the four kinds of brackets: a pair has such a word inside and one behind it. -/
inductive Dyck : Text → Prop where
  | nil : Dyck []
  | pair {opening closing : Char} {inner rest : Text} : (opening,closing) ∈ bracketPairs →
      Dyck inner → Dyck rest → Dyck (opening :: (inner ++ closing :: rest))

def Matched (t : Text) : Prop := Dyck (brackets t)

theorem pair_cases {c d : Char} (kind : (c,d) ∈ bracketPairs) :
    (c = '\x7b' ∧ d = '\x7d') ∨ (c = '(' ∧ d = ')') ∨ (c = '<' ∧ d = '>') ∨ c = '[' ∧ d = ']' := by
  simpa [bracketPairs] using kind

theorem closing?_eq_some {c d : Char} : closing? c = some d ↔ (c,d) ∈ bracketPairs := by
  constructor
  · intro closes
    unfold closing? at closes
    split at closes <;> first | contradiction | (obtain rfl := Option.some.inj closes; decide)
  · intro kind
    rcases pair_cases kind with ⟨rfl,rfl⟩ | ⟨rfl,rfl⟩ | ⟨rfl,rfl⟩ | ⟨rfl,rfl⟩ <;> rfl

theorem closing?_of_isClosing {c : Char} (closes : isClosing c = true) : closing? c = none := by
  simp only [isClosing,Bool.or_eq_true,beq_iff_eq] at closes
  rcases closes with ((rfl | rfl) | rfl) | rfl <;> rfl

theorem isClosing_of_pair {c d : Char} (kind : (c,d) ∈ bracketPairs) : isClosing d = true := by
  rcases pair_cases kind with ⟨rfl,rfl⟩ | ⟨rfl,rfl⟩ | ⟨rfl,rfl⟩ | ⟨rfl,rfl⟩ <;> rfl

theorem brackets_opening {c d : Char} (kind : (c,d) ∈ bracketPairs) (t : Text) :
    brackets (c :: t) = c :: brackets t := by
  rcases pair_cases kind with ⟨rfl,rfl⟩ | ⟨rfl,rfl⟩ | ⟨rfl,rfl⟩ | ⟨rfl,rfl⟩ <;> rfl

theorem brackets_closing {c : Char} (closes : isClosing c = true) (t : Text) :
    brackets (c :: t) = c :: brackets t := by
  simp only [isClosing,Bool.or_eq_true,beq_iff_eq] at closes
  rcases closes with ((rfl | rfl) | rfl) | rfl <;> rfl

theorem brackets_other {c : Char} (opens : closing? c = none) (closes : ¬isClosing c = true)
    (t : Text) : brackets (c :: t) = brackets t := by
  apply List.filter_cons_of_neg
  intro bracket
  have listed : c ∈ ("\x7b\x7d()<>[]" : Text) := List.contains_iff_mem.mp bracket
  simp at listed
  rcases listed with rfl | rfl | rfl | rfl | rfl | rfl | rfl | rfl <;> contradiction

section

variable {due : List Char}

theorem balancedFrom_opening {c d : Char} (kind : (c,d) ∈ bracketPairs) (t : Text) :
    balancedFrom due (c :: t) = balancedFrom (d :: due) t := by
  rw [balancedFrom.eq_def]
  simp only [closing?_eq_some.mpr kind]

theorem balancedFrom_closing {c : Char} (closes : isClosing c = true) (d : Char) (t : Text) :
    balancedFrom (d :: due) (c :: t) = (c == d && balancedFrom due t) := by
  rw [balancedFrom,closing?_of_isClosing closes]
  exact if_pos closes

theorem balancedFrom_undue {c : Char} (closes : isClosing c = true) (t : Text) :
    balancedFrom [] (c :: t) = false := by
  rw [balancedFrom,closing?_of_isClosing closes]
  exact if_pos closes

theorem balancedFrom_other {c : Char} (opens : closing? c = none) (closes : ¬isClosing c = true)
    (t : Text) : balancedFrom due (c :: t) = balancedFrom due t := by
  rw [balancedFrom.eq_def]
  simp only [opens]
  exact if_neg closes

/-- Other characters do not matter to the stack. -/
theorem balancedFrom_brackets (t : Text) : balancedFrom due (brackets t) = balancedFrom due t := by
  induction t generalizing due with
  | nil => rfl
  | cons c t ih =>
    cases opens : closing? c with
    | some d =>
      have kind := closing?_eq_some.mp opens
      rw [brackets_opening kind,balancedFrom_opening kind,balancedFrom_opening kind,ih]
    | none =>
      by_cases closes : isClosing c = true
      · rw [brackets_closing closes]
        cases due with
        | nil => rw [balancedFrom_undue closes,balancedFrom_undue closes]
        | cons d due => rw [balancedFrom_closing closes,balancedFrom_closing closes,ih]
      · rw [brackets_other opens closes,balancedFrom_other opens closes,ih]

/-- A word leaves the stack as it finds it. -/
theorem Dyck.balancedFrom_append {w : Text} (dyck : Dyck w) (t : Text) :
    balancedFrom due (w ++ t) = balancedFrom due t := by
  induction dyck generalizing due t with
  | nil => rfl
  | @pair opening closing inner rest kind _ _ inside behind =>
    have closes := isClosing_of_pair kind
    rw [List.cons_append,List.append_assoc,List.cons_append,balancedFrom_opening kind,inside,
      balancedFrom_closing closes,beq_self_eq_true,Bool.true_and,behind]

/-- A word that closes what is due, in order, with whole words before, between and behind. -/
inductive Closes : List Char → Text → Prop where
  | done {w : Text} : Dyck w → Closes [] w
  | next {d : Char} {due : List Char} {w rest : Text} : Dyck w → Closes due rest →
      Closes (d :: due) (w ++ d :: rest)

theorem Closes.pair {opening closing : Char} {w rest : Text}
    (kind : (opening,closing) ∈ bracketPairs) (inner : Dyck w) (closes : Closes due rest) :
    Closes due (opening :: (w ++ closing :: rest)) := by
  cases closes with
  | done behind => exact .done (.pair kind inner behind)
  | next behind later => simpa using Closes.next (.pair kind inner behind) later

/-- What the stack accepts closes what it held. -/
theorem closes_of_balancedFrom {t : Text} (balanced : balancedFrom due t = true) :
    Closes due (brackets t) := by
  induction t generalizing due with
  | nil =>
    cases due with
    | nil => exact .done .nil
    | cons d due => contradiction
  | cons c t ih =>
    cases opens : closing? c with
    | some d =>
      have kind := closing?_eq_some.mp opens
      rw [balancedFrom_opening kind] at balanced
      rw [brackets_opening kind]
      -- the bracket pushed for this one is the first that the rest closes
      generalize brackets t = word at ih
      cases ih balanced with
      | next inner later => exact later.pair kind inner
    | none =>
      by_cases closes : isClosing c = true
      · rw [brackets_closing closes]
        cases due with
        | nil =>
          rw [balancedFrom_undue closes] at balanced
          contradiction
        | cons d due =>
          rw [balancedFrom_closing closes,Bool.and_eq_true,beq_iff_eq] at balanced
          obtain ⟨rfl,later⟩ := balanced
          exact .next .nil (ih later)
      · rw [balancedFrom_other opens closes] at balanced
        rw [brackets_other opens closes]
        exact ih balanced

end

theorem isBalanced_iff {t : Text} : isBalanced t = true ↔ Matched t := by
  constructor
  · intro balanced
    cases closes_of_balancedFrom balanced with
    | done dyck => exact dyck
  · intro dyck
    have all : balancedFrom [] (brackets t ++ []) = true := dyck.balancedFrom_append []
    rw [List.append_nil,balancedFrom_brackets] at all
    exact all

end LuaStubs.Stub
