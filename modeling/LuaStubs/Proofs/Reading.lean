import LuaStubs.Lua.Statement

/-! Checks that go through. A check is followed by what is still to be read, and by a property of the
function being read and the ones around it. -/
namespace LuaStubs.Lua

def State.upcoming (s : State) : List Token := (s.current :: s.ahead).map Lexeme.token

namespace Check

/-- The check does not refuse, and what holds of its outcome. -/
def Runs (c : Check α) (s : State) (post : α → State → Prop) : Prop :=
  ∃ a s', c.run s = .ok (a, s') ∧ post a s'

namespace Runs

variable {s : State}

theorem pure {a : α} {post : α → State → Prop} (holds : post a s) : Runs (Pure.pure a) s post :=
  ⟨a,s,rfl,holds⟩

theorem bind {c : Check α} {next : α → Check β} {mid : α → State → Prop} {post : β → State → Prop}
    (first : Runs c s mid) (rest : ∀ a s', mid a s' → Runs (next a) s' post) :
    Runs (c >>= next) s post := by
  obtain ⟨a,s',ran,holds⟩ := first
  obtain ⟨b,s'',ranNext,outcome⟩ := rest a s' holds
  refine ⟨b,s'',?_,outcome⟩
  rw [StateT.run_bind,ran]
  exact ranNext

theorem mono {c : Check α} {mid post : α → State → Prop} (ran : Runs c s mid)
    (weaker : ∀ a s', mid a s' → post a s') : Runs c s post := by
  obtain ⟨a,s',same,holds⟩ := ran
  exact ⟨a,s',same,weaker a s' holds⟩

theorem ite {p : Prop} [Decidable p] {yes no : Check α} {post : α → State → Prop}
    (positive : p → Runs yes s post) (negative : ¬p → Runs no s post) :
    Runs (if p then yes else no) s post := by
  split
  · exact positive (by assumption)
  · exact negative (by assumption)

theorem change {f : State → State} {post : Unit → State → Prop} (holds : post () (f s)) :
    Runs (modify f) s post :=
  ⟨(),f s,rfl,holds⟩

theorem changeFunc {f : Func → Func} {post : Unit → State → Prop}
    (holds : post () { s with func := f s.func }) : Runs (modifyFunc f) s post :=
  change holds

theorem thenChange {f : State → State} {next : Unit → Check α} {post : α → State → Prop}
    (ran : Runs (next ()) (f s) post) : Runs (modify f >>= next) s post :=
  ran

theorem thenChangeFunc {f : Func → Func} {next : Unit → Check α} {post : α → State → Prop}
    (ran : Runs (next ()) { s with func := f s.func } post) : Runs (modifyFunc f >>= next) s post :=
  ran

/-- Go on with the function being read. -/
theorem ofFunc {next : Func → Check α} {post : α → State → Prop} (ran : Runs (next s.func) s post) :
    Runs (Check.func >>= next) s post :=
  ran

theorem ofToken {next : Token → Check α} {post : α → State → Prop}
    (ran : Runs (next s.current.token) s post) : Runs (Check.token >>= next) s post :=
  ran

theorem ofLine {next : Nat → Check α} {post : α → State → Prop}
    (ran : Runs (next s.current.line) s post) : Runs (Check.line >>= next) s post :=
  ran

/-- A loop whose every further round takes a token. -/
theorem repeatFrom {step : σ → Check (Option σ)} {a : σ} (inv post : σ → State → Prop)
    (each : ∀ a s, inv a s → Runs (step a) s fun next s' => match next with
      | some b => inv b s' ∧ s'.upcoming.length < s.upcoming.length
      | none => post a s')
    (start : inv a s) : Runs (Check.repeatFrom a step) s post := by
  have rounds : ∀ fuel a s, s.upcoming.length < fuel → inv a s →
      Runs (repeatWith step fuel a) s post := by
    intro fuel
    induction fuel with
    | zero => exact fun _ _ short => absurd short (Nat.not_lt_zero _)
    | succ fuel ih =>
      intro a s enough holds
      refine (each a s holds).bind fun next s' outcome => ?_
      cases next with
      | none => exact pure outcome
      | some b => exact ih b s' (by omega) outcome.1
  exact rounds (s.ahead.length + 2) a s (by simp [State.upcoming]) start

/-- A loop that ends at once. -/
theorem repeatNone {step : σ → Check (Option σ)} {a : σ} (post : State → Prop)
    (once : Runs (step a) s fun next s' => next = none ∧ post s') :
    Runs (Check.repeatFrom a step) s fun b s' => b = a ∧ post s' := by
  change Runs (repeatWith step (s.ahead.length + 1 + 1) a) s _
  apply once.bind
  rintro _ s' ⟨rfl,outcome⟩
  exact pure ⟨rfl,outcome⟩

end Runs

/-- What is still to be read, where it can all be cut into tokens, and what is known of the functions
around it. -/
structure At (scope : Func → List Func → Prop) (tokens : List Token) (s : State) : Prop where
  scope : scope s.func s.outer
  upcoming : s.upcoming = tokens
  whole : ∀ token ∈ tokens, ∀ fault, token ≠ .broken fault

variable {s : State} {scope : Func → List Func → Prop} {token next : Token} {rest : List Token}

theorem At.current (here : At scope (token :: rest) s) : s.current.token = token :=
  (List.cons.inj here.upcoming).1

theorem At.shorter {tokens : List Token} {s' : State} (after : At scope rest s')
    (before : s.upcoming = tokens) (fewer : rest.length < tokens.length) :
    s'.upcoming.length < s.upcoming.length := by
  rw [after.upcoming,before]
  exact fewer

theorem advance_runs (here : At scope (token :: next :: rest) s) :
    Runs advance s fun _ => At scope (next :: rest) := by
  obtain ⟨inside,upcoming,whole⟩ := here
  obtain ⟨current,ahead,func,outer⟩ := s
  obtain ⟨_,later⟩ := List.cons.inj upcoming
  cases ahead with
  | nil => simp at later
  | cons lexeme ahead =>
    obtain ⟨same,remaining⟩ := List.cons.inj later
    have reads : ∀ fault, lexeme.token ≠ .broken fault := by
      intro fault
      exact same ▸ whole next (by simp) fault
    refine ⟨(),⟨lexeme,ahead,func,outer⟩,?_,inside,?_,fun t member => whole t (by simp [member])⟩
    · change (takeUp lexeme ahead).run _ = _
      unfold takeUp
      split
      · rename_i fault broken
        exact absurd broken (reads fault)
      · rfl
    · simpa [State.upcoming,same] using remaining

theorem isKey_runs {key : String} (here : At scope (token :: rest) s) :
    Runs (isKey key) s fun found s' => found = (token == .key key) ∧ At scope (token :: rest) s' :=
  ⟨_,s,rfl,by rw [here.current],here⟩

theorem accept_runs {key : String} (here : At scope (.key key :: next :: rest) s) :
    Runs (accept key) s fun found s' => found = true ∧ At scope (next :: rest) s' := by
  refine (isKey_runs here).bind ?_
  rintro found s ⟨rfl,here⟩
  simp only [beq_self_eq_true,if_true]
  exact (advance_runs here).bind fun _ _ after => .pure ⟨rfl,after⟩

theorem accept_other {key : String} (other : token ≠ .key key)
    (here : At scope (token :: rest) s) :
    Runs (accept key) s fun found s' => found = false ∧ At scope (token :: rest) s' := by
  refine (isKey_runs here).bind ?_
  rintro found s ⟨rfl,here⟩
  rw [beq_eq_false_iff_ne.mpr other]
  exact .pure ⟨rfl,here⟩

theorem expect_runs {key : String} (here : At scope (.key key :: next :: rest) s) :
    Runs (expect key) s fun _ => At scope (next :: rest) := by
  have found : Runs (check key) s fun _ => At scope (.key key :: next :: rest) := by
    refine (isKey_runs here).bind ?_
    rintro found s ⟨rfl,here⟩
    simp only [beq_self_eq_true,if_true]
    exact .pure here
  exact found.bind fun _ _ here => advance_runs here

theorem expectClose_runs {key opening : String} {start : Nat}
    (here : At scope (.key key :: next :: rest) s) :
    Runs (expectClose key opening start) s fun _ => At scope (next :: rest) := by
  refine (accept_runs here).bind ?_
  rintro found s ⟨rfl,after⟩
  exact .pure after

theorem name_runs {text : Text} (here : At scope (.name text :: next :: rest) s) :
    Runs name s fun found s' => found = text ∧ At scope (next :: rest) s' := by
  apply Runs.ofToken
  rw [here.current]
  exact (advance_runs here).bind fun _ _ after => .pure ⟨rfl,after⟩

end Check
end LuaStubs.Lua
