import LuaStubs.Proofs.Lexing
import LuaStubs.Proofs.Registers

/-! The statements of a stub file are read without refusal: tables without fields, and functions
without statements whose parameters are within the limits. -/
namespace LuaStubs.Lua.Check

variable {f : Func} {spent : Nat} {s : State} {next : Token} {rest : List Token}

def isStart : Token → Bool
  | .eof | .name _ | .key "local" | .key "function" => true
  | _ => false

theorem start_notKey {key : String} (starts : isStart next = true)
    (other : isStart (.key key) = false) : next ≠ .key key := by
  rintro rfl
  simp [other] at starts

theorem start_notBinary (starts : isStart next = true) : Binary.ofToken? next = none := by
  unfold isStart at starts
  split at starts
  all_goals first | rfl | contradiction

theorem table_runs {below : Below} (active : f.active ≤ 200) (small : spent + 1 ≤ 54)
    (here : At (Within f spent) (.key "\x7b" :: .key "\x7d" :: next :: rest) s) :
    Runs (table below) s fun e s' =>
      (∃ r, e = ⟨.register r, false, false⟩) ∧ At (Within f (spent + 1)) (next :: rest) s' := by
  refine .ofLine (.ofFunc ?_)
  refine (reserve_runs active small here).bind fun _ s here => ?_
  refine (expect_runs here).bind fun _ s here => ?_
  refine (Runs.repeatNone (At (Within f (spent + 1)) (.key "\x7d" :: next :: rest)) ?_).bind ?_
  · refine (isKey_runs here).bind ?_
    rintro _ s ⟨rfl,here⟩
    exact .pure ⟨rfl,here⟩
  · rintro _ s ⟨rfl,here⟩
    refine (expectClose_runs here).bind fun _ s here => ?_
    exact .pure ⟨⟨_,rfl⟩,here⟩

theorem operation_runs {below : Below} {bound : Nat} (starts : isStart next = true)
    (active : f.active ≤ 200) (small : spent + 1 ≤ 54)
    (here : At (Within f spent) (.key "\x7b" :: .key "\x7d" :: next :: rest) s) :
    Runs (operation below bound) s fun outcome s' =>
      (∃ r, outcome.1 = ⟨.register r, false, false⟩) ∧
        At (Within f (spent + 1)) (next :: rest) s' := by
  have simple : Runs (simple below) s fun e s' =>
      (∃ r, e = ⟨.register r, false, false⟩) ∧ At (Within f (spent + 1)) (next :: rest) s' := by
    apply Runs.ofToken
    rw [here.current]
    exact table_runs active small here
  apply Runs.ofToken
  rw [here.current]
  apply simple.bind
  rintro e s ⟨register,here⟩
  apply Runs.ofToken
  rw [here.current,start_notBinary starts]
  exact (Runs.repeatNone _ (.pure ⟨rfl,here⟩)).mono fun _ _ ⟨same,after⟩ => ⟨same ▸ register,after⟩

theorem expressions_runs {n : Nat} (starts : isStart next = true) (active : f.active ≤ 200)
    (small : spent + 1 ≤ 54)
    (here : At (Within f spent) (.key "\x7b" :: .key "\x7d" :: next :: rest) s) :
    Runs (expressions (level (n + 1))) s fun outcome s' =>
      (∃ r, outcome = (1, ⟨.register r, false, false⟩)) ∧
        At (Within f (spent + 1)) (next :: rest) s' := by
  have first : Runs (expression (level (n + 1))) s fun e s' =>
      (∃ r, e = ⟨.register r, false, false⟩) ∧ At (Within f (spent + 1)) (next :: rest) s' :=
    (operation_runs starts active small here).bind fun _ _ outcome => .pure outcome
  apply first.bind
  rintro _ s ⟨⟨r,rfl⟩,here⟩
  refine (Runs.repeatNone (At (Within f (spent + 1)) (next :: rest)) ?_).mono ?_
  · refine (accept_other (start_notKey starts (by decide)) here).bind ?_
    rintro _ s ⟨rfl,here⟩
    exact .pure ⟨rfl,here⟩
  · rintro _ s ⟨rfl,here⟩
    exact ⟨⟨r,rfl⟩,here⟩

theorem suffixed_runs {below : Below} {space field : Text} (active : f.active ≤ 200)
    (small : spent + 6 ≤ 54)
    (here : At (Within f spent) (.name space :: .key "." :: .name field :: .key "=" :: rest) s) :
    Runs (suffixed below) s fun e s' =>
      isFieldPlace e.place = true ∧ At (Within f (spent + 6)) (.key "=" :: rest) s' := by
  have first : Runs (primary below) s fun _ =>
      At (Within f (spent + 3)) (.key "." :: .name field :: .key "=" :: rest) := by
    apply Runs.ofToken
    rw [here.current]
    exact (advance_runs here).bind fun _ _ here => variableExpr_runs active (by omega) here
  refine first.bind fun e s here => ?_
  -- the loop is before the field or behind it
  refine Runs.repeatFrom (fun e s =>
    At (Within f (spent + 3)) (.key "." :: .name field :: .key "=" :: rest) s ∨
      isFieldPlace e.place = true ∧ At (Within f (spent + 6)) (.key "=" :: rest) s) _ ?_
    (Or.inl here)
  rintro e s (here | ⟨place,here⟩)
  · apply Runs.ofToken
    rw [here.current]
    refine (namedIndex_runs active small here).bind fun e s' outcome => ?_
    exact .pure ⟨Or.inr outcome,outcome.2.shorter here.upcoming (by simp)⟩
  · apply Runs.ofToken
    rw [here.current]
    exact .pure ⟨place,here⟩

theorem assignment_runs {n : Nat} {target : Place} (place : isFieldPlace target = true)
    (starts : isStart next = true) (active : f.active ≤ 200) (small : spent + 3 ≤ 54)
    (here : At (Within f spent) (.key "=" :: .key "\x7b" :: .key "\x7d" :: next :: rest) s) :
    Runs (assignment (level (n + 1)) [target]) s fun _ =>
      At (Within f (spent + 3)) (next :: rest) := by
  have assignable : isAssignable target = true := by
    cases target <;> simp_all [isFieldPlace,isAssignable]
  unfold assignment
  simp only [assignable,if_true]
  refine (checkWritable_runs place here).bind fun _ s here => ?_
  refine (accept_other (by decide) here).bind ?_
  rintro _ s ⟨rfl,here⟩
  refine (expect_runs here).bind fun _ s here => ?_
  refine (expressions_runs starts active (by omega) here).bind ?_
  rintro _ s ⟨⟨r,rfl⟩,here⟩
  exact store_runs place active small here

theorem moduleTable_runs {n : Nat} {space field : Text} (starts : isStart next = true)
    (active : f.active ≤ 200)
    (here : At (Within f 0) (.name space :: .key "." :: .name field :: .key "=" ::
      .key "\x7b" :: .key "\x7d" :: next :: rest) s) :
    Runs (expressionStatement (level (n + 1))) s fun _ => At (Within f 9) (next :: rest) := by
  refine (suffixed_runs active (by omega) here).bind ?_
  rintro e s ⟨place,here⟩
  have assigns : Runs (isKey "=" <||> isKey ",") s fun found s' => found = true ∧
      At (Within f 6) (.key "=" :: .key "\x7b" :: .key "\x7d" :: next :: rest) s' := by
    refine (isKey_runs here).bind ?_
    rintro _ s ⟨rfl,here⟩
    exact .pure ⟨rfl,here⟩
  apply assigns.bind
  rintro _ s ⟨rfl,here⟩
  exact assignment_runs place starts active (by omega) here

/-- The function with one more local, which is not in scope yet. -/
def pendingLocal (f : Func) (name : Text) : Func := { f with locals := f.locals ++ [⟨name, .regular⟩] }

def withLocal (f : Func) (name : Text) : Func :=
  { f with locals := f.locals ++ [⟨name, .regular⟩], active := f.active + 1 }

theorem level_le_pendingLocal (f : Func) (name : Text) : f.level ≤ (pendingLocal f name).level := by
  simp only [Func.level,Func.registers,pendingLocal,List.take_append,List.filter_append,
    List.length_append]
  omega

theorem pendingLocal_level_le (f : Func) (name : Text) :
    (pendingLocal f name).level ≤ (withLocal f name).level := by
  have grows := List.take_sublist_take_left (l := f.locals ++ [⟨name, .regular⟩])
    (Nat.le_succ f.active)
  exact (grows.filter _).length_le

/-- A change of the function that leaves its registers alone. -/
theorem modifyFunc_runs {g : Func} {change : Func → Func} {tokens : List Token}
    (same : ∀ free, change { f with free } = { g with free }) (le : f.level ≤ g.level)
    (here : At (Within f spent) tokens s) :
    Runs (modifyFunc change) s fun _ => At (Within g spent) tokens := by
  obtain ⟨⟨alone,free,bound,func⟩,upcoming,whole⟩ := here
  refine .changeFunc ⟨⟨alone,free,by omega,?_⟩,upcoming,whole⟩
  simp only [func,same]

theorem declare_runs {name : Text} {tokens : List Token} (room : f.locals.length < 200)
    (here : At (Within f spent) tokens s) : Runs (declare ⟨name, .regular⟩) s fun _ =>
      At (Within (pendingLocal f name) spent) tokens := by
  have locals : s.func.locals.length < 200 := by
    obtain ⟨_,free,_,same⟩ := here.scope
    rw [same]
    exact room
  apply Runs.ofFunc
  rw [if_pos locals]
  exact modifyFunc_runs (fun _ => rfl) (level_le_pendingLocal f name) here

theorem localName_runs {text : Text} (room : f.locals.length < 200)
    (here : At (Within f spent) (.name text :: .key "=" :: rest) s) :
    Runs (localName false) s fun outcome s' => outcome = (.regular, false) ∧
      At (Within (pendingLocal f text) spent) (.key "=" :: rest) s' := by
  refine (name_runs here).bind ?_
  rintro text s ⟨rfl,named⟩
  refine (declare_runs room named).bind fun _ s declared => ?_
  have kind : Runs binding s fun kind s' => kind = .regular ∧
      At (Within (pendingLocal f text) spent) (.key "=" :: rest) s' := by
    refine (accept_other (by decide) declared).bind ?_
    rintro _ s ⟨rfl,here⟩
    exact .pure ⟨rfl,here⟩
  apply kind.bind
  rintro _ s ⟨rfl,here⟩
  have kept (free : Nat) : { pendingLocal f text with
      free, locals := (pendingLocal f text).locals.dropLast ++ [⟨text, .regular⟩] } =
        { pendingLocal f text with free } := by
    simp [pendingLocal]
  exact (modifyFunc_runs kept (Nat.le_refl _) here).bind fun _ s here => .pure ⟨rfl,here⟩

theorem adjust_runs {r : Nat} {tokens : List Token} (active : f.active ≤ 200) (small : spent + 1 ≤ 54)
    (here : At (Within f spent) tokens s) :
    Runs (adjust 1 1 (some ⟨.register r, false, false⟩)) s fun _ =>
      At (Within f (spent + 1)) tokens := by
  refine (toNextRegister_runs active small here).bind fun _ s here => ?_
  refine .ite (fun less => absurd less (Nat.lt_irrefl _)) fun _ => .changeFunc ?_
  exact here

theorem classTable_runs {n : Nat} {text : Text} (starts : isStart next = true)
    (active : f.active ≤ 200) (room : f.locals.length < 200)
    (here : At (Within f 0) (.name text :: .key "=" :: .key "\x7b" :: .key "\x7d" :: next :: rest) s) :
    Runs (localVariables (level (n + 1))) s fun _ =>
      At (Within (withLocal f text) 2) (next :: rest) := by
  refine (localName_runs room here).bind ?_
  rintro _ s ⟨rfl,here⟩
  have alone : Runs (accept ",") s fun found s' => found = false ∧
      At (Within (pendingLocal f text) 0)
        (.key "=" :: .key "\x7b" :: .key "\x7d" :: next :: rest) s' :=
    accept_other (by decide) here
  refine (Runs.repeatNone (At (Within (pendingLocal f text) 0)
    (.key "=" :: .key "\x7b" :: .key "\x7d" :: next :: rest)) ?_).bind ?_
  · apply alone.bind
    rintro _ s ⟨rfl,here⟩
    exact .pure ⟨rfl,here⟩
  · rintro _ s ⟨rfl,here⟩
    refine (accept_runs here).bind ?_
    rintro _ s ⟨rfl,here⟩
    have pending : (pendingLocal f text).active ≤ 200 := active
    refine (expressions_runs starts pending (by omega) here).bind ?_
    rintro _ s ⟨⟨r,rfl⟩,here⟩
    change Runs (adjust 1 1 (some ⟨.register r, false, false⟩) >>= fun _ => activate 1) s _
    refine (adjust_runs pending (by omega) here).bind fun _ s here => ?_
    exact modifyFunc_runs (fun _ => rfl) (pendingLocal_level_le f text) here

/-- In the outermost block of a function that has no jumps, with the given functions around it. -/
def Outermost (around : List Func) (g : Func) (outer : List Func) : Prop :=
  outer = around ∧ g.blocks = [⟨0, 0, 0, false⟩] ∧ g.gotos = []

def Declaring (around : List Func) (declared inScope : Nat) (g : Func) (outer : List Func) : Prop :=
  Outermost around g outer ∧ g.locals.length = declared ∧ g.active = inScope ∧ g.free = 0

theorem leaveBlock_runs {around : List Func} {tokens : List Token}
    (here : At (Outermost around) tokens s) :
    Runs leaveBlock s fun _ => At (fun _ outer => outer = around) tokens := by
  obtain ⟨⟨outside,blocks,gotos⟩,upcoming,whole⟩ := here
  obtain ⟨current,ahead,g,outer⟩ := s
  obtain ⟨line,isVararg,locals,active,upvalues,stack,labels,jumps,free⟩ := g
  obtain rfl : stack = [⟨0, 0, 0, false⟩] := blocks
  obtain rfl : jumps = [] := gotos
  exact ⟨(),_,rfl,outside,upcoming,whole⟩

theorem declareInside_runs {around : List Func} {declared inScope : Nat} {tokens : List Token}
    {v : Variable} (room : declared < 200) (here : At (Declaring around declared inScope) tokens s) :
    Runs (declare v) s fun _ => At (Declaring around (declared + 1) inScope) tokens := by
  obtain ⟨⟨outermost,locals,active,free⟩,upcoming,whole⟩ := here
  apply Runs.ofFunc
  rw [locals,if_pos room]
  refine .changeFunc ⟨⟨outermost,?_,active,free⟩,upcoming,whole⟩
  simp [locals]

def paramTokens (params : List Text) : List Token :=
  (params.map Stub.paramToken).intersperse (.key ",")

theorem paramTokens_cons (first : Text) (more : List Text) :
    ∃ after, paramTokens (first :: more) = Stub.paramToken first :: after := by
  cases more with
  | nil => exact ⟨[],rfl⟩
  | cons second more => exact ⟨_,rfl⟩

/-- Parameters that can still be read: few enough, and variable arguments only at the end. -/
structure Params (declared : Nat) (params : List Text) : Prop where
  few : declared + params.length ≤ 200
  last : ∀ name ∈ params.dropLast, name ≠ Api.varargsName

def Reads (around : List Func) (inScope : Nat) (tokens : List Token) : Nat × Bool → State → Prop
  | (n, true), s => ∃ first more, Params (inScope + n) (first :: more) ∧
      At (Declaring around (inScope + n) inScope) (paramTokens (first :: more) ++ tokens) s
  | (n, false), s => inScope + n ≤ 200 ∧ At (Declaring around (inScope + n) inScope) tokens s

theorem paramToken_name {name : Text} (fixed : name ≠ Api.varargsName) :
    Stub.paramToken name = .name name :=
  if_neg fixed

theorem paramToken_ne_close (name : Text) : Stub.paramToken name ≠ .key ")" := by
  unfold Stub.paramToken
  split <;> simp

/-- The parameters come into scope together. -/
theorem activateAll_runs {around : List Func} {inScope n : Nat} {tokens : List Token}
    (few : inScope + n ≤ 200)
    (here : At (Declaring around (inScope + n) inScope) tokens s) :
    Runs (do activate n; reserve (← func).active) s fun _ => At (Outermost around) tokens := by
  obtain ⟨⟨outermost,_,active,free⟩,upcoming,whole⟩ := here
  have activated : Runs (activate n) s fun _ s' => s'.func.active = inScope + n ∧
      s'.func.free = 0 ∧ At (Outermost around) tokens s' :=
    .changeFunc ⟨by simp [active],free,outermost,upcoming,whole⟩
  apply activated.bind
  rintro _ s ⟨active,free,outermost,upcoming,whole⟩
  have room : ¬255 ≤ s.func.free + s.func.active := by omega
  apply Runs.ofFunc
  have checked : Runs (checkRegisters s.func.active) s fun _ s' => s' = s := by
    apply Runs.ofFunc
    rw [if_neg room]
    exact .pure rfl
  apply checked.bind
  rintro _ _ rfl
  exact .changeFunc ⟨outermost,upcoming,whole⟩

theorem Params.tail {declared : Nat} {first : Text} {more : List Text}
    (valid : Params declared (first :: more)) : Params (declared + 1) more := by
  refine ⟨?_,fun name member => valid.last name ?_⟩
  · have few := valid.few
    simp only [List.length_cons] at few
    omega
  · cases more with
    | nil => simp at member
    | cons second more => simp [List.dropLast_cons_cons,member]

/-- What a round of the parameter loop comes to: another one, with less to be read. -/
def Round (around : List Func) (inScope : Nat) (tokens : List Token) (before : State)
    (outcome : Option (Nat × Bool)) (s : State) : Prop :=
  ∃ read, outcome = some read ∧ Reads around inScope tokens read s ∧
    s.upcoming.length < before.upcoming.length

theorem varargsRound_runs {around : List Func} {inScope n : Nat} (few : inScope + n ≤ 200)
    (here : At (Declaring around (inScope + n) inScope) (.key "..." :: .key ")" :: next :: rest) s) :
    Runs (do
      advance
      modifyFunc fun f => { f with isVararg := true }
      return some (n, false)) s (Round around inScope (.key ")" :: next :: rest) s) := by
  refine (advance_runs here).bind fun _ s' after => ?_
  have changed : Runs (modifyFunc fun f => { f with isVararg := true }) s' fun _ =>
      At (Declaring around (inScope + n) inScope) (.key ")" :: next :: rest) :=
    .changeFunc ⟨after.scope,after.upcoming,after.whole⟩
  refine changed.bind fun _ s' after => .pure ⟨_,rfl,⟨few,after⟩,?_⟩
  exact after.shorter here.upcoming (by simp)

theorem nameRound_runs {around : List Func} {inScope n : Nat} {first : Text} {more : List Text}
    (valid : Params (inScope + n) (first :: more)) (fixed : first ≠ Api.varargsName)
    (here : At (Declaring around (inScope + n) inScope)
      (paramTokens (first :: more) ++ .key ")" :: next :: rest) s) :
    Runs (do
      advance
      declare ⟨first, .regular⟩
      return some (n + 1, ← accept ",")) s (Round around inScope (.key ")" :: next :: rest) s) := by
  have few := valid.few
  simp only [List.length_cons] at few
  cases more with
  | nil =>
    have read : At (Declaring around (inScope + n) inScope)
        (.name first :: .key ")" :: next :: rest) s := by
      simpa [paramTokens,paramToken_name fixed] using here
    refine (advance_runs read).bind fun _ s' after => ?_
    refine (declareInside_runs (by omega) after).bind fun _ s' after => ?_
    refine (accept_other (by decide) after).bind ?_
    rintro _ s' ⟨rfl,after⟩
    exact .pure ⟨_,rfl,⟨by omega,after⟩,after.shorter read.upcoming (by simp)⟩
  | cons second more =>
    obtain ⟨tail,same⟩ := paramTokens_cons second more
    have read : At (Declaring around (inScope + n) inScope) (.name first :: .key "," ::
        Stub.paramToken second :: (tail ++ .key ")" :: next :: rest)) s := by
      simp only [paramTokens,List.map_cons] at same
      simpa [paramTokens,paramToken_name fixed,same] using here
    refine (advance_runs read).bind fun _ s' after => ?_
    refine (declareInside_runs (by omega) after).bind fun _ s' after => ?_
    refine (accept_runs after).bind ?_
    rintro _ s' ⟨rfl,after⟩
    refine .pure ⟨_,rfl,⟨second,more,valid.tail,?_⟩,after.shorter read.upcoming (by simp)⟩
    simpa [same,Nat.add_assoc] using after

theorem parameters_runs {around : List Func} {inScope : Nat} {params : List Text}
    (valid : Params inScope params)
    (here : At (Declaring around inScope inScope) (paramTokens params ++ .key ")" :: next :: rest) s) :
    Runs parameters s fun _ => At (Outermost around) (.key ")" :: next :: rest) := by
  unfold parameters
  cases params with
  | nil =>
    refine (isKey_runs here).bind ?_
    rintro _ s ⟨rfl,here⟩
    exact activateAll_runs valid.few here
  | cons first more =>
    obtain ⟨after,same⟩ := paramTokens_cons first more
    have opened : At (Declaring around inScope inScope)
      (Stub.paramToken first :: (after ++ .key ")" :: next :: rest)) s := by
      simpa [same] using here
    refine (isKey_runs opened).bind ?_
    rintro _ s ⟨rfl,here⟩
    rw [beq_eq_false_iff_ne.mpr (paramToken_ne_close first)]
    have start : Reads around inScope (.key ")" :: next :: rest) (0, true) s :=
      ⟨first,more,valid,by simpa [same] using here⟩
    refine (Runs.repeatFrom (Reads around inScope (.key ")" :: next :: rest))
      (fun read => Reads around inScope (.key ")" :: next :: rest) (read.1, false)) ?_ start).bind ?_
    · rintro ⟨n,isOpen⟩ s reads
      cases isOpen with
      | false => exact .pure reads
      | true =>
        obtain ⟨first,more,valid,here⟩ := reads
        have few := valid.few
        simp only [List.length_cons] at few
        obtain ⟨after,same⟩ := paramTokens_cons first more
        have current : s.current.token = Stub.paramToken first := by
          rw [same] at here
          exact here.current
        apply Runs.ofToken
        rw [current]
        by_cases varargs : first = Api.varargsName
        · -- nothing may follow variable arguments
          have alone : more = [] := by
            cases more with
            | nil => rfl
            | cons second more => exact absurd varargs (valid.last first (by simp))
          subst alone varargs
          refine (varargsRound_runs (by omega) here).mono ?_
          rintro _ s' ⟨read,rfl,reads⟩
          exact reads
        · rw [paramToken_name varargs]
          refine (nameRound_runs valid varargs here).mono ?_
          rintro _ s' ⟨read,rfl,reads⟩
          exact reads
    · rintro ⟨n,_⟩ s ⟨few,here⟩
      exact activateAll_runs few here

theorem emptyBody_runs {below : Below} {scope : Func → List Func → Prop}
    (here : At scope (.key "end" :: rest) s) :
    Runs (statements below) s fun _ => At scope (.key "end" :: rest) := by
  refine (Runs.repeatNone (At scope (.key "end" :: rest)) ?_).bind fun _ _ outcome => .pure outcome.2
  apply Runs.ofToken
  rw [here.current]
  exact .pure ⟨rfl,here⟩

theorem inFunction_runs {line : Nat} {isVararg : Bool} {body : Check Unit} {tokens after : List Token}
    (inside : ∀ around s, At (Declaring around 0 0) tokens s →
      Runs body s fun _ => At (Outermost around) after)
    (here : At (Within f spent) tokens s) :
    Runs (inFunction line isVararg body) s fun _ => At (Within f spent) after := by
  obtain ⟨alone,main⟩ := here.scope
  apply Runs.thenChange
  apply Runs.thenChangeFunc
  refine (inside [s.func] _ ?_).bind fun _ s' left => ?_
  · exact ⟨⟨⟨by rw [alone],rfl,rfl⟩,rfl,rfl,rfl⟩,here.upcoming,here.whole⟩
  · refine (leaveBlock_runs left).bind fun _ s' left => .change ?_
    have outside : s'.outer = [s.func] := left.scope
    rw [outside]
    exact ⟨⟨rfl,main⟩,left.upcoming,left.whole⟩

/-- A function from its first parameter on, with what is in scope before it. -/
theorem afterOpening_runs {below : Below} {start inScope : Nat} {params : List Text}
    {around : List Func} (valid : Params inScope params)
    (here : At (Declaring around inScope inScope)
      (paramTokens params ++ .key ")" :: .key "end" :: next :: rest) s) :
    Runs (do
      parameters
      expect ")"
      statements below
      expectClose "end" "function" start) s fun _ => At (Outermost around) (next :: rest) := by
  refine (parameters_runs valid here).bind fun _ s here => ?_
  refine (expect_runs here).bind fun _ s here => ?_
  refine (emptyBody_runs here).bind fun _ s here => ?_
  exact expectClose_runs here

theorem expectOpening_runs {scope : Func → List Func → Prop} {params : List Text} {key : String}
    (here : At scope (.key key :: (paramTokens params ++ .key ")" :: next :: rest)) s) :
    Runs (expect key) s fun _ => At scope (paramTokens params ++ .key ")" :: next :: rest) := by
  cases params with
  | nil => exact expect_runs here
  | cons first more =>
    obtain ⟨after,same⟩ := paramTokens_cons first more
    rw [same] at here ⊢
    exact expect_runs here

/-- The object of a method is a parameter of its own. -/
theorem functionBody_runs {below : Below} (isMethod : Bool) {start : Nat} {params : List Text}
    (valid : Params isMethod.toNat params) (active : f.active ≤ 200) (small : spent + 1 ≤ 54)
    (here : At (Within f spent) (.key "(" :: (paramTokens params ++
      .key ")" :: .key "end" :: next :: rest)) s) :
    Runs (functionBody below isMethod start) s fun _ =>
      At (Within f (spent + 1)) (next :: rest) := by
  refine (inFunction_runs ?_ here).bind fun _ s here => toNextRegister_runs active small here
  intro around s here
  refine (expectOpening_runs here).bind fun _ s here => ?_
  cases isMethod with
  | false => exact afterOpening_runs valid here
  | true =>
    refine (declareInside_runs (by omega) here).bind fun _ s here => ?_
    obtain ⟨⟨outermost,locals,active,free⟩,upcoming,whole⟩ := here
    refine .thenChangeFunc (afterOpening_runs valid ?_)
    exact ⟨⟨outermost,locals,by simp [active],free⟩,upcoming,whole⟩

def pathTokens (path : List Text) : List Token := path.flatMap fun name => [.key ".", .name name]

theorem pathTokens_append (path : List Text) (next : Token) (rest : List Token) :
    ∃ first after, pathTokens path ++ next :: rest = first :: after := by
  cases path with
  | nil => exact ⟨next,rest,rfl⟩
  | cons name path => exact ⟨_,_,rfl⟩

theorem path_runs (path : List Text) {e : Expr} (active : f.active ≤ 200)
    (small : spent + 3 * path.length ≤ 54) (other : next ≠ .key ".")
    (here : At (Within f spent) (pathTokens path ++ next :: rest) s) :
    Runs (repeatFrom e fun e => do
      if ← isKey "." then return some (← namedIndex e) else return none) s fun e s' =>
      (path = [] ∨ isFieldPlace e.place = true) ∧
        At (Within f (spent + 3 * path.length)) (next :: rest) s' := by
  refine Runs.repeatFrom (fun e s => ∃ left taken, taken + 3 * left.length = spent + 3 * path.length ∧
    (left = path ∨ isFieldPlace e.place = true) ∧
      At (Within f taken) (pathTokens left ++ next :: rest) s) _ ?_ ⟨path,spent,rfl,Or.inl rfl,here⟩
  rintro e s ⟨left,taken,total,place,here⟩
  cases left with
  | nil =>
    refine (isKey_runs here).bind ?_
    rintro _ s ⟨rfl,here⟩
    rw [beq_eq_false_iff_ne.mpr other]
    have all : taken = spent + 3 * path.length := by simpa using total
    exact .pure ⟨place.imp Eq.symm id,all ▸ here⟩
  | cons field left =>
    obtain ⟨first,after,same⟩ := pathTokens_append left next rest
    have read : At (Within f taken) (.key "." :: .name field :: first :: after) s := by
      rw [← same]
      exact here
    simp only [List.length_cons] at total
    refine (isKey_runs read).bind ?_
    rintro _ s' ⟨rfl,read'⟩
    refine (namedIndex_runs active (by omega) read').bind ?_
    rintro e s'' ⟨place,after⟩
    refine .pure ⟨⟨left,taken + 3,by omega,Or.inr place,?_⟩,after.shorter read.upcoming (by simp)⟩
    rw [same]
    exact after

/-- The end of a function statement, once it is known where the function goes. -/
theorem functionValue_runs {below : Below} (isMethod : Bool) {start : Nat} {target : Place}
    {params : List Text} (place : isFieldPlace target = true)
    (valid : Params isMethod.toNat params) (active : f.active ≤ 200) (small : spent + 3 ≤ 54)
    (here : At (Within f spent) (.key "(" :: (paramTokens params ++
      .key ")" :: .key "end" :: next :: rest)) s) :
    Runs (do
      let body ← functionBody below isMethod start
      checkWritable target
      store target body) s fun _ => At (Within f (spent + 3)) (next :: rest) := by
  refine (functionBody_runs isMethod valid active (by omega) here).bind fun body s here => ?_
  refine (checkWritable_runs place here).bind fun _ s here => ?_
  exact store_runs place active small here

theorem moduleFunction_runs {below : Below} {start : Nat} {space owner name : Text}
    {params : List Text} (valid : Params 0 params) (active : f.active ≤ 200)
    (here : At (Within f 0) (.key "function" :: .name space :: (pathTokens [owner, name] ++
      .key "(" :: (paramTokens params ++ .key ")" :: .key "end" :: next :: rest))) s) :
    Runs (functionStatement below start) s fun _ => At (Within f 12) (next :: rest) := by
  refine (advance_runs here).bind fun _ s here => ?_
  refine (name_runs here).bind ?_
  rintro _ s ⟨rfl,named⟩
  refine (variableExpr_runs active (by omega) named).bind fun e s here => ?_
  refine (path_runs [owner, name] active (by simp) (by decide) here).bind ?_
  rintro e s ⟨place,here⟩
  have place : isFieldPlace e.place = true := place.resolve_left (by simp)
  refine (isKey_runs here).bind ?_
  rintro _ s ⟨rfl,here⟩
  exact functionValue_runs false place valid active (by simp) here

theorem method_runs {below : Below} {start : Nat} {owner name : Text} {params : List Text}
    (valid : Params 1 params) (active : f.active ≤ 200)
    (here : At (Within f 0) (.key "function" :: .name owner :: .key ":" :: .name name ::
      .key "(" :: (paramTokens params ++ .key ")" :: .key "end" :: next :: rest)) s) :
    Runs (functionStatement below start) s fun _ => At (Within f 9) (next :: rest) := by
  refine (advance_runs here).bind fun _ s here => ?_
  refine (name_runs here).bind ?_
  rintro _ s ⟨rfl,named⟩
  refine (variableExpr_runs active (by omega) named).bind fun e s here => ?_
  refine (path_runs [] active (by simp) (by decide) here).bind ?_
  rintro e s ⟨-,here⟩
  refine (isKey_runs here).bind ?_
  rintro _ s ⟨rfl,here⟩
  refine (namedIndex_runs active (by simp) here).bind ?_
  rintro e s ⟨place,here⟩
  exact functionValue_runs true place valid active (by simp) here

def declares : Stub.Statement → List Text
  | .classTable name => [name]
  | _ => []

def after (f : Func) : Stub.Statement → Func
  | .classTable name => withLocal f name
  | _ => f

def Fits : Stub.Statement → Prop
  | .moduleFunction _ _ _ params => Params 0 params
  | .method _ _ params => Params 1 params
  | _ => True

/-- A statement gives back its registers. -/
theorem settle_runs {tokens : List Token} (here : At (Within f spent) tokens s) :
    Runs (modifyFunc fun f => { f with free := f.level }) s fun _ => At (Within f 0) tokens := by
  have level : s.func.level = f.level := by
    obtain ⟨_,free,_,same⟩ := here.scope
    rw [same]
    rfl
  exact .changeFunc (here.withFree (by omega))

theorem statement_runs {n : Nat} (statement : Stub.Statement) (fits : Fits statement)
    (starts : isStart next = true) (active : f.active ≤ 200)
    (room : f.locals.length + (declares statement).length ≤ 200)
    (here : At (Within f 0) (statement.tokens ++ next :: rest) s) :
    Runs (Check.statement (level (n + 1))) s fun _ =>
      At (Within (after f statement) 0) (next :: rest) := by
  refine .ofLine (.ofToken ?_)
  cases statement with
  | moduleTable space name =>
    have read : At (Within f 0) (.name space :: .key "." :: .name name :: .key "=" ::
      .key "\x7b" :: .key "\x7d" :: next :: rest) s := here
    rw [read.current]
    exact (moduleTable_runs starts active read).bind fun _ _ here => settle_runs here
  | classTable name =>
    have read : At (Within f 0) (.key "local" :: .name name :: .key "=" ::
      .key "\x7b" :: .key "\x7d" :: next :: rest) s := here
    rw [read.current]
    refine (advance_runs read).bind fun _ s here => ?_
    refine (accept_other (by simp) here).bind ?_
    rintro _ s ⟨rfl,here⟩
    exact (classTable_runs starts active room here).bind fun _ _ here => settle_runs here
  | moduleFunction space owner name params =>
    have read : At (Within f 0) (.key "function" :: .name space :: (pathTokens [owner, name] ++
        .key "(" :: (paramTokens params ++ .key ")" :: .key "end" :: next :: rest))) s := by
      simpa [Stub.Statement.tokens,Stub.declarationTokens,pathTokens,paramTokens] using here
    rw [read.current]
    exact (moduleFunction_runs fits active read).bind fun _ _ here => settle_runs here
  | method owner name params =>
    have read : At (Within f 0) (.key "function" :: .name owner :: .key ":" :: .name name ::
        .key "(" :: (paramTokens params ++ .key ")" :: .key "end" :: next :: rest)) s := by
      simpa [Stub.Statement.tokens,Stub.declarationTokens,paramTokens] using here
    rw [read.current]
    exact (method_runs fits active read).bind fun _ _ here => settle_runs here

end LuaStubs.Lua.Check
