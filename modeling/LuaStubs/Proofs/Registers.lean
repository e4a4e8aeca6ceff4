import LuaStubs.Proofs.Reading

/-! Registers of the main function. Locals hold at most 200 of its 255 registers, and a statement of a
stub file takes few more, so that bounds on what is taken are all that is needed. -/
namespace LuaStubs.Lua

theorem Func.level_le_active (f : Func) : f.level ≤ f.active := by
  calc f.level ≤ (f.locals.take f.active).length := List.length_filter_le _ _
    _ ≤ f.active := List.length_take_le _ _

namespace Check

/-- The main function is as `f`, with at most `spent` registers taken above its locals. -/
def Within (f : Func) (spent : Nat) (g : Func) (outer : List Func) : Prop :=
  outer = [] ∧ ∃ free ≤ f.level + spent, g = { f with free }

variable {f : Func} {spent : Nat} {tokens : List Token} {s : State}

theorem At.more {spent' : Nat} (here : At (Within f spent) tokens s) (le : spent ≤ spent') :
    At (Within f spent') tokens s := by
  obtain ⟨⟨alone,free,bound,same⟩,upcoming,whole⟩ := here
  exact ⟨⟨alone,free,by omega,same⟩,upcoming,whole⟩

/-- Any number of registers below the bound may be the first free one. -/
theorem At.withFree {spent' free : Nat} (here : At (Within f spent) tokens s)
    (bound : free ≤ f.level + spent') :
    At (Within f spent') tokens { s with func := { s.func with free } } := by
  obtain ⟨⟨alone,_,_,same⟩,upcoming,whole⟩ := here
  exact ⟨⟨alone,free,bound,by rw [same]⟩,upcoming,whole⟩

theorem At.free_le (here : At (Within f spent) tokens s) : s.func.free ≤ f.level + spent := by
  obtain ⟨⟨_,free,bound,same⟩,_,_⟩ := here
  rw [same]
  exact bound

theorem reserve_runs {n : Nat} (active : f.active ≤ 200) (small : spent + n ≤ 54)
    (here : At (Within f spent) tokens s) :
    Runs (reserve n) s fun _ => At (Within f (spent + n)) tokens := by
  have free := here.free_le
  have level := f.level_le_active
  have room : ¬255 ≤ s.func.free + n := by omega
  have checked : Runs (checkRegisters n) s fun _ s' => s' = s := by
    apply Runs.ofFunc
    rw [if_neg room]
    exact .pure rfl
  apply checked.bind
  rintro _ _ rfl
  exact .changeFunc (here.withFree (by omega))

theorem freeRegister_runs {r : Nat} (here : At (Within f spent) tokens s) :
    Runs (freeRegister r) s fun _ => At (Within f spent) tokens := by
  have free := here.free_le
  apply Runs.changeFunc
  split
  · exact here.withFree (by omega)
  · exact here

theorem freeExpr_runs {e : Expr} (here : At (Within f spent) tokens s) :
    Runs (freeExpr e) s fun _ => At (Within f spent) tokens := by
  unfold freeExpr
  split
  · exact freeRegister_runs here
  · exact .pure here

theorem discharge_runs {e : Expr} (here : At (Within f spent) tokens s) :
    Runs (discharge e) s fun _ => At (Within f spent) tokens := by
  unfold discharge
  split
  case h_6 => exact (freeRegister_runs here).bind fun _ _ after => .pure after
  case h_7 =>
    refine (freeRegister_runs here).bind fun _ _ here => ?_
    exact (freeRegister_runs here).bind fun _ _ after => .pure after
  all_goals exact .pure here

theorem toNextRegister_runs {e : Expr} (active : f.active ≤ 200) (small : spent + 1 ≤ 54)
    (here : At (Within f spent) tokens s) :
    Runs (toNextRegister e) s fun _ => At (Within f (spent + 1)) tokens := by
  refine (discharge_runs here).bind fun _ _ here => ?_
  refine (freeExpr_runs here).bind fun _ _ here => .ofFunc ?_
  exact (reserve_runs active small here).bind fun _ _ after => .pure after

theorem toRegister_runs {e : Expr} (active : f.active ≤ 200) (small : spent + 1 ≤ 54)
    (here : At (Within f spent) tokens s) :
    Runs (toRegister e) s fun _ => At (Within f (spent + 1)) tokens := by
  refine (discharge_runs here).bind fun e s here => ?_
  split
  · apply Runs.ofFunc
    split
    · exact .pure (here.more (by omega))
    · exact toNextRegister_runs active small here
  · exact toNextRegister_runs active small here

theorem toRegisterOrUpvalue_runs {e : Expr} (active : f.active ≤ 200) (small : spent + 1 ≤ 54)
    (here : At (Within f spent) tokens s) :
    Runs (toRegisterOrUpvalue e) s fun _ => At (Within f (spent + 1)) tokens := by
  unfold toRegisterOrUpvalue
  split
  · split
    · exact toRegister_runs active small here
    · exact .pure (here.more (by omega))
  · exact toRegister_runs active small here

theorem toOperand_runs {e : Expr} (active : f.active ≤ 200) (small : spent + 2 ≤ 54)
    (here : At (Within f spent) tokens s) :
    Runs (toOperand e) s fun _ => At (Within f (spent + 2)) tokens := by
  have value : Runs (toValue e) s fun _ => At (Within f (spent + 1)) tokens := by
    unfold toValue
    split
    · exact toRegister_runs active (by omega) here
    · exact (discharge_runs here).mono fun _ _ after => after.more (by omega)
  refine value.bind fun e s here => ?_
  split
  · exact .pure (here.more (by omega))
  · exact toRegister_runs active small here

/-- The places of a field. They can be assigned to, whatever variables there are. -/
def isFieldPlace : Place → Bool
  | .indexed _ _ | .field _ | .upvalueField _ => true
  | _ => false

theorem index_runs {table key : Expr} (active : f.active ≤ 200) (small : spent + 2 ≤ 54)
    (here : At (Within f spent) tokens s) :
    Runs (index table key) s fun e s' =>
      isFieldPlace e.place = true ∧ At (Within f (spent + 2)) tokens s' := by
  have indexed {s : State} (r : Nat) (here : At (Within f (spent + 1)) tokens s) :
      Runs (index.indexed key r) s fun e s' =>
        isFieldPlace e.place = true ∧ At (Within f (spent + 2)) tokens s' := by
    refine (toRegister_runs active small here).bind fun e s here => ?_
    split <;> exact .pure ⟨rfl,here⟩
  unfold index
  lift_lets
  intro access
  have accessed (table : Expr) {s : State} (here : At (Within f (spent + 1)) tokens s) :
      Runs (access table) s fun e s' =>
        isFieldPlace e.place = true ∧ At (Within f (spent + 2)) tokens s' := by
    unfold access
    split
    case h_1 => exact .pure ⟨rfl,here.more (by omega)⟩
    all_goals first
      | exact indexed _ here
      | exact .ite (fun _ => indexed _ here) fun _ => .pure ⟨rfl,here.more (by omega)⟩
  clear_value access
  split
  · refine .ite (fun _ => ?_) fun _ => accessed table (here.more (by omega))
    exact (toRegister_runs active (by omega) here).bind fun table _ here => accessed table here
  · exact (toRegister_runs active (by omega) here).bind fun table _ here => accessed table here
  · exact accessed table (here.more (by omega))

theorem store_runs {target : Place} {e : Expr} (field : isFieldPlace target = true)
    (active : f.active ≤ 200) (small : spent + 2 ≤ 54) (here : At (Within f spent) tokens s) :
    Runs (store target e) s fun _ => At (Within f (spent + 2)) tokens := by
  have operand : Runs (toOperand e >>= freeExpr) s fun _ => At (Within f (spent + 2)) tokens :=
    (toOperand_runs active small here).bind fun _ _ here => freeExpr_runs here
  cases target with
  | indexed table key => exact operand
  | field table => exact operand
  | upvalueField index => exact operand
  | _ => simp [isFieldPlace] at field

theorem checkWritable_runs {target : Place} (field : isFieldPlace target = true)
    (here : At (Within f spent) tokens s) :
    Runs (checkWritable target) s fun _ => At (Within f spent) tokens := by
  cases target with
  | indexed table key => exact .pure here
  | field table => exact .pure here
  | upvalueField index => exact .pure here
  | _ => simp [isFieldPlace] at field

/-- Without functions around it, a function takes nothing from outside. -/
theorem resolve_alone (name : Text) (f : Func) :
    ∃ place, resolve name f [] = .ok (place, f, []) := by
  unfold resolve
  split
  · split
    · exact ⟨_,rfl⟩
    · exact ⟨_,rfl⟩
  · split
    · exact ⟨_,rfl⟩
    · exact ⟨_,rfl⟩

theorem variableNamed_runs {name : Text} (here : At (Within f spent) tokens s) :
    Runs (variableNamed name) s fun _ => At (Within f spent) tokens := by
  obtain ⟨current,ahead,func,outer⟩ := s
  obtain rfl : outer = [] := here.scope.1
  obtain ⟨place,same⟩ := resolve_alone name func
  refine ⟨place,_,?_,here⟩
  unfold variableNamed
  simp only [StateT.run_bind,StateT.run_get,pure_bind,same,StateT.run_modify,StateT.run_pure]
  rfl

theorem variableExpr_runs {name : Text} (active : f.active ≤ 200) (small : spent + 3 ≤ 54)
    (here : At (Within f spent) tokens s) :
    Runs (variableExpr name) s fun _ => At (Within f (spent + 3)) tokens := by
  refine (variableNamed_runs here).bind fun place s here => ?_
  cases place with
  | some place => exact .pure (here.more (by omega))
  | none =>
    refine (variableNamed_runs here).bind fun environment s here => ?_
    refine (toRegisterOrUpvalue_runs active (by omega) here).bind fun table s here => ?_
    exact (index_runs active small here).mono fun _ _ outcome => outcome.2

theorem namedIndex_runs {e : Expr} {mark next : Token} {text : Text} {rest : List Token}
    (active : f.active ≤ 200) (small : spent + 3 ≤ 54)
    (here : At (Within f spent) (mark :: .name text :: next :: rest) s) :
    Runs (namedIndex e) s fun e s' =>
      isFieldPlace e.place = true ∧ At (Within f (spent + 3)) (next :: rest) s' := by
  refine (toRegisterOrUpvalue_runs active (by omega) here).bind fun e s here => ?_
  refine (advance_runs here).bind fun _ s here => ?_
  refine (name_runs here).bind ?_
  rintro _ s ⟨rfl,after⟩
  exact index_runs active small after

end Check
end LuaStubs.Lua
