import LuaStubs.Lua.Chunk
import LuaStubs.Proofs.Statements

/-! Every sequence of stub statements is a Lua program, within the limits on locals. -/
namespace LuaStubs.Lua.Check

variable {f : Func} {s : State}

def programTokens (statements : List Stub.Statement) : List Token :=
  statements.flatMap Stub.Statement.tokens ++ [.eof]

theorem statement_tokens_head (statement : Stub.Statement) : ∃ first more,
    statement.tokens = first :: more ∧ isStart first = true ∧ isBlockEnd true first = false ∧
      first ≠ .key "return" := by
  cases statement <;> exact ⟨_,_,rfl,rfl,rfl,by simp⟩

theorem programTokens_head (statements : List Stub.Statement) : ∃ first more,
    programTokens statements = first :: more ∧ isStart first = true := by
  cases statements with
  | nil => exact ⟨.eof,[],rfl,rfl⟩
  | cons statement statements =>
    obtain ⟨first,more,same,starts,_⟩ := statement_tokens_head statement
    exact ⟨first,more ++ programTokens statements,by simp [programTokens,same],starts⟩

theorem mem_paramTokens {params : List Text} {token : Token} (member : token ∈ paramTokens params) :
    token = .key "," ∨ ∃ name, token = Stub.paramToken name := by
  induction params with
  | nil => simp [paramTokens] at member
  | cons first more ih =>
    cases more with
    | nil => exact Or.inr ⟨first,List.mem_singleton.mp member⟩
    | cons second more =>
      change token ∈ Stub.paramToken first :: .key "," :: paramTokens (second :: more) at member
      rcases List.mem_cons.mp member with here | later
      · exact Or.inr ⟨first,here⟩
      · rcases List.mem_cons.mp later with comma | later
        · exact Or.inl comma
        · exact ih later

theorem statement_whole (statement : Stub.Statement) (fault : LexFault) :
    .broken fault ∉ statement.tokens := by
  have params (params : List Text) : .broken fault ∉ paramTokens params := by
    intro member
    rcases mem_paramTokens member with comma | ⟨name,same⟩
    · simp at comma
    · unfold Stub.paramToken at same
      split at same <;> simp at same
  unfold paramTokens at params
  cases statement <;> simp [Stub.Statement.tokens,Stub.declarationTokens,params]

theorem programTokens_whole (statements : List Stub.Statement) :
    ∀ token ∈ programTokens statements, ∀ fault, token ≠ .broken fault := by
  rintro _ member fault rfl
  rcases List.mem_append.mp member with inside | last
  · obtain ⟨statement,_,inside⟩ := List.mem_flatMap.mp inside
    exact statement_whole statement fault inside
  · simp at last

structure Ready (f : Func) (statements : List Stub.Statement) : Prop where
  blocks : f.blocks = [⟨0, 0, 0, false⟩]
  gotos : f.gotos = []
  active : f.active = f.locals.length
  room : f.locals.length + (statements.flatMap declares).length ≤ 200
  fits : ∀ statement ∈ statements, Fits statement

theorem Ready.first_fits {statement : Stub.Statement} {statements : List Stub.Statement}
    (ready : Ready f (statement :: statements)) :
    f.active ≤ 200 ∧ f.locals.length + (declares statement).length ≤ 200 := by
  have room := ready.room
  simp only [List.flatMap_cons,List.length_append] at room
  rw [ready.active]
  constructor <;> omega

theorem Ready.next {statement : Stub.Statement} {statements : List Stub.Statement}
    (ready : Ready f (statement :: statements)) : Ready (after f statement) statements := by
  obtain ⟨blocks,gotos,active,room,fits⟩ := ready
  have others : ∀ other ∈ statements, Fits other := fun other member => fits other (by simp [member])
  simp only [List.flatMap_cons,List.length_append] at room
  cases statement with
  | classTable name =>
    refine ⟨blocks,gotos,?_,?_,others⟩
    · simp [after,withLocal,active]
    · simp only [after,withLocal,declares,List.length_append,List.length_singleton] at room ⊢
      omega
  | _ => exact ⟨blocks,gotos,active,by simpa [declares,after] using room,others⟩

/-- A block of stub statements up to the end of the chunk. -/
theorem statements_runs {n : Nat} {statements : List Stub.Statement} (ready : Ready f statements)
    (here : At (Within f 0) (programTokens statements) s) :
    Runs (Check.statements (level (n + 2))) s fun _ => At (Outermost []) [.eof] := by
  refine Runs.bind (Runs.repeatFrom (fun isOpen s => isOpen = true ∧
    ∃ f statements, Ready f statements ∧ At (Within f 0) (programTokens statements) s)
    (fun _ => At (Outermost []) [.eof]) ?_ ⟨rfl,f,statements,ready,here⟩)
    fun _ _ outcome => .pure outcome
  rintro _ s ⟨rfl,f,statements,ready,here⟩
  apply Runs.ofToken
  cases statements with
  | nil =>
    obtain ⟨alone,free,_,same⟩ := here.scope
    rw [At.current here]
    refine .pure ⟨⟨alone,?_,?_⟩,here.upcoming,here.whole⟩
    · rw [same]
      exact ready.blocks
    · rw [same]
      exact ready.gotos
  | cons statement statements =>
    obtain ⟨first,more,tokens,_,notEnd,notReturn⟩ := statement_tokens_head statement
    obtain ⟨next,rest,same,nextStarts⟩ := programTokens_head statements
    have read : At (Within f 0) (statement.tokens ++ next :: rest) s := by
      rw [← same]
      simpa [programTokens] using here
    have current : s.current.token = first := by
      rw [tokens] at read
      exact At.current read
    obtain ⟨active,room⟩ := ready.first_fits
    rw [current,notEnd]
    refine (statement_runs statement (ready.fits statement (by simp)) nextStarts active room
      read).bind fun _ s' after => ?_
    rw [bne_iff_ne.mpr notReturn]
    refine .pure ⟨⟨rfl,_,statements,ready.next,by rw [same]; exact after⟩,?_⟩
    refine after.shorter read.upcoming ?_
    simp only [tokens,List.length_append,List.length_cons]
    omega

/-- The whole chunk: the statements, then its end. -/
theorem program_runs {statements : List Stub.Statement} {source : Text} {n : Nat}
    (lexed : Lexes source (programTokens statements))
    (few : (statements.flatMap declares).length ≤ 200) (fits : ∀ s ∈ statements, Fits s) :
    Runs (program (level (n + 2))) (Chunk.start source) fun _ _ => True := by
  obtain ⟨first,more,same,_⟩ := programTokens_head statements
  let main : Func :=
    { line := 0, isVararg := true, upvalues := [⟨"_ENV", false⟩], blocks := [⟨0, 0, 0, false⟩] }
  have ready : Ready main statements := ⟨rfl,rfl,rfl,by simpa [main] using few,fits⟩
  have tokens := lexed (source.length + 1) 1 (Nat.le_succ _)
  have here : At (Within main 0) (.eof :: first :: more) { Chunk.start source with func := main } := by
    refine ⟨⟨rfl,0,Nat.zero_le _,rfl⟩,?_,?_⟩
    · change .eof :: (scan (source.length + 1) 1 source).map Lexeme.token = _
      rw [tokens,same]
    · intro token member
      rcases List.mem_cons.mp member with rfl | inside
      · simp
      · exact programTokens_whole statements token (same ▸ inside)
  apply Runs.thenChangeFunc
  refine (advance_runs here).bind fun _ s here => ?_
  refine (statements_runs ready (same ▸ here)).bind fun _ s here => .ofToken ?_
  rw [here.current]
  exact (leaveBlock_runs here).mono fun _ _ _ => trivial

/-- A text of stub statements is a chunk that loads. -/
theorem refusal_of_lexes {statements : List Stub.Statement} {source : Text}
    (lexed : Lexes source (programTokens statements))
    (few : (statements.flatMap declares).length ≤ 200) (fits : ∀ s ∈ statements, Fits s) :
    Chunk.refusal? source = none := by
  obtain ⟨_,_,ran,_⟩ := program_runs (n := 197) lexed few fits
  unfold Chunk.refusal? Chunk.depth
  rw [ran]

end LuaStubs.Lua.Check
