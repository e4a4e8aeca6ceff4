import LuaStubs.Proofs.FileTree

/-! Generation with one worker for each module. A worker compares the file of its module with the text,
stages the text in a temporary file and puts that in place; the steps of the workers may be taken in any
order. A temporary file is known to its worker alone and is no part of the tree. The program itself is the
order in which each worker takes all its steps before the next one starts. -/
namespace LuaStubs.Generation

open Files (Tree Place IsFileName)

structure Job where
  name : Text
  text : Except Stub.Fault Text
  findings : List Finding

def Job.file (job : Job) : Text := job.name ++ ".lua"

inductive Phase where
  | waiting
  /-- The file was read, and holds something else. -/
  | stale (content : Text.Bytes)
  /-- The content is in a temporary file. -/
  | staged (content : Text.Bytes)
  | finished (status : Status)

def Phase.remaining : Phase → Nat
  | .waiting => 3
  | .stale _ => 2
  | .staged _ => 1
  | .finished _ => 0

structure State where
  tree : Tree
  phase : Nat → Phase

def start (t : Tree) : State := ⟨t, fun _ => .waiting⟩

def State.install (s : State) (worker : Nat) (result : Tree × Phase) : State :=
  ⟨result.1, fun other => if other = worker then result.2 else s.phase other⟩

section Run

variable (out : Files.Path)

def Job.outcome (job : Job) (status : Status) : Outcome :=
  ⟨job.name, fileOf out job.name, status, job.findings⟩

def Job.outcome? (job : Job) : Phase → Option Outcome
  | .finished status => some (job.outcome out status)
  | _ => none

/-- One step of a worker. Others may take theirs between any two. -/
def Job.advance (job : Job) (t : Tree) : Phase → Tree × Phase
  | .waiting =>
    match job.text with
    | .error fault => (t, .finished (.failed (.faulty fault)))
    | .ok text =>
      if t.holds (fileOf out job.name) (Text.utf8 text) then (t, .finished .unchanged)
      else (t, .stale (Text.utf8 text))
  | .stale content =>
    let dir := Tree.directoryOf (fileOf out job.name)
    match t.temporaryTrouble? dir with
    | some trouble =>
      (t, .finished (.failed (.unwritable ⟨fileOf out job.name, trouble,
        some (Files.Path.join dir Files.temporaryName)⟩)))
    | none => (t, .staged content)
  | .staged content =>
    match t.replace (fileOf out job.name) content with
    | .ok t => (t, .finished .written)
    | .error trouble =>
      (t, .finished (.failed (.unwritable ⟨fileOf out job.name, trouble, none⟩)))
  | .finished status => (t, .finished status)

def State.advance (jobs : List Job) (s : State) (worker : Nat) : State :=
  match jobs[worker]? with
  | some job => s.install worker (job.advance out s.tree (s.phase worker))
  | none => s

def execute (jobs : List Job) : List Nat → State → State
  | [], s => s
  | worker :: schedule, s => execute jobs schedule (s.advance out jobs worker)

def State.outcomesFrom (s : State) (first : Nat) : List Job → List Outcome
  | [] => []
  | job :: rest => (job.outcome? out (s.phase first)).toList ++ s.outcomesFrom (first + 1) rest

end Run

end LuaStubs.Generation

namespace LuaStubs

def Resolver.job (r : Resolver) (m : Api.Module) : Generation.Job :=
  ⟨m.name, (r.stubModule m).emit r.config.space, r.moduleFindings m⟩

namespace Generation

open Files (Tree Place IsFileName)

/-- Generate into a directory, with the steps of the workers in the order of a schedule. -/
def interleaved (api : Api) (config : Config) (out : Files.Path) (schedule : List Nat) (t : Tree) :
    Tree × Except Files.WriteError Report :=
  match t.makeAll out with
  | (t, some trouble) => (t, .error ⟨out, trouble, none⟩)
  | (t, none) =>
    let jobs := api.modules.map (api.resolver config).job
    let s := execute out jobs schedule (start t)
    (s.tree, .ok ⟨s.outcomesFrom out 0 jobs⟩)

/-- Every worker gets the steps that it needs. -/
def Complete (workers : Nat) (schedule : List Nat) : Prop :=
  ∀ worker < workers, 3 ≤ schedule.count worker

instance (workers : Nat) (schedule : List Nat) : Decidable (Complete workers schedule) :=
  inferInstanceAs (Decidable (∀ worker < workers, 3 ≤ schedule.count worker))

def oneByOne (first : Nat) : Nat → List Nat
  | 0 => []
  | workers + 1 => first :: first :: first :: oneByOne (first + 1) workers

variable {out : Files.Path} {jobs : List Job} {s : State} {t : Tree}

@[simp] theorem install_same (s : State) (worker : Nat) (result : Tree × Phase) :
    (s.install worker result).phase worker = result.2 := by simp [State.install]

@[simp] theorem install_other (s : State) {worker other : Nat} (result : Tree × Phase)
    (apart : other ≠ worker) : (s.install worker result).phase other = s.phase other := by
  simp [State.install,apart]

@[simp] theorem install_tree (s : State) (worker : Nat) (result : Tree × Phase) :
    (s.install worker result).tree = result.1 := rfl

theorem install_self (s : State) (worker : Nat) :
    s.install worker (s.tree,s.phase worker) = s := by
  have phases : (fun other => if other = worker then s.phase worker else s.phase other) = s.phase := by
    funext other
    by_cases same : other = worker <;> simp [same]
  unfold State.install
  rw [phases]

@[simp] theorem install_install (s : State) (worker : Nat) (first second : Tree × Phase) :
    (s.install worker first).install worker second = s.install worker second := by
  have phases : (fun other => if other = worker then second.2 else (s.install worker first).phase other) =
      fun other => if other = worker then second.2 else s.phase other := by
    funext other
    by_cases same : other = worker <;> simp [same]
  unfold State.install at phases ⊢
  rw [phases]

theorem advance_some {worker : Nat} {job : Job} (assigned : jobs[worker]? = some job) :
    s.advance out jobs worker = s.install worker (job.advance out s.tree (s.phase worker)) := by
  simp [State.advance,assigned]

theorem advance_none {worker : Nat} (unassigned : jobs[worker]? = none) :
    s.advance out jobs worker = s := by
  simp [State.advance,unassigned]

theorem Job.advance_remaining (job : Job) (t : Tree) (phase : Phase) :
    (job.advance out t phase).2.remaining ≤ phase.remaining - 1 := by
  cases phase with
  | waiting =>
    simp only [Job.advance]
    split
    · simp [Phase.remaining]
    · split <;> simp [Phase.remaining]
  | stale content => simp only [Job.advance]; split <;> simp [Phase.remaining]
  | staged content => simp only [Job.advance]; split <;> simp [Phase.remaining]
  | finished status => simp [Job.advance,Phase.remaining]

theorem advance_remaining (out : Files.Path) (s : State) {worker : Nat} (assigned : worker < jobs.length) (other : Nat) :
    ((s.advance out jobs other).phase worker).remaining ≤
      (s.phase worker).remaining - if other = worker then 1 else 0 := by
  by_cases same : other = worker
  · subst same
    rw [advance_some (List.getElem?_eq_getElem assigned),install_same,if_pos rfl]
    exact Job.advance_remaining _ _ _
  · rw [if_neg same]
    cases found : jobs[other]? with
    | none => rw [advance_none found]; omega
    | some job => rw [advance_some found,install_other _ _ (Ne.symm same)]; omega

theorem execute_remaining (out : Files.Path) (s : State) (schedule : List Nat) {worker : Nat}
    (assigned : worker < jobs.length) :
    ((execute out jobs schedule s).phase worker).remaining ≤
      (s.phase worker).remaining - schedule.count worker := by
  induction schedule generalizing s with
  | nil => simp [execute]
  | cons other schedule ih =>
    have rest := ih (s.advance out jobs other)
    have step := advance_remaining out s assigned other
    simp only [execute,List.count_cons,beq_iff_eq]
    omega

theorem finished_of_remaining {phase : Phase} (done : phase.remaining = 0) :
    ∃ status, phase = .finished status := by
  cases phase with
  | finished status => exact ⟨status,rfl⟩
  | _ => simp [Phase.remaining] at done

theorem finished_of_complete (out : Files.Path) (t : Tree) {schedule : List Nat} (complete : Complete jobs.length schedule)
    {worker : Nat} (assigned : worker < jobs.length) :
    ∃ status, (execute out jobs schedule (start t)).phase worker = .finished status := by
  refine finished_of_remaining ?_
  have bound := execute_remaining out (start t) schedule assigned
  have enough := complete worker assigned
  have first : ((start t).phase worker).remaining = 3 := rfl
  omega

theorem outcomesFrom_finished {first : Nat} {status : Job → Status}
    (finished : ∀ (worker : Nat) (job : Job), jobs[worker]? = some job →
      s.phase (first + worker) = .finished (status job)) :
    s.outcomesFrom out first jobs = jobs.map fun job => job.outcome out (status job) := by
  induction jobs generalizing first with
  | nil => rfl
  | cons job rest ih =>
    have head := finished 0 job rfl
    have tail : s.outcomesFrom out (first + 1) rest = rest.map fun job => job.outcome out (status job) :=
      ih fun worker later assigned => by
        rw [Nat.add_right_comm]
        exact finished (worker + 1) later assigned
    rw [State.outcomesFrom,tail]
    simp only [Nat.add_zero] at head
    rw [head]
    rfl

theorem Job.advance_thrice (job : Job) (t : Tree) :
    let first := job.advance out t .waiting
    let second := job.advance out first.1 first.2
    job.advance out second.1 second.2 =
      ((write t (fileOf out job.name) job.text).1,
        .finished (write t (fileOf out job.name) job.text).2) := by
  intro first second
  cases text : job.text with
  | error fault => simp [first,second,Job.advance,text,write]
  | ok written =>
    cases held : t.holds (fileOf out job.name) (Text.utf8 written) with
    | true => simp [first,second,Job.advance,text,write,Tree.write,held]
    | false =>
      cases trouble : t.temporaryTrouble? (Tree.directoryOf (fileOf out job.name)) with
      | some cause => simp [first,second,Job.advance,text,write,Tree.write,held,trouble]
      | none =>
        cases replaced : t.replace (fileOf out job.name) (Text.utf8 written) <;>
          simp [first,second,Job.advance,text,write,Tree.write,held,trouble,replaced]

theorem execute_thrice {worker : Nat} {job : Job} (assigned : jobs[worker]? = some job)
    (waiting : s.phase worker = .waiting) :
    execute out jobs [worker,worker,worker] s =
      s.install worker ((write s.tree (fileOf out job.name) job.text).1,
        .finished (write s.tree (fileOf out job.name) job.text).2) := by
  simp only [execute,advance_some assigned,install_same,install_tree,install_install,waiting]
  rw [Job.advance_thrice]

theorem execute_oneByOne (out : Files.Path) (r : Resolver) (ms : List Api.Module) (before : List Job) (s : State)
    (waiting : ∀ worker, before.length ≤ worker → s.phase worker = .waiting) :
    let u := execute out (before ++ ms.map r.job) (oneByOne before.length ms.length) s
    u.tree = (modules r out s.tree ms).1 ∧
      u.outcomesFrom out before.length (ms.map r.job) = (modules r out s.tree ms).2 ∧
      ∀ worker < before.length, u.phase worker = s.phase worker := by
  induction ms generalizing before s with
  | nil => exact ⟨rfl,rfl,fun _ _ => rfl⟩
  | cons m rest ih =>
    intro u
    let path := fileOf out m.name
    let result := write s.tree path (r.job m).text
    let next := s.install before.length (result.1,.finished result.2)
    have assigned : (before ++ (m :: rest).map r.job)[before.length]? = some (r.job m) := by simp
    have first : execute out (before ++ (m :: rest).map r.job)
        [before.length,before.length,before.length] s = next :=
      execute_thrice assigned (waiting _ (Nat.le_refl _))
    have length : (before ++ [r.job m]).length = before.length + 1 := by simp
    have later : u = execute out (before ++ [r.job m] ++ rest.map r.job)
        (oneByOne (before ++ [r.job m]).length rest.length) next := by
      rw [← first,length,List.append_assoc]
      rfl
    have unmoved : ∀ worker, (before ++ [r.job m]).length ≤ worker → next.phase worker = .waiting := by
      intro worker after
      rw [length] at after
      rw [install_other _ _ (by omega)]
      exact waiting worker (by omega)
    obtain ⟨tree,outcomes,earlier⟩ := ih (before ++ [r.job m]) next unmoved
    rw [← later,length] at outcomes
    rw [← later] at tree
    rw [← later,length] at earlier
    have done : u.phase before.length = .finished result.2 := by
      rw [earlier _ (Nat.lt_succ_self _),install_same]
    refine ⟨tree,?_,?_⟩
    · simp only [List.map_cons,State.outcomesFrom,done,outcomes]
      rfl
    · intro worker among
      rw [earlier worker (by omega),install_other _ _ (by omega)]

/-- The program takes the modules one by one, which is one of the orders. -/
theorem run_eq_interleaved (api : Api) (config : Config) (out : Files.Path) (t : Tree) :
    run api config out t = interleaved api config out (oneByOne 0 api.modules.length) t := by
  unfold run interleaved
  cases t.makeAll out with
  | mk u trouble =>
    cases trouble with
    | some trouble => rfl
    | none =>
      obtain ⟨tree,outcomes,-⟩ := execute_oneByOne out (api.resolver config) api.modules [] (start u)
        fun _ _ => rfl
      simp only [List.nil_append,List.length_nil] at tree outcomes
      simp only [tree,outcomes]
      rfl

theorem complete_oneByOne (first workers : Nat) {worker : Nat} (from_ : first ≤ worker)
    (below : worker < first + workers) : 3 ≤ (oneByOne first workers).count worker := by
  induction workers generalizing first with
  | zero => omega
  | succ workers ih =>
    by_cases same : worker = first
    · simp [oneByOne,same]
    · have rest := ih (first + 1) (by omega) (by omega)
      simpa [oneByOne,List.count_cons,Ne.symm same] using rest

end Generation

end LuaStubs
