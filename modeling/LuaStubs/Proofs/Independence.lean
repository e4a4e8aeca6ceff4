import LuaStubs.Proofs.Interleaving
import LuaStubs.Proofs.KnownNames
import LuaStubs.Proofs.Loading

/-! Workers do not interfere: each writes one file of its own and reads no other, so the tree and the
outcomes at the end are the same for every order of their steps. -/
namespace LuaStubs

namespace Generation

open Files (Tree Place IsFileName)

def Job.expected (out : Files.Path) (t : Tree) (job : Job) : Status :=
  match job.text with
  | .error fault => .failed (.faulty fault)
  | .ok text =>
    if t.holds (fileOf out job.name) (Text.utf8 text) then .unchanged else .written

structure Ready (out : Files.Path) (t : Tree) (place : Place) (jobs : List Job) : Prop where
  leads : t.Leads out place
  distinct : (jobs.map Job.name).Nodup
  named : ∀ job ∈ jobs, ∀ text, job.text = .ok text → IsFileName job.file
  writable : ∀ job ∈ jobs, ∀ text, job.text = .ok text →
    ∃ result, t.write (fileOf out job.name) text = .ok result

/-- Phases that a worker can be in, with what it has found out. -/
inductive Job.Fits (out : Files.Path) (t : Tree) (job : Job) : Phase → Prop
  | waiting : Fits out t job .waiting
  | stale {text : Text} (some : job.text = .ok text)
      (differs : t.holds (fileOf out job.name) (Text.utf8 text) = false) :
      Fits out t job (.stale (Text.utf8 text))
  | staged {text : Text} (some : job.text = .ok text)
      (differs : t.holds (fileOf out job.name) (Text.utf8 text) = false) :
      Fits out t job (.staged (Text.utf8 text))
  | finished {status : Status} (expected : status = job.expected out t) :
      Fits out t job (.finished status)

/-- The tree differs from the one at the start by the files of the workers that have written. -/
structure Valid (out : Files.Path) (t : Tree) (place : Place) (jobs : List Job) (s : State) : Prop where
  fits : ∀ (worker : Nat) (job : Job), jobs[worker]? = some job → job.Fits out t (s.phase worker)
  stored : ∀ (worker : Nat) (job : Job) (text : Text), jobs[worker]? = some job → job.text = .ok text →
    s.phase worker = .finished .written →
    s.tree.node? (place ++ [job.file]) = some (.file (Text.utf8 text))
  kept : ∀ other : Place, (∀ (worker : Nat) (job : Job), jobs[worker]? = some job →
    s.phase worker = .finished .written → other ≠ place ++ [job.file]) →
    s.tree.node? other = t.node? other

variable {out : Files.Path} {t u : Tree} {place : Place} {jobs : List Job} {s : State} {job : Job}
  {text : Text} {worker : Nat}

theorem Job.expected_error {fault : Stub.Fault} (none : job.text = .error fault) :
    job.expected out t = .failed (.faulty fault) := by simp [Job.expected,none]

theorem Job.expected_ok (some : job.text = .ok text) : job.expected out t =
    if t.holds (fileOf out job.name) (Text.utf8 text) then .unchanged else .written := by
  simp [Job.expected,some]

theorem Job.text_of_written (written : job.expected out t = .written) :
    ∃ text, job.text = .ok text ∧ t.holds (fileOf out job.name) (Text.utf8 text) = false := by
  cases some : job.text with
  | error fault => simp [Job.expected_error some] at written
  | ok text =>
    rw [Job.expected_ok some] at written
    exact ⟨text,rfl,by simpa using written⟩

theorem start_valid : Valid out t place jobs (start t) :=
  ⟨fun _ _ _ => .waiting,(fun _ _ _ _ _ finished => nomatch finished),fun _ _ => rfl⟩

theorem Valid.fits_install (valid : Valid out t place jobs s) (assigned : jobs[worker]? = some job)
    {tree : Tree} {phase : Phase} (fits : job.Fits out t phase) (other : Nat) (second : Job)
    (among : jobs[other]? = some second) :
    second.Fits out t ((s.install worker (tree,phase)).phase other) := by
  by_cases same : other = worker
  · subst same
    rw [assigned] at among
    cases among
    rwa [install_same]
  · rw [install_other _ _ same]
    exact valid.fits other second among

/-- The step of a worker that has not written undoes no other. -/
theorem written_install {other : Nat} {result : Tree × Phase}
    (unwritten : s.phase worker ≠ .finished .written) (written : s.phase other = .finished .written) :
    (s.install worker result).phase other = .finished .written := by
  rw [install_other _ _ (by rintro rfl; exact unwritten written)]
  exact written

/-- A step that leaves the tree alone. -/
theorem Valid.install (valid : Valid out t place jobs s) (assigned : jobs[worker]? = some job)
    (unwritten : s.phase worker ≠ .finished .written) {phase : Phase} (fits : job.Fits out t phase)
    (other : phase ≠ .finished .written) : Valid out t place jobs (s.install worker (s.tree,phase)) := by
  refine ⟨valid.fits_install assigned fits,?_,?_⟩
  · intro i second text among some written
    have apart : i ≠ worker := by
      rintro rfl
      exact other ((install_same ..).symm.trans written)
    rw [install_other _ _ apart] at written
    exact valid.stored i second text among some written
  · intro place kept
    exact valid.kept place fun i second among written =>
      kept i second among (written_install unwritten written)

section Workers

variable (ready : Ready out t place jobs)
include ready

theorem Ready.fits (among : job ∈ jobs) (some : job.text = .ok text) :
    Text.byteSize job.file ≤ 255 ∧ t.isDirectory (place ++ [job.file]) = false ∧
      (t.holds (fileOf out job.name) (Text.utf8 text) = false →
        t.temporaryTrouble? (Tree.directoryOf (fileOf out job.name)) = none) := by
  have named := ready.named job among text some
  obtain ⟨result,written⟩ := ready.writable job among text some
  unfold Tree.write at written
  cases held : t.holds (fileOf out job.name) (Text.utf8 text) with
  | true =>
    obtain ⟨short,there⟩ := (named.holds_join ready.leads).mp held
    exact ⟨short,by simp [Tree.isDirectory,there],nofun⟩
  | false =>
    cases trouble : t.temporaryTrouble? (Tree.directoryOf (fileOf out job.name)) with
    | some cause => simp [held,trouble] at written
    | none =>
      cases replaced : t.replace (fileOf out job.name) (Text.utf8 text) with
      | error cause => simp [held,trouble,replaced] at written
      | ok u =>
        obtain ⟨short,clear,-⟩ := (named.replace_join ready.leads).mp replaced
        exact ⟨short,clear,fun _ => rfl⟩

/-- No two workers have one file. -/
theorem Ready.own_file {other : Nat} {second : Job} (first : jobs[worker]? = some job)
    (assigned : jobs[other]? = some second) (same : place ++ [second.file] = place ++ [job.file]) :
    other = worker := by
  have names : second.name = job.name := by
    have files : second.file = job.file := by simpa using same
    exact List.append_cancel_right files
  have bound : other < (jobs.map Job.name).length := by
    simpa using (List.getElem?_eq_some_iff.mp assigned).1
  refine (List.getElem?_inj bound ready.distinct).mp ?_
  simp [assigned,first,names]

theorem Valid.cleared (valid : Valid out t place jobs s) (assigned : jobs[worker]? = some job)
    (written : s.phase worker = .finished .written) :
    ∃ text, job.text = .ok text ∧ t.isDirectory (place ++ [job.file]) = false := by
  have fits := valid.fits worker job assigned
  rw [written] at fits
  cases fits with
  | finished expected =>
    obtain ⟨text,some,-⟩ := Job.text_of_written expected.symm
    exact ⟨text,some,(ready.fits (List.mem_of_getElem? assigned) some).2.1⟩

theorem Valid.extends (valid : Valid out t place jobs s) : Tree.Extends t s.tree := by
  constructor
  · intro other inside
    have same : s.tree.node? other = t.node? other := by
      refine valid.kept other fun worker job assigned written => ?_
      rintro rfl
      obtain ⟨-,-,clear⟩ := valid.cleared ready assigned written
      simp [clear] at inside
    rwa [Tree.isDirectory,same]
  · intro other present
    by_cases taken : ∃ (worker : Nat) (job : Job), jobs[worker]? = some job ∧
        s.phase worker = .finished .written ∧ other = place ++ [job.file]
    · obtain ⟨worker,job,assigned,written,rfl⟩ := taken
      obtain ⟨text,some,-⟩ := valid.cleared ready assigned written
      simp [valid.stored worker job text assigned some written]
    · rw [valid.kept other fun worker job assigned written same =>
        taken ⟨worker,job,assigned,written,same⟩]
      exact present

theorem Valid.leads (valid : Valid out t place jobs s) : s.tree.Leads out place :=
  ready.leads.extend (valid.extends ready)

/-- A worker that has not written finds its file as it was at the start. -/
theorem Valid.untouched (valid : Valid out t place jobs s) (assigned : jobs[worker]? = some job)
    (unwritten : s.phase worker ≠ .finished .written) :
    s.tree.node? (place ++ [job.file]) = t.node? (place ++ [job.file]) := by
  refine valid.kept _ fun other second among written same => unwritten ?_
  rw [← ready.own_file assigned among same.symm]
  exact written

theorem Valid.holds (valid : Valid out t place jobs s) (assigned : jobs[worker]? = some job)
    (unwritten : s.phase worker ≠ .finished .written) (some : job.text = .ok text) :
    s.tree.holds (fileOf out job.name) (Text.utf8 text) =
      t.holds (fileOf out job.name) (Text.utf8 text) := by
  have named := ready.named job (List.mem_of_getElem? assigned) text some
  rw [Bool.eq_iff_iff]
  exact (named.holds_join (valid.leads ready)).trans (by
    rw [valid.untouched ready assigned unwritten]
    exact (named.holds_join ready.leads).symm)

/-- The step that puts the content in place. -/
theorem Valid.store (valid : Valid out t place jobs s) (assigned : jobs[worker]? = some job)
    (unwritten : s.phase worker ≠ .finished .written) (some : job.text = .ok text)
    (differs : t.holds (fileOf out job.name) (Text.utf8 text) = false) :
    Valid out t place jobs (s.install worker
      (s.tree.put (place ++ [job.file]) (.file (Text.utf8 text)),.finished .written)) := by
  refine ⟨valid.fits_install assigned (.finished (by simp [Job.expected_ok some,differs])),?_,?_⟩
  · intro i second content among given written
    rw [install_tree,Tree.node?_put _ _ (by simp)]
    by_cases same : i = worker
    · subst same
      rw [assigned] at among
      cases among
      rw [some] at given
      cases given
      simp
    · rw [install_other _ _ same] at written
      rw [if_neg fun shared => same (ready.own_file assigned among shared)]
      exact valid.stored i second content among given written
  · intro other kept
    have apart : other ≠ place ++ [job.file] := kept worker job assigned (install_same ..)
    rw [install_tree,Tree.node?_put _ _ (by simp),if_neg apart]
    exact valid.kept other fun i second among written =>
      kept i second among (written_install unwritten written)

theorem advance_valid (valid : Valid out t place jobs s) (worker : Nat) :
    Valid out t place jobs (s.advance out jobs worker) := by
  cases assigned : jobs[worker]? with
  | none => rwa [advance_none assigned]
  | some job =>
    have among := List.mem_of_getElem? assigned
    have fits := valid.fits worker job assigned
    rw [advance_some assigned]
    generalize phase : s.phase worker = current at fits ⊢
    -- only a staged worker changes the tree, and only at its own file
    cases fits with
    | waiting =>
      have unwritten : s.phase worker ≠ .finished .written := by simp [phase]
      cases some : job.text with
      | error fault =>
        simp only [Job.advance,some]
        exact valid.install assigned unwritten (.finished (Job.expected_error some).symm) (by simp)
      | ok text =>
        simp only [Job.advance,some,valid.holds ready assigned unwritten some]
        cases held : t.holds (fileOf out job.name) (Text.utf8 text) with
        | true =>
          exact valid.install assigned unwritten (.finished (by simp [Job.expected_ok some,held])) (by simp)
        | false => exact valid.install assigned unwritten (.stale some held) (by simp)
    | stale some differs =>
      have free := (ready.fits among some).2.2 differs
      simp only [Job.advance,(valid.extends ready).temporaryTrouble? free]
      exact valid.install assigned (by simp [phase]) (.staged some differs) (by simp)
    | @staged text some differs =>
      have unwritten : s.phase worker ≠ .finished .written := by simp [phase]
      have named := ready.named job among text some
      obtain ⟨short,clear,-⟩ := ready.fits among some
      have stillClear : s.tree.isDirectory (place ++ [job.file]) = false := by
        rwa [Tree.isDirectory,valid.untouched ready assigned unwritten]
      have replaced : s.tree.replace (fileOf out job.name) (Text.utf8 text) = .ok _ :=
        (named.replace_join (valid.leads ready)).mpr ⟨short,stillClear,rfl⟩
      simp only [Job.advance,replaced]
      exact valid.store ready assigned unwritten some differs
    | finished expected =>
      rw [Job.advance,← phase,install_self]
      exact valid

theorem execute_valid (valid : Valid out t place jobs s) (schedule : List Nat) :
    Valid out t place jobs (execute out jobs schedule s) := by
  induction schedule generalizing s with
  | nil => exact valid
  | cons worker schedule ih => exact ih (advance_valid ready valid worker)

/-- Workers that have had their steps are done, with the outcome that was to be expected. -/
theorem phase_of_complete {schedule : List Nat} (complete : Complete jobs.length schedule)
    (assigned : jobs[worker]? = some job) :
    (execute out jobs schedule (start t)).phase worker = .finished (job.expected out t) := by
  have bound := (List.getElem?_eq_some_iff.mp assigned).1
  obtain ⟨status,finished⟩ := finished_of_complete out t complete bound
  have fits := (execute_valid ready start_valid schedule).fits worker job assigned
  rw [finished] at fits ⊢
  cases fits with
  | finished expected => rw [expected]

end Workers

/-- Every text is in its file, and nothing else has changed. -/
structure Generated (t : Tree) (place : Place) (jobs : List Job) (u : Tree) : Prop where
  written : ∀ job ∈ jobs, ∀ text, job.text = .ok text →
    u.node? (place ++ [job.file]) = some (.file (Text.utf8 text))
  kept : ∀ other, (∀ job ∈ jobs, ∀ text, job.text = .ok text → other ≠ place ++ [job.file]) →
    u.node? other = t.node? other

theorem Generated.unique {v : Tree} (first : Generated t place jobs u) (second : Generated t place jobs v)
    (other : Place) : u.node? other = v.node? other := by
  by_cases taken : ∃ job ∈ jobs, ∃ text, job.text = .ok text ∧ other = place ++ [job.file]
  · obtain ⟨job,among,text,some,rfl⟩ := taken
    rw [first.written job among text some,second.written job among text some]
  · have free : ∀ job ∈ jobs, ∀ text, job.text = .ok text → other ≠ place ++ [job.file] :=
      fun job among text some same => taken ⟨job,among,text,some,same⟩
    rw [first.kept other free,second.kept other free]

/-- The file of a job without a text is left alone. -/
theorem Generated.failed (generated : Generated t place jobs u) (ready : Ready out t place jobs)
    (among : job ∈ jobs) {fault : Stub.Fault} (none : job.text = .error fault) :
    u.node? (place ++ [job.file]) = t.node? (place ++ [job.file]) := by
  refine generated.kept _ fun second listed text some here => ?_
  obtain ⟨worker,assigned⟩ := List.getElem?_of_mem among
  obtain ⟨other,found⟩ := List.getElem?_of_mem listed
  rw [ready.own_file assigned found here.symm,assigned] at found
  cases found
  simp [none] at some

/-- What is generated once is there to be generated again. -/
theorem Generated.again (generated : Generated t place jobs u) : Generated u place jobs u :=
  ⟨generated.written,fun _ _ => rfl⟩

theorem Generated.perm {others : List Job} (generated : Generated t place jobs u)
    (same : others.Perm jobs) : Generated t place others u :=
  ⟨fun job among => generated.written job (same.mem_iff.mp among),
    fun place free => generated.kept place fun job among => free job (same.mem_iff.mpr among)⟩

theorem Ready.perm {others : List Job} (ready : Ready out t place jobs) (same : others.Perm jobs) :
    Ready out t place others :=
  ⟨ready.leads,(same.map Job.name).nodup_iff.mpr ready.distinct,
    fun job among => ready.named job (same.mem_iff.mp among),
    fun job among => ready.writable job (same.mem_iff.mp among)⟩

section Workers

variable (ready : Ready out t place jobs)
include ready

theorem execute_generated {schedule : List Nat} (complete : Complete jobs.length schedule) :
    Generated t place jobs (execute out jobs schedule (start t)).tree := by
  have valid := execute_valid ready start_valid schedule
  constructor
  · intro job among text some
    obtain ⟨worker,assigned⟩ := List.getElem?_of_mem among
    have finished := phase_of_complete ready complete assigned
    cases held : t.holds (fileOf out job.name) (Text.utf8 text) with
    | false =>
      rw [Job.expected_ok some,held] at finished
      exact valid.stored worker job text assigned some finished
    | true =>
      have unwritten : (execute out jobs schedule (start t)).phase worker ≠ .finished .written := by
        rw [finished,Job.expected_ok some,held]
        simp
      rw [valid.untouched ready assigned unwritten]
      exact (((ready.named job among text some).holds_join ready.leads).mp held).2
  · intro other free
    refine valid.kept other fun worker job assigned written => ?_
    obtain ⟨text,some,-⟩ := valid.cleared ready assigned written
    exact free job (List.mem_of_getElem? assigned) text some

theorem outcomesFrom_of_complete {schedule : List Nat} (complete : Complete jobs.length schedule) :
    (execute out jobs schedule (start t)).outcomesFrom out 0 jobs =
      jobs.map fun job => job.outcome out (job.expected out t) := by
  refine outcomesFrom_finished fun worker job assigned => ?_
  rw [Nat.zero_add]
  exact phase_of_complete ready complete assigned

theorem holds_of_complete {schedule : List Nat} (complete : Complete jobs.length schedule)
    (among : job ∈ jobs) (some : job.text = .ok text) :
    (execute out jobs schedule (start t)).tree.holds (fileOf out job.name) (Text.utf8 text) = true := by
  have leads := (execute_valid ready start_valid schedule).leads ready
  exact ((ready.named job among text some).holds_join leads).mpr
    ⟨(ready.fits among some).1,(execute_generated ready complete).written job among text some⟩

/-- The jobs can be done once more. -/
theorem Ready.again {schedule : List Nat} (complete : Complete jobs.length schedule) :
    Ready out (execute out jobs schedule (start t)).tree place jobs := by
  refine ⟨(execute_valid ready start_valid schedule).leads ready,ready.distinct,ready.named,
    fun job among text some => ?_⟩
  exact ⟨(_,false),if_pos (holds_of_complete ready complete among some)⟩

end Workers

def Status.repeated : Status → Status
  | .failed error => .failed error
  | _ => .unchanged

theorem expected_again (ready : Ready out t place jobs) {schedule : List Nat}
    (complete : Complete jobs.length schedule) (among : job ∈ jobs) :
    job.expected out (execute out jobs schedule (start t)).tree = (job.expected out t).repeated := by
  cases some : job.text with
  | error fault => rw [Job.expected_error some,Job.expected_error some,Status.repeated]
  | ok text =>
    rw [Job.expected_ok some,Job.expected_ok some,holds_of_complete ready complete among some,if_pos rfl]
    split <;> rfl

def emission (api : Api) (config : Config) (m : Api.Module) : Except Stub.Fault Text :=
  ((api.resolver config).stubModule m).emit config.space

/-- What becomes of a module of a model, in whatever order the modules are taken. It fails if it has no
text, and is left alone if its file holds the text before. -/
def outcomeOf (api : Api) (config : Config) (out : Files.Path) (t : Tree) (m : Api.Module) : Outcome :=
  ((api.resolver config).job m).outcome out (((api.resolver config).job m).expected out t)

def Outcome.repeated (o : Outcome) : Outcome := { o with status := o.status.repeated }

section Models

variable {api other : Api} {config : Config} {schedule : List Nat}

theorem isFileName_of_emission {m : Api.Module} (some : emission api config m = .ok text) :
    IsFileName (m.name ++ ".lua") := by
  obtain ⟨faultless,-⟩ := Stub.Module.emit_eq_ok some
  exact Files.isFileName_of_name (Stub.Module.named_of_faults faultless).name

theorem ready_of_writable (distinct : (api.modules.map Api.Module.name).Nodup)
    (leads : t.Leads out place)
    (writable : ∀ m ∈ api.modules, ∀ text, emission api config m = .ok text →
      ∃ result, t.write (fileOf out m.name) text = .ok result) :
    Ready out t place (api.modules.map (api.resolver config).job) := by
  refine ⟨leads,?_,?_,?_⟩
  · rw [List.map_map]
    exact distinct
  · intro job among text some
    obtain ⟨m,member,rfl⟩ := List.mem_map.mp among
    exact isFileName_of_emission some
  · intro job among text some
    obtain ⟨m,member,rfl⟩ := List.mem_map.mp among
    exact writable m member text some

theorem job_of_perm (config : Config) (same : other.modules.Perm api.modules) :
    (other.resolver config).job = (api.resolver config).job := by
  have agree := Api.resolver_agrees config same
  funext m
  simp only [Resolver.job,agree.stubModule,agree.config,agree.moduleFindings]

/-- A complete run gives every module its outcome and leaves every text in its file. -/
theorem interleaved_of_ready (usable : t.makeAll out = (u,none))
    (ready : Ready out u place (other.modules.map (api.resolver config).job))
    (same : other.modules.Perm api.modules) (complete : Complete other.modules.length schedule) :
    ∃ v, interleaved other config out schedule t =
        (v,.ok ⟨other.modules.map (outcomeOf api config out u)⟩) ∧
      Generated u place (other.modules.map (api.resolver config).job) v ∧
      Ready out v place (other.modules.map (api.resolver config).job) ∧
      ∀ m ∈ other.modules, outcomeOf api config out v m = (outcomeOf api config out u m).repeated := by
  have enough : Complete (other.modules.map (api.resolver config).job).length schedule := by
    simpa using complete
  refine ⟨_,?_,execute_generated ready enough,ready.again enough,?_⟩
  · simp only [interleaved,usable,job_of_perm config same,outcomesFrom_of_complete ready enough,
      List.map_map]
    rfl
  · intro m member
    have again := expected_again ready enough (List.mem_map_of_mem member)
    rw [outcomeOf,again]
    rfl

end Models

/-- Every order of the steps of all workers, for the modules of a model in any order, leaves the same
tree and gives each module the same outcome. -/
theorem generation_in_any_order (pointer : Option Text)
    (documents : List (Except LoadError Api.Document)) (api other : Api) (config : Config)
    (out : Files.Path) (t u : Tree) (schedule : List Nat)
    (loaded : Api.loadAll pointer ⟨[]⟩ documents = .ok api)
    (usable : t.makeAll out = (u, none))
    (writable : ∀ m ∈ api.modules, ∀ text, emission api config m = .ok text →
      ∃ result, u.write (fileOf out m.name) text = .ok result)
    (same : other.modules.Perm api.modules)
    (complete : Complete other.modules.length schedule) :
    -- the directory is made where there was nothing
    (Tree.Deepens t u ∧ (t.hasDirectory out = true → u = t)) ∧
    -- the program's own order is one of the orders
    (Complete other.modules.length (oneByOne 0 other.modules.length) ∧ ∀ tree,
      run other config out tree =
        interleaved other config out (oneByOne 0 other.modules.length) tree) ∧
    ∃ v, interleaved other config out schedule t =
        (v, .ok ⟨other.modules.map (outcomeOf api config out u)⟩) ∧
      -- each text is in its file, and all else is as it was, the file of a module without a text too
      (∀ m ∈ api.modules, ∀ text, emission api config m = .ok text →
        v.read (fileOf out m.name) = .ok (Text.utf8 text)) ∧
      (∀ place, (∀ m ∈ api.modules, ∀ text, emission api config m = .ok text →
        v.locate (fileOf out m.name) ≠ .ok place) → v.node? place = u.node? place) ∧
      (∀ m ∈ api.modules, ∀ fault, emission api config m = .error fault →
        IsFileName (m.name ++ ".lua") → ∀ content,
          v.read (fileOf out m.name) = .ok content ↔ u.read (fileOf out m.name) = .ok content) ∧
      (∃ w, run api config out t = (w, .ok ⟨api.modules.map (outcomeOf api config out u)⟩) ∧
        ∀ place, w.node? place = v.node? place) ∧
      -- another run, in any order again, changes nothing
      ∀ later, Complete other.modules.length later →
        ∃ w, interleaved other config out later v =
            (w, .ok ⟨other.modules.map fun m => (outcomeOf api config out u m).repeated⟩) ∧
          ∀ place, w.node? place = v.node? place := by
  obtain ⟨place,leads⟩ := Tree.leads_of_makeAll usable
  have distinct := Api.distinct_of_loadAll loaded List.nodup_nil
  have ready := ready_of_writable distinct leads writable
  have jobs := same.map (api.resolver config).job
  have oneByOneComplete (n : Nat) : Complete n (oneByOne 0 n) := fun worker below =>
    complete_oneByOne 0 n (Nat.zero_le _) (by omega)
  obtain ⟨v,ran,generated,again,repeated⟩ := interleaved_of_ready usable (ready.perm jobs) same complete
  have inOrder := generated.perm jobs.symm
  have written {m : Api.Module} {text : Text} (member : m ∈ api.modules)
      (some : emission api config m = .ok text) : Text.byteSize (m.name ++ ".lua") ≤ 255 ∧
        v.node? (place ++ [m.name ++ ".lua"]) = .some (.file (Text.utf8 text)) :=
    ⟨(ready.fits (List.mem_map_of_mem member) some).1,
      inOrder.written _ (List.mem_map_of_mem member) text some⟩
  refine ⟨⟨Tree.deepens_of_makeAllWith usable,?_⟩,
    ⟨oneByOneComplete _,fun tree => run_eq_interleaved other config out tree⟩,
    v,ran,?_,?_,?_,?_,?_⟩
  · intro there
    obtain ⟨-,place,found⟩ := Tree.hasDirectory_iff.mp there
    rw [found.makeAll] at usable
    cases usable
    rfl
  · intro m member text some
    exact ((isFileName_of_emission some).read_join again.leads).mpr (written member some)
  · intro spot free
    refine inOrder.kept spot fun job among text some here => ?_
    obtain ⟨m,member,rfl⟩ := List.mem_map.mp among
    obtain ⟨short,there⟩ := written member some
    exact free m member text some
      (((isFileName_of_emission some).locate_join again.leads).mpr ⟨short,by rw [there]; rfl,here⟩)
  · intro m member fault none named content
    have untouched : v.node? (place ++ [m.name ++ ".lua"]) = u.node? (place ++ [m.name ++ ".lua"]) :=
      inOrder.failed ready (List.mem_map_of_mem member) none
    refine (named.read_join again.leads).trans ?_
    rw [untouched]
    exact (named.read_join leads).symm
  · obtain ⟨w,first,generatedInOrder,-⟩ :=
      interleaved_of_ready usable ready (List.Perm.refl _) (oneByOneComplete _)
    refine ⟨w,(run_eq_interleaved ..).trans first,?_⟩
    exact generatedInOrder.unique inOrder
  · intro later enough
    obtain ⟨w,second,regenerated,-⟩ := interleaved_of_ready again.leads.makeAll again same enough
    refine ⟨w,?_,regenerated.unique generated.again⟩
    rw [second,List.map_congr_left repeated]

def mediaDocuments : List (Except LoadError Api.Document) := [
  .ok ⟨"sound.json", "\x7b\"audio\":\x7b\"types\":[\x7b\"name\":\"Source\"\x7d]\x7d,\"no name\":\x7b\x7d\x7d"⟩,
  .ok ⟨"film.json", "\x7b\"video\":\x7b\"functions\":[\x7b\"name\":\"track\",\"variants\":" ++
    "[\x7b\"returns\":[\x7b\"type\":\"Source\"\x7d]\x7d]\x7d]\x7d\x7d"⟩]

def audio : Api.Module := ⟨"audio", "", [⟨"Source", "", [], []⟩], [], []⟩

def nameless : Api.Module := ⟨"no name", "", [], [], []⟩

def video : Api.Module where
  name := "video"
  description := ""
  classes := []
  functions := [⟨"track", .ofModule "video", "", [⟨[], [⟨none, "Source", false, ""⟩], ""⟩]⟩]
  enums := []

def media : Api := ⟨[audio, nameless, video]⟩

def shelf : Tree := ⟨[
  (["stubs"], .directory),
  (["stubs", "audio.lua"], .file (Text.utf8 "---@meta\n")),
  (["stubs", "no name.lua"], .file (Text.utf8 "-- by hand\n")),
  (["stubs", "video.lua"], .file (Text.utf8 ("---@meta\n---@class love.video\nlove.video = \x7b\x7d\n\n" ++
    "---@return love.Source\nfunction love.video.track() end\n")))]⟩

theorem media_in_any_order :
    Api.loadAll none ⟨[]⟩ mediaDocuments = .ok media ∧ shelf.makeAll "stubs" = (shelf, none) ∧
      Complete 3 [2, 0, 1, 0, 2, 1, 2, 0, 1] ∧
      ∃ v, interleaved ⟨[video, audio, nameless]⟩ .default "stubs" [2, 0, 1, 0, 2, 1, 2, 0, 1] shelf =
          (v, .ok ⟨[outcomeOf media .default "stubs" shelf video,
            outcomeOf media .default "stubs" shelf audio,
            outcomeOf media .default "stubs" shelf nameless]⟩) ∧
        v.read "stubs/no name.lua" = .ok (Text.utf8 "-- by hand\n") ∧
        (outcomeOf media .default "stubs" shelf video).status = .unchanged ∧
        (outcomeOf media .default "stubs" shelf audio).status = .written := by
  have loaded : Api.loadAll none ⟨[]⟩ mediaDocuments = .ok media := by decide +kernel
  have usable : shelf.makeAll "stubs" = (shelf, none) := by decide +kernel
  have complete : Complete 3 [2, 0, 1, 0, 2, 1, 2, 0, 1] := by decide
  have writable : ∀ m ∈ media.modules, ∀ text, emission media .default m = .ok text →
      ∃ result, shelf.write (fileOf "stubs" m.name) text = .ok result := by
    have each : ∀ m ∈ media.modules, (((emission media .default m).toOption.map fun text =>
        (shelf.write (fileOf "stubs" m.name) text).toBool).getD true) = true := by decide +kernel
    intro m member text some
    have succeeds := each m member
    rw [some] at succeeds
    cases written : shelf.write (fileOf "stubs" m.name) text with
    | ok result => exact ⟨result,rfl⟩
    | error cause =>
      have fails : (shelf.write (fileOf "stubs" m.name) text).toBool = true := succeeds
      rw [written] at fails
      cases fails
  have same : [video, audio, nameless].Perm media.modules := by decide +kernel
  obtain ⟨-,-,v,ran,-,-,failed,-⟩ := generation_in_any_order none mediaDocuments media
    ⟨[video, audio, nameless]⟩ .default "stubs" shelf shelf _ loaded usable writable same complete
  have named : IsFileName (nameless.name ++ ".lua") :=
    ⟨by decide,by decide,by decide,by decide,by decide⟩
  have byHand : v.read (fileOf "stubs" nameless.name) = .ok (Text.utf8 "-- by hand\n") := by
    cases text : emission media .default nameless with
    | ok text =>
      have none : (emission media .default nameless).toBool = false := by decide +kernel
      rw [text] at none
      cases none
    | error fault =>
      have before : shelf.read (fileOf "stubs" nameless.name) = .ok (Text.utf8 "-- by hand\n") := by
        decide +kernel
      exact (failed nameless (by simp [media]) fault text named _).mpr before
  have path : fileOf "stubs" nameless.name = "stubs/no name.lua" := by decide +kernel
  exact ⟨loaded,usable,complete,v,ran,path ▸ byHand,by decide +kernel,by decide +kernel⟩

end Generation

end LuaStubs
