import AutoTrader.Sim.SelectIndices
import AutoTrader.Sim.Store
import AutoTrader.Sim.SweepDelivery

/-!
# The commands `run` and `sweep`

Each command registers its script and a batch, runs what it has planned, saves the runs, finishes the batch and prints.
A `Stage` is where it is, between two statements or in a sweep, and `Command.step` is its next step. Several commands
may go on at the same time, on one database: `SimWorld.step` is one step of one of them.
-/

namespace AutoTrader.Sim

open Lib (Table)

variable {F : Type} {sample : Nat → Nat → Nat → List Nat}

/-! ## What is planned -/

/-- The workers of a sweep: at most one for each run, and at least one. -/
def effectiveJobs (requested runCount available : Nat) : Nat := max (min (min requested runCount) available) 1

/-- The indices of the combinations to run, with their number, or the exit code. -/
def selectSweepIndices (sample : Nat → Nat → Nat → List Nat) (specs : List ParamSpec) (maxRuns seed : Nat) :
    Except Nat (List Nat × Int) :=
  match selectIndices sample specs maxRuns seed with
  | .error _ => .error 1
  | .ok indices => if indices.length < 2 ^ 31 then .ok (indices, indices.length) else .error 1

/-- A sweep whose combinations are selected. -/
structure SweepPlan (sample : Nat → Nat → Nat → List Nat) where
  specs : List ParamSpec
  parsed : ∃ map, parseParamSpecs map = .ok specs
  maxRuns : Nat
  seed : Nat
  indices : List Nat
  totalRuns : Int
  selected : selectSweepIndices sample specs maxRuns seed = .ok (indices, totalRuns)
  /-- `--jobs`, or the default. -/
  requestedJobs : Nat
  available : Nat

/-- The two jobs: one run, or a sweep. -/
inductive Job (sample : Nat → Nat → Nat → List Nat) where
  | run (params : ParamSet)
  | sweep (plan : SweepPlan sample)

namespace Job

/-- The parameter sets to run. -/
def planned : Job sample → List ParamSet
  | run params => [params]
  | sweep plan => plan.indices.map (combinationAt plan.specs)

/-- The indices that a sweep has planned. -/
def indices : Job sample → List Nat
  | run _ => []
  | sweep plan => plan.indices

/-- The workers of a job. -/
def jobs : Job sample → Nat
  | run _ => 1
  | sweep plan => effectiveJobs plan.requestedJobs plan.indices.length plan.available

/-- The runs that a job's batch is to have. -/
def totalRuns : Job sample → Int
  | run _ => 1
  | sweep plan => plan.totalRuns

end Job

/-- A command whose inputs are loaded. -/
structure Command (sample : Nat → Nat → Nat → List Nat) where
  /-- The stem of the script's file, if it has one. -/
  scriptName : Option String
  source : String
  sha256 : String
  periodFrom : Int
  periodTo : Int
  barCount : Int
  config : BatchConfig
  job : Job sample

/-! ## Where a command is -/

/-- What a command prints. -/
inductive Output (F : Type) where
  | top (runs : List (RunSummary F))
  | record (record : RunRecord F)

/-- The exit code after the output is written. -/
def Output.code : Output F → Nat
  | top _ => 0
  | record r => if r.status = .ok then 0 else 1

/-- The stages of a command. -/
inductive Stage (F : Type) where
  | registering
  /-- Another script has the hash: its id is to be looked up. -/
  | lookingUp
  | creating (scriptId : Uuid)
  | sweeping (batchId : Uuid) (s : Sweep (RunRecord F) StoreError)
  /-- `run_one`. -/
  | executing (batchId : Uuid)
  | saving (batchId : Uuid) (record : RunRecord F)
  | completing (batchId : Uuid) (record : Option (RunRecord F))
  | failing (batchId : Uuid)
  | listing (batchId : Uuid)
  | printing (batchId : Uuid) (output : Output F)
  | exited (batchId : Option Uuid) (code : Nat) (printed : Option (Output F))

/-- The batch of the command. -/
def Stage.batch : Stage F → Option Uuid
  | registering | lookingUp | creating _ => none
  | sweeping b _ | executing b | saving b _ | completing b _ | failing b | listing b | printing b _ => some b
  | exited b _ _ => b

/-- The record is one of a run with these parameters. -/
def RunRecord.isOf (params : ParamSet) (r : RunRecord F) : Bool :=
  r.params = params && decide (r.status = .ok) == r.metrics.isSome

/-- What happens next. -/
inductive Event (F : Type) where
  /-- A statement is sent, with a new identifier and the time. -/
  | statement (fate : Fate) (id : Uuid) (now : DateTime)
  | worker (k : Nat) (outcome : RunOutcome (RunRecord F) StoreError)
  /-- The consumer of the sweep goes on; if it saves a record, with an identifier for it. -/
  | consumer (fate : Fate) (id : Uuid)
  /-- The sweep has returned. -/
  | joined
  /-- The task of the sweep panicked. -/
  | panicked
  /-- `run_one` has returned. -/
  | ran (outcome : RunOutcome (RunRecord F) StoreError)
  | printed (ok : Bool)

/-! ## A step -/

namespace Command

variable (f : Formats) (c : Command sample)

/-- The batch that a command creates. -/
def newBatch (scriptId : Uuid) : NewBatch :=
  ⟨scriptId, c.periodFrom, c.periodTo, c.barCount, c.job.totalRuns, c.config⟩

/-- Where the command starts to run what it has planned. -/
def start (batchId : Uuid) : Stage F :=
  match c.job with
  | .run _ => .executing batchId
  | .sweep plan => .sweeping batchId (Sweep.start plan.indices c.job.jobs)

/-- A worker records a run only with the parameters at its position. -/
def admits (s : Sweep (RunRecord F) StoreError) (k : Nat) : RunOutcome (RunRecord F) StoreError → Bool
  | .record r =>
    match s.workers[k]? with
    | some (.running i) => (c.job.planned[i]?).any fun params => r.isOf params
    | _ => true
  | _ => true

/-- The script is registered. -/
def register (fate : Fate) (id : Uuid) (db : StoreDb F) : Stage F × StoreDb F :=
  match c.scriptName, checkParent .human none with
  | some name, .ok () =>
    match fate.apply (insertScript ⟨id, name, c.source, c.sha256, none, .human⟩) db with
    | (some (some id), db') => (.creating id, db')
    | (some none, db') => (.lookingUp, db')
    | (none, db') => (.exited none 1 none, db')
  | _, _ => (.exited none 1 none, db)

/-- The script of the hash is looked up. -/
def lookUp (fate : Fate) (db : StoreDb F) : Stage F × StoreDb F :=
  match fate.apply (selectScript c.sha256) db with
  | (some id, db') => (.creating id, db')
  | (none, db') => (.exited none 1 none, db')

/-- The batch is created. -/
def create (scriptId : Uuid) (fate : Fate) (id : Uuid) (db : StoreDb F) : Stage F × StoreDb F :=
  match (c.newBatch scriptId).row f id with
  | .error _ => (.exited none 1 none, db)
  | .ok row =>
    match fate.apply (insertBatch row) db with
    | (some _, db') => (c.start id, db')
    | (none, db') => (.exited none 1 none, db')

/-- The consumer of a sweep saves the record that it handles. -/
def consume (batchId : Uuid) (s : Sweep (RunRecord F) StoreError) (fate : Fate) (id : Uuid) (db : StoreDb F) :
    Option (Stage F × StoreDb F) :=
  match s.consumer with
  | .handling _ r =>
    let saved := saveRun f batchId r fate id db
    (s.stepConsumer c.job.indices saved.1).map fun s' => (.sweeping batchId s', saved.2)
  | _ => (s.stepConsumer c.job.indices (.ok ())).map fun s' => (.sweeping batchId s', db)

/-- After `run_sweep`. -/
def join (batchId : Uuid) (s : Sweep (RunRecord F) StoreError) : Option (Stage F) :=
  if s.workers.all Worker.isStopped then
    match s.consumer with
    | .returned (.ok ()) => some (.completing batchId none)
    | .returned (.error _) => some (.failing batchId)
    | _ => none
  else none

/-- The single run, by its outcome. -/
def ran (batchId : Uuid) : RunOutcome (RunRecord F) StoreError → Option (Stage F)
  | .record r => if c.job.planned.any fun params => r.isOf params then some (.saving batchId r) else none
  | .fatal _ | .panic _ => some (.failing batchId)

/-- The batch is finished: a run prints its record, a sweep lists the best. -/
def completed (batchId : Uuid) : Option (RunRecord F) → Stage F
  | none => .listing batchId
  | some record => .printing batchId (.record record)

variable [LinearOrder F]

/-- One event of a command. -/
def step (e : Event F) (stage : Stage F) (db : StoreDb F) : Option (Stage F × StoreDb F) :=
  match stage, e with
  | .registering, .statement fate id _ => some (c.register fate id db)
  | .lookingUp, .statement fate _ _ => some (c.lookUp fate db)
  | .creating scriptId, .statement fate id _ => some (c.create f scriptId fate id db)
  | .sweeping batchId s, .worker k outcome =>
    if c.admits s k outcome then
      (s.stepWorker c.job.indices c.job.jobs k outcome).map fun s' => (.sweeping batchId s', db)
    else none
  | .sweeping batchId s, .consumer fate id => c.consume f batchId s fate id db
  | .sweeping batchId s, .joined => (join batchId s).map fun stage => (stage, db)
  | .sweeping batchId _, .panicked => some (.failing batchId, db)
  | .executing batchId, .ran outcome => (c.ran batchId outcome).map fun stage => (stage, db)
  | .saving batchId record, .statement fate id _ =>
    match saveRun f batchId record fate id db with
    | (.ok (), db') => some (.completing batchId (some record), db')
    | (.error _, db') => some (.failing batchId, db')
  | .completing batchId record, .statement fate _ now =>
    match finishBatch batchId .completed now fate db with
    | (.ok (), db') => some (completed batchId record, db')
    | (.error _, db') => some (.failing batchId, db')
  | .failing batchId, .statement fate _ now =>
    some (.exited (some batchId) 1 none, (finishBatch batchId .failed now fate db).2)
  | .listing batchId, .statement fate _ _ =>
    match fate.apply (topRuns f.paramsText batchId 10) db with
    | (some runs, db') => some (.printing batchId (.top runs), db')
    | (none, db') => some (.exited (some batchId) 1 none, db')
  | .printing batchId output, .printed ok =>
    some (.exited (some batchId) (if ok then output.code else 1) (some output), db)
  | _, _ => none

end Command

/-- The database and where each command is. -/
structure SimWorld (F : Type) where
  db : StoreDb F
  stages : Nat → Stage F

namespace SimWorld

variable [LinearOrder F] (f : Formats) (commands : Nat → Command sample)

/-- One step of command `i`. -/
def step (i : Nat) (e : Event F) (w : SimWorld F) : Option (SimWorld F) :=
  ((commands i).step f e (w.stages i) w.db).map fun r => ⟨r.2, Function.update w.stages i r.1⟩

/-- The worlds of every interleaving, from a database without rows. -/
inductive Reachable : SimWorld F → Prop where
  | start : Reachable ⟨.empty, fun _ => .registering⟩
  | step {w w' : SimWorld F} (i : Nat) (e : Event F) (hw : Reachable w) (h : w.step f commands i e = some w') :
    Reachable w'

end SimWorld

end AutoTrader.Sim
