import AutoTrader.Core.Types
import AutoTrader.Lib.Fallible
import AutoTrader.Lib.Table
import AutoTrader.Sim.Engine
import AutoTrader.Sim.Eval
import AutoTrader.Sim.Params
import AutoTrader.Sim.Series

/-!
# The stored scripts, batches and runs

The tables `sim_scripts`, `sim_batches` and `sim_runs`, and the statements on them. A statement is refused where a
constraint forbids what it writes. The functions of the store check what they are given, and run one statement,
or two for a script: a batch is only finished while it is running (`finishBatch_ok`), and a run is only stored of a
batch that exists, once for a set of parameters (`insertRun_ok`).
-/

namespace AutoTrader.Sim

open Lib (Table)

variable {F : Type}

/-! ## Rows -/

/-- Who wrote a script. -/
inductive Origin where
  | human
  | llm
  deriving DecidableEq, Repr

/-- A row of `sim_scripts`. -/
structure ScriptRow where
  id : Uuid
  name : String
  source : String
  sourceSha256 : String
  parentId : Option Uuid
  origin : Origin
  deriving DecidableEq, Repr

/-- The states of a batch. -/
inductive BatchStatus where
  | running
  | completed
  | failed
  deriving DecidableEq, Repr

/-- The state as the database stores it. -/
def BatchStatus.asSql : BatchStatus → String
  | running => "running"
  | completed => "completed"
  | failed => "failed"

/-- The settings that are stored with a batch. -/
structure BatchConfig where
  warmupBars : Nat
  protectiveStopPips : Int
  thetasPips : List Int
  maxOperationsPerBar : Nat
  maxOperationsPerRun : Nat
  /-- `max_runs` and `seed` of a sweep. -/
  sweep : Option (Nat × Nat)
  deriving DecidableEq, Repr

/-- A row of `sim_batches`. -/
structure BatchRow where
  id : Uuid
  scriptId : Uuid
  status : BatchStatus
  /-- In seconds. -/
  periodFrom : Int
  periodTo : Int
  barCount : Int
  totalRuns : Int
  config : BatchConfig
  finishedAt : Option DateTime
  deriving DecidableEq, Repr

/-- What `sim_runs` has of a run: its metrics, or the error of the script. -/
inductive StoredResult (F : Type) where
  | ok (metrics : Metrics F)
  | scriptError (error : Error)

/-- A row of `sim_runs`. -/
structure RunRow (F : Type) where
  id : Uuid
  batchId : Uuid
  params : List (String × Json)
  result : StoredResult F

/-- The tables of the simulator. -/
structure StoreDb (F : Type) where
  scripts : Table ScriptRow.id
  batches : Table BatchRow.id
  runs : Table fun r : RunRow F => r.id

namespace StoreDb

/-- The empty tables. -/
def empty : StoreDb F := ⟨.empty, .empty, .empty⟩

/-- The runs of a batch. -/
def runsOf (db : StoreDb F) (batchId : Uuid) : List (RunRow F) := db.runs.rows.filter fun r => r.batchId = batchId

end StoreDb

/-! ## Statements -/

/-- What a statement answers and leaves; `none` where a constraint refuses it. -/
abbrev Statement (F α : Type) := StoreDb F → Option (α × StoreDb F)

/-- `INSERT INTO sim_scripts .. ON CONFLICT (source_sha256) DO NOTHING RETURNING id`. -/
def insertScript (row : ScriptRow) : Statement F (Option Uuid) := fun db =>
  if db.scripts.rows.any fun s => s.sourceSha256 = row.sourceSha256 then some (none, db)
  else if row.parentId.all fun parent => (db.scripts.find? parent).isSome then
    (db.scripts.insert row).map fun scripts => (some row.id, { db with scripts })
  else none

/-- `SELECT id FROM sim_scripts WHERE source_sha256 = sha256`, of which there must be one. -/
def selectScript (sha256 : String) : Statement F Uuid := fun db =>
  (db.scripts.rows.find? fun s => s.sourceSha256 = sha256).map fun s => (s.id, db)

/-- The insert of a batch; its script must be there. -/
def insertBatch (row : BatchRow) : Statement F Unit := fun db =>
  if (db.scripts.find? row.scriptId).isSome then
    (db.batches.insert row).map fun batches => ((), { db with batches })
  else none

/-- `UPDATE sim_batches SET status, finished_at WHERE id = batchId AND status = 'running'`: the rows affected. -/
def updateBatch (batchId : Uuid) (status : BatchStatus) (finishedAt : DateTime) : Statement F Nat := fun db =>
  match db.batches.find? batchId with
  | some row =>
    if row.status = .running then
      some (1, { db with batches := db.batches.set { row with status, finishedAt := some finishedAt } })
    else some (0, db)
  | none => some (0, db)

/-- The insert of a run; its batch must be there, and no run of its parameters. -/
def insertRun (row : RunRow F) : Statement F Unit := fun db =>
  if (db.batches.find? row.batchId).isSome &&
      !(db.runs.rows.any fun r => r.batchId = row.batchId && r.params = row.params) then
    (db.runs.insert row).map fun runs => ((), { db with runs })
  else none

/-- A run that finished without a script error, as it is printed. -/
structure RunSummary (F : Type) where
  params : List (String × Json)
  metrics : Metrics F

/-- The summary of a run that ended well. -/
def RunRow.summary (r : RunRow F) : Option (RunSummary F) :=
  match r.result with
  | .ok metrics => some ⟨r.params, metrics⟩
  | .scriptError _ => none

/-- The best runs: the largest total first, and then by the text of the parameters. -/
def bestRuns [LinearOrder F] (paramsText : List (String × Json) → String) (limit : Nat) (runs : List (RunRow F)) :
    List (RunSummary F) :=
  let before (s u : RunSummary F) : Bool := u.metrics.totalPips < s.metrics.totalPips ||
    (u.metrics.totalPips = s.metrics.totalPips && paramsText s.params ≤ paramsText u.params)
  ((runs.filterMap RunRow.summary).mergeSort before).take limit

/-- The best runs of a completed batch. -/
def topRuns [LinearOrder F] (paramsText : List (String × Json) → String) (batchId : Uuid) (limit : Nat) :
    Statement F (List (RunSummary F)) := fun db =>
  match db.batches.find? batchId with
  | some row =>
    if row.status = .completed then some (bestRuns paramsText limit (db.runsOf batchId), db) else some ([], db)
  | none => some ([], db)

/-! ## What a statement does -/

section

variable {db db' : StoreDb F}

theorem insertScript_ok {row : ScriptRow} {o : Option Uuid} (h : insertScript row db = some (o, db')) :
    (o = none ∧ db' = db) ∨ (o = some row.id ∧ (∀ s ∈ db.scripts.rows, s.sourceSha256 ≠ row.sourceSha256) ∧
      ∃ scripts, db.scripts.insert row = some scripts ∧ db' = { db with scripts }) := by
  unfold insertScript at h
  split at h
  · simp only [Option.some.injEq, Prod.mk.injEq] at h
    exact .inl ⟨h.1.symm, h.2.symm⟩
  · rename_i hnew
    split at h
    · obtain ⟨scripts, hinsert, hrow⟩ := Option.map_eq_some_iff.mp h
      obtain ⟨rfl, rfl⟩ := Prod.mk.inj hrow
      refine .inr ⟨rfl, fun s hs heq => hnew ?_, scripts, hinsert, rfl⟩
      exact List.any_eq_true.mpr ⟨s, hs, decide_eq_true heq⟩
    · cases h

theorem selectScript_ok {sha256 : String} {id : Uuid} (h : selectScript sha256 db = some (id, db')) :
    db' = db ∧ ∃ s, db.scripts.find? id = some s ∧ s.sourceSha256 = sha256 := by
  obtain ⟨s, hs, hrow⟩ := Option.map_eq_some_iff.mp h
  obtain ⟨rfl, rfl⟩ := Prod.mk.inj hrow
  have hmem : s ∈ db.scripts.rows := List.mem_of_find?_eq_some hs
  have hsha := List.find?_some hs
  exact ⟨rfl, s, Table.mem_iff_find?.mp hmem, of_decide_eq_true hsha⟩

theorem insertBatch_ok {row : BatchRow} {u : Unit} (h : insertBatch row db = some (u, db')) :
    (∃ s, db.scripts.find? row.scriptId = some s) ∧
      ∃ batches, db.batches.insert row = some batches ∧ db' = { db with batches } := by
  unfold insertBatch at h
  split at h
  · rename_i hscript
    obtain ⟨batches, hinsert, hrow⟩ := Option.map_eq_some_iff.mp h
    exact ⟨Option.isSome_iff_exists.mp hscript, batches, hinsert, (Prod.mk.inj hrow).2.symm⟩
  · cases h

/-- A batch changes its status once, from running. -/
theorem updateBatch_ok {batchId : Uuid} {status : BatchStatus} {finishedAt : DateTime} {n : Nat}
    (h : updateBatch batchId status finishedAt db = some (n, db')) :
    (n = 0 ∧ db' = db ∧ ∀ row, db.batches.find? batchId = some row → row.status ≠ .running) ∨
      (n = 1 ∧ ∃ row, db.batches.find? batchId = some row ∧ row.status = .running ∧
        db' = { db with batches := db.batches.set { row with status, finishedAt := some finishedAt } }) := by
  unfold updateBatch at h
  split at h
  · rename_i row hrow
    split at h
    · rename_i hrunning
      obtain ⟨rfl, rfl⟩ := Prod.mk.inj (Option.some.inj h)
      exact .inr ⟨rfl, row, hrow, hrunning, rfl⟩
    · rename_i hdone
      obtain ⟨rfl, rfl⟩ := Prod.mk.inj (Option.some.inj h)
      refine .inl ⟨rfl, rfl, fun row' hrow' => ?_⟩
      rw [hrow] at hrow'
      exact Option.some.inj hrow' ▸ hdone
  · rename_i hnone
    obtain ⟨rfl, rfl⟩ := Prod.mk.inj (Option.some.inj h)
    refine .inl ⟨rfl, rfl, fun row' hrow' => ?_⟩
    rw [hnone] at hrow'
    cases hrow'

theorem insertRun_ok {row : RunRow F} {u : Unit} (h : insertRun row db = some (u, db')) :
    (∃ b, db.batches.find? row.batchId = some b) ∧
      (∀ r ∈ db.runsOf row.batchId, r.params ≠ row.params) ∧
      ∃ runs, db.runs.insert row = some runs ∧ db' = { db with runs } := by
  unfold insertRun at h
  split at h
  · rename_i hcheck
    simp only [Bool.and_eq_true, Bool.not_eq_true', List.any_eq_false] at hcheck
    obtain ⟨runs, hinsert, hrow⟩ := Option.map_eq_some_iff.mp h
    refine ⟨Option.isSome_iff_exists.mp hcheck.1, fun r hr heq => ?_, runs, hinsert, (Prod.mk.inj hrow).2.symm⟩
    obtain ⟨hmem, hbatch⟩ := List.mem_filter.mp hr
    exact hcheck.2 r hmem (by simp [of_decide_eq_true hbatch, heq])
  · cases h

theorem runsOf_insert {row : RunRow F} {runs : Table fun r : RunRow F => r.id} (h : db.runs.insert row = some runs)
    (batchId : Uuid) : StoreDb.runsOf { db with runs } batchId =
      if row.batchId = batchId then row :: db.runsOf batchId else db.runsOf batchId := by
  simp only [StoreDb.runsOf, Table.rows_insert h, List.filter_cons, decide_eq_true_eq]

end

/-! ## The functions of the store -/

/-- The result of one run of a script. -/
structure RunRecord (F : Type) where
  params : ParamSet
  status : RunStatus
  metrics : Option (Metrics F)

/-- How times and parameters are written. -/
structure Formats where
  formatEpochSecsRfc3339 : Int → Option String
  dateOf : Int → Option String
  paramsText : List (String × Json) → String

/-- What may go wrong: an error of the simulator, or of the database. -/
inductive StoreError where
  | sim (e : SimError)
  | db
  deriving DecidableEq

/-- What happens to a statement that is sent. -/
inductive Fate where
  | answered
  /-- It is not run, and fails. -/
  | refused
  /-- It is run, and its answer is lost. -/
  | lost
  deriving DecidableEq, Repr

/-- What a statement answers and does, by its fate. -/
def Fate.apply {α : Type} (fate : Fate) (x : Statement F α) (db : StoreDb F) : Option α × StoreDb F :=
  match fate, x db with
  | .answered, some r => (some r.1, r.2)
  | .lost, some r => (none, r.2)
  | _, _ => (none, db)

/-- A statement is answered, fails and has done nothing, or fails and is done all the same. -/
theorem Fate.apply_cases {α : Type} {fate : Fate} {x : Statement F α} {db db' : StoreDb F} {o : Option α}
    (h : fate.apply x db = (o, db')) :
    (∃ a, o = some a ∧ x db = some (a, db')) ∨ o = none ∧ (db' = db ∨ ∃ a, x db = some (a, db')) := by
  unfold apply at h
  split at h
  · rename_i r hr
    obtain ⟨rfl, rfl⟩ := Prod.mk.inj h
    exact .inl ⟨r.1, rfl, hr⟩
  · rename_i r hr
    obtain ⟨rfl, rfl⟩ := Prod.mk.inj h
    exact .inr ⟨rfl, .inr ⟨r.1, hr⟩⟩
  · obtain ⟨rfl, rfl⟩ := Prod.mk.inj h
    exact .inr ⟨rfl, .inl rfl⟩

/-- The check of `register_script`. -/
def checkParent (origin : Origin) (parentId : Option Uuid) : Except SimError Unit :=
  if origin = .human && parentId.isSome then
    .error (.args [.lit "invalid parent_id: must be none when origin is human (parent_id=",
      .arg (toString (repr parentId)), .lit ")"])
  else .ok ()

/-- A batch to be created. -/
structure NewBatch where
  scriptId : Uuid
  periodFrom : Int
  periodTo : Int
  barCount : Int
  totalRuns : Int
  config : BatchConfig

/-- The row that `create_batch` inserts. -/
def NewBatch.row (f : Formats) (id : Uuid) (batch : NewBatch) : Except SimError BatchRow := do
  let _ ← epochSecsToDatetime f.dateOf batch.periodFrom "create_batch period_from"
  let _ ← epochSecsToDatetime f.dateOf batch.periodTo "create_batch period_to"
  return ⟨id, batch.scriptId, .running, batch.periodFrom, batch.periodTo, batch.barCount, batch.totalRuns,
    batch.config, none⟩

/-- `i32::try_from` of a count of the metrics. -/
def checkCount (f : Formats) (batchId : Uuid) (params : List (String × Json)) (name : String) (count : Nat) :
    Except SimError Unit :=
  if count < 2 ^ 31 then .ok ()
  else .error (.other [.lit "invalid run record: ", .lit name, .lit " ", .arg (toString count),
    .lit " does not fit sim_runs.", .lit name, .lit " as i32: ",
    .arg "out of range integral type conversion attempted", .lit " (batch_id=", .arg (toString batchId),
    .lit ", params=", .arg (f.paramsText params), .lit ")"])

/-- The row that `save_run` inserts. -/
def runRow (f : Formats) (id batchId : Uuid) (record : RunRecord F) : Except SimError (RunRow F) :=
  let params := paramsJson record.params
  let place : Error := [.lit "(batch_id=", .arg (toString batchId), .lit ", params=", .arg (f.paramsText params),
    .lit ")"]
  match record.status, record.metrics with
  | .ok, none => .error (.other (.lit "invalid run record: status is Ok but metrics is None " :: place))
  | .scriptError _ _, some _ =>
    .error (.other (.lit "invalid run record: status is ScriptError but metrics is Some " :: place))
  | .ok, some metrics => do
    checkCount f batchId params "trade_count" metrics.tradeCount
    checkCount f batchId params "protective_stop_count" metrics.protectiveStopCount
    return ⟨id, batchId, params, .ok metrics⟩
  | .scriptError openTime message, none =>
    match f.formatEpochSecsRfc3339 openTime with
    | none => .error (.other ([.lit "failed to format script_error open_time for sim_runs.error: invalid open_time: ",
        .arg (toString openTime), .lit " is not a representable UTC instant "] ++ place))
    | some time => .ok ⟨id, batchId, params, .scriptError (.arg time :: .lit " " :: message)⟩

/-- `save_run`. -/
def saveRun (f : Formats) (batchId : Uuid) (record : RunRecord F) (fate : Fate) (id : Uuid) (db : StoreDb F) :
    Except StoreError Unit × StoreDb F :=
  match runRow f id batchId record with
  | .error e => (.error (.sim e), db)
  | .ok row =>
    match fate.apply (insertRun row) db with
    | (some _, db') => (.ok (), db')
    | (none, db') => (.error .db, db')

/-- The error of `finish_batch` for a batch that is not running. -/
def finishError (batchId : Uuid) (status : BatchStatus) : SimError :=
  .args [.lit "invalid batch status transition: batch ", .arg (toString batchId), .lit " could not be set to '",
    .arg status.asSql, .lit "' (it does not exist or is not in 'running' state)"]

/-- `finish_batch`: a batch cannot go back to running. -/
def finishBatch (batchId : Uuid) (status : BatchStatus) (now : DateTime) (fate : Fate) (db : StoreDb F) :
    Except StoreError Unit × StoreDb F :=
  if status = .running then
    (.error (.sim (.args [.lit "invalid batch status transition: batch ", .arg (toString batchId),
      .lit " to 'running' is not allowed (only running -> completed/failed is allowed)"])), db)
  else
    match fate.apply (updateBatch batchId status now) db with
    | (some n, db') => (if n ≠ 1 then .error (.sim (finishError batchId status)) else .ok (), db')
    | (none, db') => (.error .db, db')

section

variable {f : Formats} {db db' : StoreDb F} {batchId : Uuid}

/-- The row of a record is of its parameters. -/
theorem runRow_ok {id : Uuid} {record : RunRecord F} {row : RunRow F} (h : runRow f id batchId record = .ok row) :
    row.id = id ∧ row.batchId = batchId ∧ row.params = paramsJson record.params := by
  unfold runRow at h
  split at h
  · cases h
  · cases h
  · rename_i metrics _ _
    obtain ⟨-, -, h⟩ := Lib.bind_eq_ok.mp h
    obtain ⟨-, -, h⟩ := Lib.bind_eq_ok.mp h
    obtain rfl := Except.ok.inj h
    exact ⟨rfl, rfl, rfl⟩
  · split at h
    · cases h
    · obtain rfl := Except.ok.inj h
      exact ⟨rfl, rfl, rfl⟩

/-- A run is stored, where there is a batch and no run of its parameters yet, or nothing is written; and it is stored
where that is the answer. -/
theorem saveRun_cases {record : RunRecord F} {fate : Fate} {id : Uuid} {r : Except StoreError Unit}
    (h : saveRun f batchId record fate id db = (r, db')) :
    (∃ row runs, runRow f id batchId record = .ok row ∧ (∀ u ∈ db.runsOf batchId, u.params ≠ row.params) ∧
      db.runs.insert row = some runs ∧ db' = { db with runs }) ∨ (db' = db ∧ ∃ e, r = .error e) := by
  unfold saveRun at h
  split at h
  · obtain ⟨rfl, rfl⟩ := Prod.mk.inj h
    exact .inr ⟨rfl, _, rfl⟩
  · rename_i row hrow
    have hbatch := (runRow_ok hrow).2.1
    have stored : ∀ {u : Unit}, insertRun row db = some (u, db') → ∃ row runs, runRow f id batchId record = .ok row ∧
        (∀ u ∈ db.runsOf batchId, u.params ≠ row.params) ∧ db.runs.insert row = some runs ∧
        db' = { db with runs } := by
      intro u hi
      obtain ⟨-, hnew, runs, hinsert, rfl⟩ := insertRun_ok hi
      exact ⟨row, runs, hrow, hbatch ▸ hnew, hinsert, rfl⟩
    split at h
    · rename_i u db₁ happly
      obtain ⟨rfl, rfl⟩ := Prod.mk.inj h
      rcases Fate.apply_cases happly with ⟨a, -, hi⟩ | ⟨ho, -⟩
      · exact .inl (stored hi)
      · cases ho
    · rename_i db₁ happly
      obtain ⟨rfl, rfl⟩ := Prod.mk.inj h
      rcases Fate.apply_cases happly with ⟨a, ho, -⟩ | ⟨-, rfl | ⟨a, hi⟩⟩
      · cases ho
      · exact .inr ⟨rfl, _, rfl⟩
      · exact .inl (stored hi)

/-- A batch that was running is finished, or nothing is written; and it is finished where that is the answer. -/
theorem finishBatch_cases {status : BatchStatus} {now : DateTime} {fate : Fate} {r : Except StoreError Unit}
    (h : finishBatch batchId status now fate db = (r, db')) :
    (∃ row, db.batches.find? batchId = some row ∧ row.status = .running ∧
      db' = { db with batches := db.batches.set { row with status, finishedAt := some now } }) ∨
      (db' = db ∧ ∃ e, r = .error e) := by
  unfold finishBatch at h
  split at h
  · obtain ⟨rfl, rfl⟩ := Prod.mk.inj h
    exact .inr ⟨rfl, _, rfl⟩
  · split at h
    · rename_i n db₁ happly
      obtain ⟨rfl, rfl⟩ := Prod.mk.inj h
      rcases Fate.apply_cases happly with ⟨a, ho, hu⟩ | ⟨ho, -⟩
      · obtain rfl := Option.some.inj ho
        rcases updateBatch_ok hu with ⟨rfl, rfl, -⟩ | ⟨rfl, row, hrow, hrunning, rfl⟩
        · exact .inr ⟨rfl, _, if_pos (by decide)⟩
        · exact .inl ⟨row, hrow, hrunning, rfl⟩
      · cases ho
    · rename_i db₁ happly
      obtain ⟨rfl, rfl⟩ := Prod.mk.inj h
      rcases Fate.apply_cases happly with ⟨a, ho, -⟩ | ⟨-, rfl | ⟨a, hu⟩⟩
      · cases ho
      · exact .inr ⟨rfl, _, rfl⟩
      · rcases updateBatch_ok hu with ⟨-, rfl, -⟩ | ⟨-, row, hrow, hrunning, rfl⟩
        · exact .inr ⟨rfl, _, rfl⟩
        · exact .inl ⟨row, hrow, hrunning, rfl⟩

end

end AutoTrader.Sim
