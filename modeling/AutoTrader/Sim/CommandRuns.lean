import AutoTrader.Sim.Commands
import AutoTrader.Sim.SweepArgs
import AutoTrader.Sim.SweepRecords

/-!
# Batches in every run of the commands

A batch that is completed has one run for each parameter set its command had planned, and it keeps them
(`batches_whole`): the runs are inserted while it is running, the calls of `on_result` in a sweep insert one each, and
a sweep that returns without an error has called it for every combination. What a step of a command may do to the
database is `Frame` for the batches of others and `Stage.Fits` for its own.
-/

namespace AutoTrader.Sim

open Lib (Table)

variable {F : Type} {sample : Nat → Nat → Nat → List Nat}

/-! ## The combinations that are planned -/

theorem selectIndices_nodup (hs : Samples sample) {specs : List ParamSpec} {maxRuns seed : Nat} {l : List Nat}
    (hv : ∀ spec ∈ specs, spec.Valid) (h : selectIndices sample specs maxRuns seed = .ok l) :
    ∃ total, totalCombinations specs = .ok total ∧ l.Nodup ∧ ∀ i ∈ l, i < total := by
  unfold selectIndices at h
  obtain ⟨total, ht, h⟩ := Lib.bind_eq_ok.mp h
  obtain ⟨d, hd, h⟩ := Lib.bind_eq_ok.mp h
  obtain ⟨d', hd', hlt, -⟩ := defaultIndex_spec hv ht
  obtain rfl : d = d' := Except.ok.inj (hd.symm.trans hd')
  refine ⟨total, ht, ?_⟩
  split at h
  · obtain rfl : [] = l := Except.ok.inj h
    exact ⟨List.nodup_nil, by simp⟩
  rename_i hpos
  split at h
  · obtain rfl : _ = l := Except.ok.inj h
    exact ⟨nodup_all d total, fun i hi => (mem_all hlt).mp hi⟩
  rename_i hmany
  have hmax : total ≤ maxTotalCombinations := (foldlM_countSpec (by decide) ht).2
  unfold maxTotalCombinations at hmax
  have hsmall : ¬ 2 ^ 64 ≤ total - 1 := by omega
  simp only [if_neg hsmall] at h
  obtain rfl : _ = l := Except.ok.inj h
  obtain ⟨hnodup, -, hbelow⟩ := hs seed (total - 1) (maxRuns - 1) (by omega)
  exact ⟨nodup_sampled hnodup d, sampled_lt hbelow hlt⟩

theorem ParamValue.json_inj : Function.Injective ParamValue.json := by
  intro v u h
  cases v <;> cases u <;> simp only [json, Json.integer.injEq, Json.float.injEq, reduceCtorEq] at h
  · rw [Int64.toInt_inj.mp h]
  · rw [h]

theorem paramsJson_inj : Function.Injective paramsJson := by
  refine List.map_injective_iff.mpr fun p q h => ?_
  obtain ⟨hname, hvalue⟩ := Prod.mk.inj h
  exact Prod.ext hname (ParamValue.json_inj hvalue)

theorem SweepPlan.indices_eq (plan : SweepPlan sample) :
    selectIndices sample plan.specs plan.maxRuns plan.seed = .ok plan.indices ∧
      plan.totalRuns = plan.indices.length := by
  have h := plan.selected
  unfold selectSweepIndices at h
  split at h
  · cases h
  · rename_i indices hi
    split at h
    · obtain ⟨rfl, htotal⟩ := Prod.mk.inj (Except.ok.inj h)
      exact ⟨hi, htotal.symm⟩
    · cases h

/-- No two planned runs have the same parameters. -/
theorem Job.planned_nodup (hs : Samples sample) (job : Job sample) : (job.planned.map paramsJson).Nodup := by
  cases job with
  | run params => exact List.nodup_singleton _
  | sweep plan =>
    obtain ⟨map, hparsed⟩ := plan.parsed
    have hv := (parseParamSpecs_ok hparsed).1
    obtain ⟨total, ht, hnodup, hlt⟩ := selectIndices_nodup hs hv plan.indices_eq.1
    refine List.Nodup.map paramsJson_inj (hnodup.map_on fun i hi j hj h => ?_)
    exact combinationAt_inj hv ht (hlt i hi) (hlt j hj) h

theorem Job.length_planned (job : Job sample) : (job.planned.length : Int) = job.totalRuns := by
  cases job with
  | run params => rfl
  | sweep plan =>
    rw [planned, List.length_map]
    exact plan.indices_eq.2.symm

/-! ## Writes -/

/-- What a step leaves to the other commands, which have no batch `touched`. -/
structure Frame (db db' : StoreDb F) (touched : Option Uuid) : Prop where
  scripts : ∀ id s, db.scripts.find? id = some s → db'.scripts.find? id = some s
  batches : ∀ b row, some b ≠ touched → db.batches.find? b = some row → db'.batches.find? b = some row
  fresh : ∀ b row, some b ≠ touched → db.batches.find? b = none → db'.batches.find? b = some row → row.status = .running
  runs : ∀ b, some b ≠ touched → db'.runsOf b = db.runsOf b

section

variable {db db' : StoreDb F} {touched : Option Uuid}

theorem Frame.refl (db : StoreDb F) (touched : Option Uuid) : Frame db db touched where
  scripts _ _ h := h
  batches _ _ _ h := h
  fresh b row _ hnone h := by rw [hnone] at h; cases h
  runs _ _ := rfl

theorem frame_insertScript {row : ScriptRow} {o : Option Uuid} (h : insertScript row db = some (o, db')) :
    Frame db db' touched := by
  rcases insertScript_ok h with ⟨-, rfl⟩ | ⟨-, -, scripts, hinsert, rfl⟩
  · exact .refl _ _
  · refine ⟨fun id s hs => ?_, fun _ _ _ h => h, fun b row' _ hnone h => ?_, fun _ _ => rfl⟩
    · show scripts.find? id = some s
      rw [Table.find?_insert hinsert, if_neg fun hid => ?_, hs]
      rw [hid, Table.insert_fresh hinsert] at hs
      cases hs
    · exact absurd (hnone.symm.trans h) (by simp)

theorem frame_insertBatch {row : BatchRow} {u : Unit} (h : insertBatch row db = some (u, db'))
    (hrunning : row.status = .running) : Frame db db' touched := by
  obtain ⟨-, batches, hinsert, rfl⟩ := insertBatch_ok h
  refine ⟨fun _ _ h => h, fun b row' _ hb => ?_, fun b row' _ hnone hb => ?_, fun _ _ => rfl⟩
  · show batches.find? b = some row'
    rw [Table.find?_insert hinsert, if_neg fun hid => ?_, hb]
    rw [hid, Table.insert_fresh hinsert] at hb
    cases hb
  · have hb : batches.find? b = some row' := hb
    rw [Table.find?_insert hinsert] at hb
    split at hb
    · exact Option.some.inj hb ▸ hrunning
    · exact absurd (hnone.symm.trans hb) (by simp)

theorem frame_insertRun {row : RunRow F} {runs : Table fun r : RunRow F => r.id}
    (h : db.runs.insert row = some runs) : Frame db { db with runs } (some row.batchId) := by
  refine ⟨fun _ _ h => h, fun _ _ _ h => h, fun b row' _ hnone hb => ?_, fun b hb => ?_⟩
  · exact absurd (hnone.symm.trans hb) (by simp)
  · rw [runsOf_insert h, if_neg fun heq => hb (congrArg some heq.symm)]

theorem frame_finish {row row' : BatchRow} {b : Uuid} (h : db.batches.find? b = some row) (hid : row'.id = b) :
    Frame db { db with batches := db.batches.set row' } (some b) := by
  subst hid
  refine ⟨fun _ _ h => h, fun b r hb hr => ?_, fun b r hb hnone hr => ?_, fun _ _ => rfl⟩
  · show (db.batches.set row').find? b = some r
    rw [Table.find?_set h, if_neg fun heq => hb (congrArg some heq), hr]
  · have hr : (db.batches.set row').find? b = some r := hr
    rw [Table.find?_set h, if_neg fun heq => hb (congrArg some heq), hnone] at hr
    cases hr

end

/-! ## The invariant -/

/-- The runs are one for each parameter set that is planned. -/
def Job.Complete (job : Job sample) (runs : List (RunRow F)) : Prop :=
  (runs.map RunRow.params).Perm (job.planned.map paramsJson)

/-- A sweep, with the runs that it has saved so far: one for each call of `on_result`. -/
structure Job.Sweeping (job : Job sample) (s : Sweep (RunRecord F) StoreError) (runs : List (RunRow F)) : Prop where
  sweep : ∃ plan, job = .sweep plan
  reachable : Sweep.Reachable job.indices job.jobs s
  length : job.indices.length = job.planned.length
  carries : s.Carries fun i r => job.planned[i]? = some r.params
  saved : s.finalErr = none → (runs.map RunRow.params).Perm (s.calls.map fun call => paramsJson call.2.1.params)

/-- A stored script has the hash of the command's. -/
def Command.ScriptAt (c : Command sample) (db : StoreDb F) (id : Uuid) : Prop :=
  ∃ s, db.scripts.find? id = some s ∧ s.sourceSha256 = c.sha256

theorem Command.ScriptAt.frame {c : Command sample} {db db' : StoreDb F} {id : Uuid} {touched : Option Uuid}
    (h : c.ScriptAt db id) (hf : Frame db db' touched) : c.ScriptAt db' id := by
  obtain ⟨s, hs, hsha⟩ := h
  exact ⟨s, hf.scripts id s hs, hsha⟩

/-- A sweep that returned without an error has saved a run for each combination. -/
theorem Job.Sweeping.complete {job : Job sample} {s : Sweep (RunRecord F) StoreError} {runs : List (RunRow F)}
    (h : job.Sweeping s runs) (hr : s.consumer = .returned (.ok ())) : job.Complete runs := by
  have hinv := h.reachable.inv
  have hnone : s.finalErr = none := ((hinv.returned _ hr).2 rfl).1
  have hparams : s.calls.map (fun call => paramsJson call.2.1.params) =
      (s.calls.map Prod.fst).map fun i => paramsJson (job.planned.getD i []) := by
    rw [List.map_map]
    refine List.map_congr_left fun call hcall => ?_
    obtain ⟨i, r, a⟩ := call
    have hplanned := h.carries.calls i r a hcall
    simp [List.getD_eq_getElem?_getD, hplanned]
  have hrange : (List.range job.planned.length).map (fun i => paramsJson (job.planned.getD i [])) =
      job.planned.map paramsJson := by
    refine List.ext_getElem (by simp) fun i hi hi' => ?_
    have hlt : i < job.planned.length := by simpa using hi'
    simp [List.getD_eq_getElem?_getD, hlt]
  refine (h.saved hnone).trans ?_
  rw [hparams]
  refine ((hinv.delivered hr).map _).trans ?_
  rw [h.length, hrange]

/-- What a command without a batch has done. -/
def Command.Early (c : Command sample) (db : StoreDb F) : Stage F → Prop
  | .creating id => c.ScriptAt db id
  | .exited none code _ => code = 1
  | _ => True

section

variable {c : Command sample} {db db' : StoreDb F} {stage : Stage F}

theorem Command.Early.frame {touched : Option Uuid} (h : c.Early db stage) (hf : Frame db db' touched) :
    c.Early db' stage := by
  unfold Early at h ⊢
  split
  · exact ScriptAt.frame h hf
  · exact h
  · trivial

theorem Command.early_of_batch {b : Uuid} (h : stage.batch = some b) : c.Early db stage := by
  unfold Early
  split
  · cases h
  · cases h
  · trivial

end

variable [LinearOrder F]

/-- What a command prints of the runs of its batch: a sweep the best of them, and `run` the record of the only one. -/
def Job.Prints (f : Formats) (runs : List (RunRow F)) (output : Output F) : Job sample → Prop
  | .sweep _ => output = .top (bestRuns f.paramsText 10 runs)
  | .run _ => ∃ record row, output = .record record ∧ runs = [row] ∧ runRow f row.id row.batchId record = .ok row

/-- What a command that was given `row` for its batch has done, by where it is. -/
def Stage.Fits (f : Formats) (job : Job sample) (row : BatchRow) (runs : List (RunRow F)) : Stage F → Prop
  | .registering | .lookingUp | .creating _ => True
  | .sweeping _ s => row.status = .running ∧ job.Sweeping s runs
  | .executing _ => row.status = .running ∧ runs = [] ∧ ∃ params, job = .run params
  | .saving _ r => row.status = .running ∧ runs = [] ∧ job = .run r.params
  | .completing _ none => row.status = .running ∧ job.Complete runs ∧ ∃ plan, job = .sweep plan
  | .completing _ (some r) => row.status = .running ∧ job.Complete runs ∧ job.Prints f runs (.record r)
  | .failing _ => row.status = .completed → job.Complete runs
  | .listing _ => row.status = .completed ∧ job.Complete runs ∧ ∃ plan, job = .sweep plan
  | .printing _ output => row.status = .completed ∧ job.Complete runs ∧ job.Prints f runs output
  | .exited _ code printed => (row.status = .completed → job.Complete runs) ∧ (code = 0 → row.status = .completed ∧
      ∃ output, printed = some output ∧ output.code = 0 ∧ job.Prints f runs output)

theorem Stage.Fits.complete_of_completing {f : Formats} {job : Job sample} {row : BatchRow} {runs : List (RunRow F)}
    {b : Uuid} {r : Option (RunRecord F)} (h : (Stage.completing b r).Fits f job row runs) : job.Complete runs := by
  cases r with
  | none => exact h.2.1
  | some r => exact h.2.1

/-- The batch of a command. -/
structure Command.Held (f : Formats) (c : Command sample) (db : StoreDb F) (b : Uuid) (stage : Stage F)
    (row : BatchRow) : Prop where
  find : db.batches.find? b = some row
  totalRuns : row.totalRuns = c.job.totalRuns
  script : c.ScriptAt db row.scriptId
  fits : stage.Fits f c.job row (db.runsOf b)

/-- What holds in every run of commands. -/
structure SimWorld.Inv (f : Formats) (commands : Nat → Command sample) (w : SimWorld F) : Prop where
  early : ∀ i, (commands i).Early w.db (w.stages i)
  held : ∀ i b, (w.stages i).batch = some b → ∃ row, (commands i).Held f w.db b (w.stages i) row
  one : ∀ i j b, (w.stages i).batch = some b → (w.stages j).batch = some b → i = j
  free : ∀ b, (∀ i, (w.stages i).batch ≠ some b) →
    w.db.runsOf b = [] ∧ ∀ row, w.db.batches.find? b = some row → row.status = .running

/-- What a step of a command does. -/
structure Command.Moves (f : Formats) (c : Command sample) (db : StoreDb F) (stage stage' : Stage F)
    (db' : StoreDb F) : Prop where
  frame : Frame db db' stage'.batch
  batch : stage'.batch = stage.batch ∨ stage.batch = none ∧ ∀ b, stage'.batch = some b → db.batches.find? b = none
  early : c.Early db' stage'
  held : ∀ b, stage'.batch = some b → ∃ row, c.Held f db' b stage' row
  /-- A batch that is finished stays as it is. -/
  frozen : ∀ b row, stage.batch = some b → db.batches.find? b = some row → row.status ≠ .running →
    db'.batches.find? b = some row ∧ db'.runsOf b = db.runsOf b

section

variable {f : Formats} {c : Command sample} {db db' : StoreDb F} {stage stage' : Stage F}

/-- The batch of another command is as it was. -/
theorem Command.Held.frame {b : Uuid} {row : BatchRow} {touched : Option Uuid} (h : c.Held f db b stage row)
    (hf : Frame db db' touched) (hb : some b ≠ touched) : c.Held f db' b stage row where
  find := hf.batches b row hb h.find
  totalRuns := h.totalRuns
  script := h.script.frame hf
  fits := by
    rw [hf.runs b hb]
    exact h.fits

/-- A step keeps the invariant. -/
theorem SimWorld.Inv.moves {commands : Nat → Command sample} {w : SimWorld F} (h : w.Inv f commands) {i : Nat}
    (hm : (commands i).Moves f w.db (w.stages i) stage' db') :
    SimWorld.Inv f commands ⟨db', Function.update w.stages i stage'⟩ := by
  have other : ∀ j b, j ≠ i → (w.stages j).batch = some b → some b ≠ stage'.batch := fun j b hj hb heq => by
    rcases hm.batch with hsame | ⟨-, hfresh⟩
    · exact hj (h.one j i b hb (hsame ▸ heq.symm))
    · obtain ⟨row, hrow⟩ := h.held j b hb
      exact absurd ((hfresh b heq.symm).symm.trans hrow.find) (by simp)
  refine ⟨fun j => ?_, fun j b hj => ?_, fun j k b hj hk => ?_, fun b hb => ?_⟩
  · dsimp only
    by_cases hji : j = i
    · subst hji
      rw [Function.update_self]
      exact hm.early
    · rw [Function.update_of_ne hji]
      exact (h.early j).frame hm.frame
  · dsimp only at hj ⊢
    by_cases hji : j = i
    · subst hji
      rw [Function.update_self] at hj ⊢
      exact hm.held b hj
    · rw [Function.update_of_ne hji] at hj ⊢
      obtain ⟨row, hrow⟩ := h.held j b hj
      exact ⟨row, hrow.frame hm.frame (other j b hji hj)⟩
  · dsimp only at hj hk
    by_cases hji : j = i <;> by_cases hki : k = i
    · rw [hji, hki]
    · subst hji
      rw [Function.update_self] at hj
      rw [Function.update_of_ne hki] at hk
      exact absurd hj.symm (other k b hki hk)
    · subst hki
      rw [Function.update_self] at hk
      rw [Function.update_of_ne hji] at hj
      exact absurd hk.symm (other j b hji hj)
    · rw [Function.update_of_ne hji] at hj
      rw [Function.update_of_ne hki] at hk
      exact h.one j k b hj hk
  · dsimp only at hb ⊢
    have hne : some b ≠ stage'.batch := fun heq => hb i (by rw [Function.update_self, ← heq])
    have hold : ∀ j, (w.stages j).batch ≠ some b := fun j hj => by
      by_cases hji : j = i
      · subst hji
        rcases hm.batch with hsame | ⟨hnone, -⟩
        · exact hne (by rw [hsame, hj])
        · rw [hnone] at hj
          cases hj
      · exact hb j (by rwa [Function.update_of_ne hji])
    obtain ⟨hruns, hrunning⟩ := h.free b hold
    refine ⟨by rw [hm.frame.runs b hne, hruns], fun row hrow => ?_⟩
    rcases hfind : w.db.batches.find? b with _ | row'
    · exact hm.frame.fresh b row hne hfind hrow
    · rw [hm.frame.batches b row' hne hfind] at hrow
      exact Option.some.inj hrow ▸ hrunning row' hfind

end

/-! ## Every step -/

section

variable {f : Formats} {c : Command sample} {db db' : StoreDb F} {stage stage' : Stage F} {b : Uuid} {row : BatchRow}

/-- A step before there is a batch. -/
theorem Command.moves_early (hf : Frame db db' stage'.batch) (hstage : stage.batch = none)
    (hstage' : stage'.batch = none)
    (hearly : c.Early db' stage') : c.Moves f db stage stage' db' where
  frame := hf
  batch := .inl (hstage'.trans hstage.symm)
  early := hearly
  held b hb := by rw [hstage'] at hb; cases hb
  frozen b row hb := by rw [hstage] at hb; cases hb

/-- A step on the batch of the command. -/
theorem Command.moves_own {row' : BatchRow} (hrow : c.Held f db b stage row) (hstage : stage.batch = some b)
    (hstage' : stage'.batch = some b) (hf : Frame db db' (some b)) (hfind : db'.batches.find? b = some row')
    (hsame : row'.totalRuns = row.totalRuns ∧ row'.scriptId = row.scriptId)
    (hfits : stage'.Fits f c.job row' (db'.runsOf b))
    (hfrozen : row.status ≠ .running → row' = row ∧ db'.runsOf b = db.runsOf b) : c.Moves f db stage stage' db' where
  frame := by
    rw [hstage']
    exact hf
  batch := .inl (hstage'.trans hstage.symm)
  early := early_of_batch hstage'
  held b' hb' := by
    obtain rfl : b = b' := Option.some.inj (hstage'.symm.trans hb')
    exact ⟨row', hfind, hsame.1.trans hrow.totalRuns, hsame.2 ▸ hrow.script.frame hf, hfits⟩
  frozen b' u hb' hu hdone := by
    obtain rfl : b = b' := Option.some.inj (hstage.symm.trans hb')
    obtain rfl : row = u := Option.some.inj (hrow.find.symm.trans hu)
    obtain ⟨rfl, hruns⟩ := hfrozen hdone
    exact ⟨hfind, hruns⟩

/-- A step that writes nothing. -/
theorem Command.moves_quiet (hrow : c.Held f db b stage row) (hstage : stage.batch = some b)
    (hstage' : stage'.batch = some b) (hfits : stage'.Fits f c.job row (db.runsOf b)) : c.Moves f db stage stage' db :=
  moves_own hrow hstage hstage' (.refl _ _) hrow.find ⟨rfl, rfl⟩ hfits fun _ => ⟨rfl, rfl⟩

theorem Command.register_moves {fate : Fate} {id : Uuid} (h : c.register fate id db = (stage', db')) :
    c.Moves f db .registering stage' db' := by
  unfold register at h
  split at h
  · split at h
    · rename_i id' db₁ happly
      obtain ⟨rfl, rfl⟩ := Prod.mk.inj h
      rcases Fate.apply_cases happly with ⟨o, ho, hi⟩ | ⟨ho, -⟩
      · obtain rfl := Option.some.inj ho
        refine moves_early (frame_insertScript hi) rfl rfl ?_
        rcases insertScript_ok hi with ⟨hnone, -⟩ | ⟨hid, -, scripts, hinsert, rfl⟩
        · cases hnone
        · obtain rfl : id' = id := Option.some.inj hid
          exact ⟨_, (Table.find?_insert hinsert id').trans (if_pos rfl), rfl⟩
      · cases ho
    · rename_i db₁ happly
      obtain ⟨rfl, rfl⟩ := Prod.mk.inj h
      rcases Fate.apply_cases happly with ⟨o, -, hi⟩ | ⟨ho, -⟩
      · exact moves_early (frame_insertScript hi) rfl rfl trivial
      · cases ho
    · rename_i db₁ happly
      obtain ⟨rfl, rfl⟩ := Prod.mk.inj h
      rcases Fate.apply_cases happly with ⟨o, ho, -⟩ | ⟨-, rfl | ⟨o, hi⟩⟩
      · cases ho
      · exact moves_early (.refl _ _) rfl rfl rfl
      · exact moves_early (frame_insertScript hi) rfl rfl rfl
  · obtain ⟨rfl, rfl⟩ := Prod.mk.inj h
    exact moves_early (.refl _ _) rfl rfl rfl

theorem Command.lookUp_moves {fate : Fate} (h : c.lookUp fate db = (stage', db')) :
    c.Moves f db .lookingUp stage' db' := by
  unfold lookUp at h
  split at h
  · rename_i id db₁ happly
    obtain ⟨rfl, rfl⟩ := Prod.mk.inj h
    rcases Fate.apply_cases happly with ⟨o, ho, hsel⟩ | ⟨ho, -⟩
    · obtain rfl := Option.some.inj ho
      obtain ⟨rfl, hscript⟩ := selectScript_ok hsel
      exact moves_early (.refl _ _) rfl rfl hscript
    · cases ho
  · rename_i db₁ happly
    obtain ⟨rfl, rfl⟩ := Prod.mk.inj h
    rcases Fate.apply_cases happly with ⟨o, ho, -⟩ | ⟨-, rfl | ⟨o, hsel⟩⟩
    · cases ho
    · exact moves_early (.refl _ _) rfl rfl rfl
    · obtain ⟨rfl, -⟩ := selectScript_ok hsel
      exact moves_early (.refl _ _) rfl rfl rfl

theorem NewBatch.row_ok {id : Uuid} {batch : NewBatch} (h : batch.row f id = .ok row) : row.id = id ∧
    row.status = .running ∧ row.scriptId = batch.scriptId ∧ row.totalRuns = batch.totalRuns := by
  unfold NewBatch.row at h
  obtain ⟨-, -, h⟩ := Lib.bind_eq_ok.mp h
  obtain ⟨-, -, h⟩ := Lib.bind_eq_ok.mp h
  obtain rfl := Except.ok.inj h
  exact ⟨rfl, rfl, rfl, rfl⟩

theorem Command.start_fits (b : Uuid) (hrunning : row.status = .running) :
    (c.start b : Stage F).batch = some b ∧ (c.start b : Stage F).Fits f c.job row [] := by
  unfold start
  split
  · rename_i params hjob
    exact ⟨rfl, hrunning, rfl, params, hjob⟩
  · rename_i plan hjob
    refine ⟨rfl, hrunning, ⟨plan, hjob⟩, ?_, ?_, Sweep.carries_start _ _ _, fun _ => List.Perm.refl _⟩
    · rw [show plan.indices = c.job.indices by rw [hjob]; rfl]
      exact .start
    · rw [hjob]
      exact (List.length_map _).symm

theorem Command.create_moves {scriptId id : Uuid} {fate : Fate} (hscript : c.ScriptAt db scriptId)
    (hempty : ∀ b, db.batches.find? b = none → db.runsOf b = [])
    (h : c.create f scriptId fate id db = (stage', db')) : c.Moves f db (.creating scriptId) stage' db' := by
  unfold create at h
  split at h
  · obtain ⟨rfl, rfl⟩ := Prod.mk.inj h
    exact moves_early (.refl _ _) rfl rfl rfl
  rename_i row hrow
  obtain ⟨rfl, hrunning, hid, htotal⟩ := NewBatch.row_ok hrow
  split at h
  · rename_i u db₁ happly
    obtain ⟨rfl, rfl⟩ := Prod.mk.inj h
    rcases Fate.apply_cases happly with ⟨o, -, hi⟩ | ⟨ho, -⟩
    · have hframe : ∀ touched, Frame db db₁ touched := fun _ => frame_insertBatch hi hrunning
      obtain ⟨-, batches, hinsert, rfl⟩ := insertBatch_ok hi
      obtain ⟨hbatch, hfits⟩ := start_fits (f := f) (c := c) (F := F) row.id hrunning
      have hnone : db.batches.find? row.id = none := Table.insert_fresh hinsert
      refine ⟨hframe _, .inr ⟨rfl, fun b hb => ?_⟩, early_of_batch hbatch, fun b hb => ?_, fun b row hb => ?_⟩
      · rw [hbatch] at hb
        exact Option.some.inj hb ▸ hnone
      · rw [hbatch] at hb
        obtain rfl := Option.some.inj hb
        refine ⟨row, ?_, htotal, hid ▸ hscript.frame (hframe none), ?_⟩
        · show batches.find? row.id = some row
          rw [Table.find?_insert hinsert, if_pos rfl]
        · show (c.start row.id).Fits f c.job row (db.runsOf row.id)
          rw [hempty _ hnone]
          exact hfits
      · cases hb
    · cases ho
  · rename_i db₁ happly
    obtain ⟨rfl, rfl⟩ := Prod.mk.inj h
    rcases Fate.apply_cases happly with ⟨o, ho, -⟩ | ⟨-, rfl | ⟨o, hi⟩⟩
    · cases ho
    · exact moves_early (.refl _ _) rfl rfl rfl
    · exact moves_early (frame_insertBatch hi hrunning) rfl rfl rfl

/-- A record is saved in a running batch. -/
theorem Command.moves_saved {record : RunRecord F} {fate : Fate} {id : Uuid} {r : Except StoreError Unit}
    (hrow : c.Held f db b stage row) (hstage : stage.batch = some b) (hstage' : stage'.batch = some b)
    (hrunning : row.status = .running) (h : saveRun f b record fate id db = (r, db'))
    (hfits : ∀ runs : List (RunRow F), ((∃ u, runRow f id b record = .ok u ∧ runs = u :: db.runsOf b) ∨
        (∃ e, r = .error e)) → stage'.Fits f c.job row runs) :
    c.Moves f db stage stage' db' := by
  rcases saveRun_cases h with ⟨u, runs, hu, -, hinsert, rfl⟩ | ⟨rfl, he⟩
  · obtain rfl : u.batchId = b := (runRow_ok hu).2.1
    refine moves_own hrow hstage hstage' (frame_insertRun hinsert) hrow.find ⟨rfl, rfl⟩ (hfits _ (.inl ⟨u, hu, ?_⟩))
      fun hdone => absurd hrunning hdone
    rw [runsOf_insert hinsert, if_pos rfl]
  · exact moves_quiet hrow hstage hstage' (hfits _ (.inr he))

theorem Command.consume_moves {s : Sweep (RunRecord F) StoreError} {fate : Fate} {id : Uuid}
    (hrow : c.Held f db b (.sweeping b s) row) (h : c.consume f b s fate id db = some (stage', db')) :
    c.Moves f db (.sweeping b s) stage' db' := by
  obtain ⟨hrunning, hsweep⟩ : row.status = .running ∧ c.job.Sweeping s (db.runsOf b) := hrow.fits
  unfold consume at h
  split at h
  · rename_i i r hcon
    rcases hsaved : saveRun f b r fate id db with ⟨answer, db₁⟩
    simp only [hsaved] at h
    obtain ⟨s', hs, heq⟩ := Option.map_eq_some_iff.mp h
    obtain ⟨rfl, rfl⟩ := Prod.mk.inj heq
    obtain ⟨hcarries, hcalls, hgood, hbad⟩ := hsweep.carries.handled hcon hs
    refine moves_saved hrow rfl rfl hrunning hsaved fun runs hruns => ?_
    refine ⟨hrunning, hsweep.sweep, .step (.consumer _) hsweep.reachable hs, hsweep.length, hcarries, fun hnone => ?_⟩
    rcases hruns with ⟨u, hu, rfl⟩ | he
    · rcases answer with e | ⟨⟩
      · exact absurd hnone (hbad ⟨e, rfl⟩)
      · rw [hgood rfl] at hnone
        rw [List.map_cons, (runRow_ok hu).2.2, hcalls, List.map_append, List.map_singleton]
        exact ((hsweep.saved hnone).cons _).trans (List.perm_append_singleton _ _).symm
    · exact absurd hnone (hbad he)
  · rename_i hcon
    obtain ⟨s', hs, heq⟩ := Option.map_eq_some_iff.mp h
    obtain ⟨rfl, rfl⟩ := Prod.mk.inj heq
    obtain ⟨hcarries, hcalls, herr⟩ := hsweep.carries.stepConsumer hcon hs
    refine moves_quiet hrow rfl rfl ⟨hrunning, hsweep.sweep, .step (.consumer (.ok ())) hsweep.reachable hs,
      hsweep.length, hcarries, fun hnone => ?_⟩
    rw [hcalls]
    exact hsweep.saved (herr ▸ hnone)

theorem Command.work_moves {s s' : Sweep (RunRecord F) StoreError} {k : Nat}
    {outcome : RunOutcome (RunRecord F) StoreError} (hrow : c.Held f db b (.sweeping b s) row)
    (hadmits : c.admits s k outcome = true) (hs : s.stepWorker c.job.indices c.job.jobs k outcome = some s') :
    c.Moves f db (.sweeping b s) (.sweeping b s') db := by
  obtain ⟨hrunning, hsweep⟩ : row.status = .running ∧ c.job.Sweeping s (db.runsOf b) := hrow.fits
  have hrecord : ∀ i r, s.workers[k]? = some (.running i) → outcome = .record r →
      c.job.planned[i]? = some r.params := by
    intro i r hw houtcome
    rw [houtcome] at hadmits
    simp only [admits, hw, Option.any_eq_true] at hadmits
    obtain ⟨params, hparams, hof⟩ := hadmits
    simp only [RunRecord.isOf, Bool.and_eq_true, decide_eq_true_eq] at hof
    rw [hparams, hof.1]
  obtain ⟨hcarries, hcalls, herr⟩ := hsweep.carries.stepWorker hrecord hs
  refine moves_quiet hrow rfl rfl ⟨hrunning, hsweep.sweep, .step (.worker k outcome) hsweep.reachable hs,
    hsweep.length, hcarries, fun hnone => ?_⟩
  rw [hcalls]
  exact hsweep.saved (herr ▸ hnone)

theorem Command.join_moves {s : Sweep (RunRecord F) StoreError} (hrow : c.Held f db b (.sweeping b s) row)
    (h : join b s = some stage') : c.Moves f db (.sweeping b s) stage' db := by
  obtain ⟨hrunning, hsweep⟩ : row.status = .running ∧ c.job.Sweeping s (db.runsOf b) := hrow.fits
  unfold join at h
  split at h
  · split at h
    · rename_i hr
      obtain rfl := Option.some.inj h
      exact moves_quiet hrow rfl rfl ⟨hrunning, hsweep.complete hr, hsweep.sweep⟩
    · obtain rfl := Option.some.inj h
      exact moves_quiet hrow rfl rfl fun hdone => by rw [hrunning] at hdone; cases hdone
    · cases h
  · cases h

theorem Command.ran_moves {outcome : RunOutcome (RunRecord F) StoreError} (hrow : c.Held f db b (.executing b) row)
    (h : c.ran b outcome = some stage') : c.Moves f db (.executing b) stage' db := by
  obtain ⟨hrunning, hruns, params, hjob⟩ : row.status = .running ∧ db.runsOf b = [] ∧
    ∃ params, c.job = .run params := hrow.fits
  unfold ran at h
  split at h
  · rename_i r
    split at h
    · rename_i hof
      obtain rfl := Option.some.inj h
      refine moves_quiet hrow rfl rfl ⟨hrunning, hruns, ?_⟩
      simp only [hjob, Job.planned, List.any_cons, List.any_nil, Bool.or_false, RunRecord.isOf, Bool.and_eq_true,
        decide_eq_true_eq] at hof
      rw [hjob, hof.1]
    · cases h
  · obtain rfl := Option.some.inj h
    exact moves_quiet hrow rfl rfl fun hdone => by rw [hrunning] at hdone; cases hdone
  · obtain rfl := Option.some.inj h
    exact moves_quiet hrow rfl rfl fun hdone => by rw [hrunning] at hdone; cases hdone

/-- The batch is finished, or it is left as it is. -/
theorem Command.moves_finished {status : BatchStatus} {now : DateTime} {fate : Fate} {r : Except StoreError Unit}
    (hrow : c.Held f db b stage row) (hstage : stage.batch = some b) (hstage' : stage'.batch = some b)
    (h : finishBatch b status now fate db = (r, db'))
    (hdone : row.status = .running → stage'.Fits f c.job { row with status, finishedAt := some now } (db.runsOf b))
    (hkept : (∃ e, r = .error e) → stage'.Fits f c.job row (db.runsOf b)) : c.Moves f db stage stage' db' := by
  rcases finishBatch_cases h with ⟨u, hu, hrunning, rfl⟩ | ⟨rfl, he⟩
  · obtain rfl : row = u := Option.some.inj (hrow.find.symm.trans hu)
    have hid : row.id = b := Table.find?_some_key (t := db.batches) hu
    have hset := (Table.find?_set (t := db.batches) (v := { row with status, finishedAt := some now })
      (by rw [← hid] at hu; exact hu) b).trans (if_pos hid.symm)
    exact moves_own hrow hstage hstage' (frame_finish hu hid) hset ⟨rfl, rfl⟩ (hdone hrunning)
      fun hne => absurd hrunning hne
  · exact moves_quiet hrow hstage hstage' (hkept he)

/-- The record of a single run is saved. -/
theorem Command.save_moves {record : RunRecord F} {fate : Fate} (id : Uuid) (now : DateTime)
    (hrow : c.Held f db b (.saving b record) row)
    (h : c.step f (.statement fate id now) (.saving b record) db = some (stage', db')) :
    c.Moves f db (.saving b record) stage' db' := by
  simp only [step] at h
  obtain ⟨hrunning, hruns, hjob⟩ : row.status = .running ∧ db.runsOf b = [] ∧
    c.job = .run record.params := hrow.fits
  split at h
  · rename_i u db₁ hsaved
    obtain ⟨rfl, rfl⟩ := Prod.mk.inj (Option.some.inj h)
    refine moves_saved hrow rfl rfl hrunning hsaved fun runs hcases => ?_
    rcases hcases with ⟨row, hrow, rfl⟩ | ⟨e, he⟩
    · obtain ⟨rfl, rfl, hparams⟩ := runRow_ok hrow
      rw [hruns, hjob]
      refine ⟨hrunning, ?_, record, row, rfl, rfl, hrow⟩
      rw [Job.Complete, List.map_singleton, hparams]
      exact .refl _
    · cases he
  · rename_i e db₁ hsaved
    obtain ⟨rfl, rfl⟩ := Prod.mk.inj (Option.some.inj h)
    exact moves_saved hrow rfl rfl hrunning hsaved fun runs _ hdone => by rw [hrunning] at hdone; cases hdone

/-- The batch is finished. -/
theorem Command.complete_moves {record : Option (RunRecord F)} {fate : Fate} (id : Uuid) (now : DateTime)
    (hrow : c.Held f db b (.completing b record) row)
    (h : c.step f (.statement fate id now) (.completing b record) db = some (stage', db')) :
    c.Moves f db (.completing b record) stage' db' := by
  simp only [step] at h
  have hcomplete : c.job.Complete (db.runsOf b) := hrow.fits.complete_of_completing
  split at h
  · rename_i u db₁ hfinish
    obtain ⟨rfl, rfl⟩ := Prod.mk.inj (Option.some.inj h)
    refine moves_finished hrow rfl ?_ hfinish (fun _ => ?_) fun ⟨e, he⟩ => by cases he
    · cases record <;> rfl
    · cases record with
      | none => exact ⟨rfl, hcomplete, hrow.fits.2.2⟩
      | some record => exact ⟨rfl, hcomplete, hrow.fits.2.2⟩
  · rename_i e db₁ hfinish
    obtain ⟨rfl, rfl⟩ := Prod.mk.inj (Option.some.inj h)
    exact moves_finished hrow rfl rfl hfinish (fun _ _ => hcomplete) fun _ _ => hcomplete

/-- The batch is given up. -/
theorem Command.fail_moves {fate : Fate} (id : Uuid) (now : DateTime)
    (hrow : c.Held f db b (.failing b) row)
    (h : c.step f (.statement fate id now) (.failing b) db = some (stage', db')) :
    c.Moves f db (.failing b) stage' db' := by
  simp only [step] at h
  have hcomplete : row.status = .completed → c.job.Complete (db.runsOf b) := hrow.fits
  obtain ⟨rfl, rfl⟩ := Prod.mk.inj (Option.some.inj h)
  have fits : ∀ (row' : BatchRow) (runs : List (RunRow F)), (row'.status = .completed → c.job.Complete runs) →
      (Stage.exited (some b) 1 none).Fits f c.job row' runs := fun _ _ h => ⟨h, fun hcode => by cases hcode⟩
  rcases hfinish : finishBatch b .failed now fate db with ⟨r, db₁⟩
  exact moves_finished hrow rfl rfl hfinish (fun _ => fits _ _ fun hdone => by cases hdone)
    fun _ => fits _ _ hcomplete

/-- The best runs of a sweep are listed. -/
theorem Command.list_moves {fate : Fate} (id : Uuid) (now : DateTime)
    (hrow : c.Held f db b (.listing b) row)
    (h : c.step f (.statement fate id now) (.listing b) db = some (stage', db')) :
    c.Moves f db (.listing b) stage' db' := by
  simp only [step] at h
  obtain ⟨hdone, hcomplete, plan, hjob⟩ : row.status = .completed ∧ c.job.Complete (db.runsOf b) ∧
    ∃ plan, c.job = .sweep plan := hrow.fits
  have htop : topRuns f.paramsText b 10 db = some (bestRuns f.paramsText 10 (db.runsOf b), db) := by
    simp only [topRuns, hrow.find, hdone, ↓reduceIte]
  split at h
  · rename_i runs db₁ happly
    obtain ⟨rfl, rfl⟩ := Prod.mk.inj (Option.some.inj h)
    rcases Fate.apply_cases happly with ⟨o, ho, hsel⟩ | ⟨ho, -⟩
    · obtain rfl := Option.some.inj ho
      obtain ⟨rfl, rfl⟩ := Prod.mk.inj (Option.some.inj (htop.symm.trans hsel))
      refine moves_quiet hrow rfl rfl ⟨hdone, hcomplete, ?_⟩
      rw [hjob]
      rfl
    · cases ho
  · rename_i db₁ happly
    obtain ⟨rfl, rfl⟩ := Prod.mk.inj (Option.some.inj h)
    have hsame : db₁ = db := by
      rcases Fate.apply_cases happly with ⟨o, ho, -⟩ | ⟨-, rfl | ⟨o, hsel⟩⟩
      · cases ho
      · rfl
      · exact (Prod.mk.inj (Option.some.inj (htop.symm.trans hsel))).2.symm
    rw [hsame]
    exact moves_quiet hrow rfl rfl ⟨fun _ => hcomplete, fun hcode => by cases hcode⟩

/-- The output is printed. -/
theorem Command.print_moves {output : Output F} {ok : Bool}
    (hrow : c.Held f db b (.printing b output) row)
    (h : c.step f (.printed ok) (.printing b output) db = some (stage', db')) :
    c.Moves f db (.printing b output) stage' db' := by
  simp only [step] at h
  obtain ⟨hdone, hcomplete, hprints⟩ : row.status = .completed ∧ c.job.Complete (db.runsOf b) ∧
    c.job.Prints f (db.runsOf b) output := hrow.fits
  obtain ⟨rfl, rfl⟩ := Prod.mk.inj (Option.some.inj h)
  refine moves_quiet hrow rfl rfl ⟨fun _ => hcomplete, fun hcode => ⟨hdone, output, rfl, ?_, hprints⟩⟩
  split at hcode
  · exact hcode
  · cases hcode

/-- What a step of a command does. -/
theorem Command.step_moves {e : Event F} (hheld : ∀ b, stage.batch = some b → ∃ row, c.Held f db b stage row)
    (hearly : c.Early db stage)
    (hempty : ∀ b, db.batches.find? b = none → db.runsOf b = []) (h : c.step f e stage db = some (stage', db')) :
    c.Moves f db stage stage' db' := by
  unfold step at h
  split at h
  · exact register_moves (Option.some.inj h)
  · exact lookUp_moves (Option.some.inj h)
  · exact create_moves hearly hempty (Option.some.inj h)
  · rename_i b s k outcome
    obtain ⟨row, hrow⟩ := hheld b rfl
    split at h
    · rename_i hadmits
      obtain ⟨s', hs, heq⟩ := Option.map_eq_some_iff.mp h
      obtain ⟨rfl, rfl⟩ := Prod.mk.inj heq
      exact work_moves hrow hadmits hs
    · cases h
  · rename_i b s fate id
    obtain ⟨row, hrow⟩ := hheld b rfl
    exact consume_moves hrow h
  · rename_i b s
    obtain ⟨row, hrow⟩ := hheld b rfl
    obtain ⟨stage₁, hs, heq⟩ := Option.map_eq_some_iff.mp h
    obtain ⟨rfl, rfl⟩ := Prod.mk.inj heq
    exact join_moves hrow hs
  · rename_i b s
    obtain ⟨row, hrow⟩ := hheld b rfl
    obtain ⟨rfl, rfl⟩ := Prod.mk.inj (Option.some.inj h)
    obtain ⟨hrunning, -⟩ : row.status = .running ∧ c.job.Sweeping s (db.runsOf b) := hrow.fits
    exact moves_quiet hrow rfl rfl fun hdone => by rw [hrunning] at hdone; cases hdone
  · rename_i b outcome
    obtain ⟨row, hrow⟩ := hheld b rfl
    obtain ⟨stage₁, hs, heq⟩ := Option.map_eq_some_iff.mp h
    obtain ⟨rfl, rfl⟩ := Prod.mk.inj heq
    exact ran_moves hrow hs
  · rename_i b record fate id now
    obtain ⟨row, hrow⟩ := hheld b rfl
    exact save_moves id now hrow h
  · rename_i b record fate id now
    obtain ⟨row, hrow⟩ := hheld b rfl
    exact complete_moves id now hrow h
  · rename_i b fate id now
    obtain ⟨row, hrow⟩ := hheld b rfl
    exact fail_moves id now hrow h
  · rename_i b fate id now
    obtain ⟨row, hrow⟩ := hheld b rfl
    exact list_moves id now hrow h
  · rename_i b output ok
    obtain ⟨row, hrow⟩ := hheld b rfl
    exact print_moves hrow h
  · cases h

end

/-! ## Runs of the commands -/

namespace SimWorld

variable {f : Formats} {commands : Nat → Command sample} {w w' : SimWorld F}

theorem Inv.start : Inv f commands (⟨.empty, fun _ => .registering⟩ : SimWorld F) where
  early _ := trivial
  held _ _ h := by cases h
  one _ _ _ h := by cases h
  free _ _ := ⟨rfl, fun _ h => by cases h⟩

/-- A batch that does not exist has no runs. -/
theorem Inv.runsOf_eq_nil (h : w.Inv f commands) {b : Uuid} (hb : w.db.batches.find? b = none) : w.db.runsOf b = [] :=
  (h.free b fun i hi => by
    obtain ⟨row, hrow⟩ := h.held i b hi
    exact absurd (hb.symm.trans hrow.find) (by simp)).1

theorem Inv.step_moves (h : w.Inv f commands) {i : Nat} {e : Event F} (hstep : w.step f commands i e = some w') :
    ∃ stage, w' = ⟨w'.db, Function.update w.stages i stage⟩ ∧
      (commands i).Moves f w.db (w.stages i) stage w'.db := by
  obtain ⟨⟨stage, db⟩, hs, rfl⟩ := Option.map_eq_some_iff.mp hstep
  exact ⟨stage, rfl, Command.step_moves (h.held i) (h.early i) (fun _ => h.runsOf_eq_nil) hs⟩

theorem Reachable.inv (hw : Reachable f commands w) : w.Inv f commands := by
  induction hw with
  | start => exact .start
  | step i e _ hstep ih =>
    obtain ⟨stage, heq, hm⟩ := ih.step_moves hstep
    rw [heq]
    exact ih.moves hm

/-- A step leaves a batch that is finished, and its runs, as they are. -/
theorem Inv.step_finished (h : w.Inv f commands) {i : Nat} {e : Event F} (hstep : w.step f commands i e = some w')
    {b : Uuid} {row : BatchRow} (hb : w.db.batches.find? b = some row) (hdone : row.status ≠ .running) :
    w'.db.batches.find? b = some row ∧ w'.db.runsOf b = w.db.runsOf b := by
  obtain ⟨stage, -, hm⟩ := h.step_moves hstep
  by_cases hi : (w.stages i).batch = some b
  · exact hm.frozen b row hi hb hdone
  · have hne : some b ≠ stage.batch := fun heq => by
      rcases hm.batch with hsame | ⟨-, hfresh⟩
      · exact hi (hsame.symm.trans heq.symm)
      · exact absurd ((hfresh b heq.symm).symm.trans hb) (by simp)
    exact ⟨hm.frame.batches b row hne hb, hm.frame.runs b hne⟩

/-- The command that has a batch that is finished. -/
theorem Inv.exists_held (h : w.Inv f commands) {b : Uuid} {row : BatchRow} (hb : w.db.batches.find? b = some row)
    (hdone : row.status ≠ .running) :
    ∃ i, (w.stages i).batch = some b ∧ (commands i).Held f w.db b (w.stages i) row := by
  by_contra hnone
  refine hdone ((h.free b fun i hi => hnone ⟨i, hi, ?_⟩).2 row hb)
  obtain ⟨row', hrow'⟩ := h.held i b hi
  obtain rfl : row = row' := Option.some.inj (hb.symm.trans hrow'.find)
  exact hrow'

end SimWorld

theorem Stage.Fits.complete {f : Formats} {job : Job sample} {stage : Stage F} {row : BatchRow} {runs : List (RunRow F)}
    (h : stage.Fits f job row runs) (hbatch : stage.batch ≠ none) (hdone : row.status = .completed) :
    job.Complete runs := by
  cases stage with
  | registering => exact absurd rfl hbatch
  | lookingUp => exact absurd rfl hbatch
  | creating id => exact absurd rfl hbatch
  | sweeping b s => exact absurd (h.1.symm.trans hdone) (by decide)
  | executing b => exact absurd (h.1.symm.trans hdone) (by decide)
  | saving b r => exact absurd (h.1.symm.trans hdone) (by decide)
  | completing b r => exact h.complete_of_completing
  | failing b => exact h hdone
  | listing b => exact h.2.1
  | printing b output => exact h.2.1
  | exited b code printed => exact h.1 hdone

/-! ## Batches -/

/-- In every interleaving of commands on one database: a completed batch is of one command and of its script, and it
has one run for each parameter set that the command had planned; a command that exits with code 0 has completed its
batch and has printed the best of its runs, or the record of the one run; and no step changes a batch that is finished,
or its runs. -/
theorem batches_whole (hs : Samples sample) {f : Formats} {commands : Nat → Command sample} {w : SimWorld F}
    (hw : SimWorld.Reachable f commands w) :
    (∀ b row, w.db.batches.find? b = some row → row.status = .completed →
      (∃! i, (w.stages i).batch = some b) ∧ ∀ i, (w.stages i).batch = some b →
        (∃ s, w.db.scripts.find? row.scriptId = some s ∧ s.sourceSha256 = (commands i).sha256) ∧
        row.totalRuns = (w.db.runsOf b).length ∧ ((w.db.runsOf b).map RunRow.params).Nodup ∧
        ((w.db.runsOf b).map RunRow.params).Perm ((commands i).job.planned.map paramsJson)) ∧
    (∀ i id printed, w.stages i = .exited id 0 printed → ∃ b row output, id = some b ∧
      w.db.batches.find? b = some row ∧ row.status = .completed ∧ printed = some output ∧ output.code = 0 ∧
      (commands i).job.Prints f (w.db.runsOf b) output) ∧
    (∀ i e w', w.step f commands i e = some w' → ∀ b row, w.db.batches.find? b = some row →
      row.status ≠ .running → w'.db.batches.find? b = some row ∧ w'.db.runsOf b = w.db.runsOf b) := by
  have hinv := hw.inv
  refine ⟨fun b row hb hdone => ⟨?_, fun i hi => ?_⟩, fun i id printed hexit => ?_, fun i e w' hstep b row hb hdone =>
    hinv.step_finished hstep hb hdone⟩
  · obtain ⟨i, hi, -⟩ := hinv.exists_held hb (by rw [hdone]; decide)
    exact ⟨i, hi, fun j hj => hinv.one j i b hj hi⟩
  · obtain ⟨row', hheld⟩ := hinv.held i b hi
    obtain rfl : row = row' := Option.some.inj (hb.symm.trans hheld.find)
    have hcomplete := hheld.fits.complete (by simp [hi]) hdone
    have hlength : (w.db.runsOf b).length = (commands i).job.planned.length := by
      simpa using hcomplete.length_eq
    refine ⟨hheld.script, ?_, hcomplete.nodup_iff.mpr ((commands i).job.planned_nodup hs), hcomplete⟩
    rw [hheld.totalRuns, hlength, (commands i).job.length_planned]
  · rcases id with _ | b
    · have hearly := hinv.early i
      rw [hexit] at hearly
      cases hearly
    · obtain ⟨row, hheld⟩ := hinv.held i b (by rw [hexit]; rfl)
      have hfits := hheld.fits
      rw [hexit] at hfits
      obtain ⟨hdone, output, hprinted, hcode, hprints⟩ := hfits.2 rfl
      exact ⟨b, row, output, rfl, hheld.find, hdone, hprinted, hcode, hprints⟩

/-! ## Three commands with the same script -/

namespace SimWorld

/-- A run of the events, where those that cannot happen do nothing. -/
def play (f : Formats) (commands : Nat → Command sample) (events : List (Nat × Event F)) : SimWorld F :=
  events.foldl (fun w e => (w.step f commands e.1 e.2).getD w) ⟨.empty, fun _ => .registering⟩

theorem play_reachable (f : Formats) (commands : Nat → Command sample) (events : List (Nat × Event F)) :
    Reachable f commands (play f commands events) := by
  induction events using List.reverseRecOn with
  | nil => exact .start
  | append_singleton events e ih =>
    rw [play, List.foldl_append]
    show Reachable f commands (((play f commands events).step f commands e.1 e.2).getD (play f commands events))
    rcases hs : (play f commands events).step f commands e.1 e.2 with _ | w'
    · exact ih
    · exact .step e.1 e.2 ih hs

end SimWorld

/-- A sweep over two combinations. -/
def sampleSweepPlan : SweepPlan fun _ _ k => List.range k where
  specs := sampleSpecs
  parsed := ⟨sampleParams, by decide +kernel⟩
  maxRuns := 2
  seed := 0
  indices := [5, 0]
  totalRuns := 2
  selected := by decide +kernel
  requestedJobs := 1
  available := 4

/-- A command of the sample script. -/
def sampleCommand (job : Job fun _ _ k => List.range k) : Command fun _ _ k => List.range k :=
  ⟨some "trend", "fn on_bar() {}", "c0ffee", 0, 86400, 24, ⟨0, 50, [10], 100, 1000, none⟩, job⟩

/-- A sweep and a run. -/
def sampleCommands : Nat → Command fun _ _ k => List.range k
  | 0 => sampleCommand (.sweep sampleSweepPlan)
  | _ => sampleCommand (.run [("length", .int 10)])

/-- The record of a run. -/
def sampleRecord (params : ParamSet) : RunRecord Int := ⟨params, .ok, some ⟨30, 1, 1, 0, 0, 0, [], []⟩⟩

/-- The second command finds the script of the first, and its run fails, while the first one sweeps. The third one
runs after them. -/
def sampleCommandEvents : List (Nat × Event Int) :=
  let combination (i : Nat) := sampleRecord (combinationAt sampleSpecs i)
  [(0, .statement .answered 1 0), (1, .statement .answered 2 0), (1, .statement .answered 3 0),
    (0, .statement .answered 4 0), (1, .statement .answered 5 0), (0, .worker 0 (.panic "")),
    (0, .worker 0 (.record (combination 5))), (1, .ran (.panic "")), (0, .worker 0 (.panic "")),
    (0, .consumer .answered 6), (0, .consumer .answered 7), (0, .worker 0 (.panic "")),
    (0, .worker 0 (.record (combination 0))), (0, .worker 0 (.panic "")), (1, .statement .answered 8 60),
    (0, .consumer .answered 9), (0, .worker 0 (.panic "")), (0, .consumer .answered 10), (0, .consumer .answered 11),
    (0, .consumer .answered 12), (0, .consumer .answered 13), (0, .joined), (0, .statement .answered 14 90),
    (0, .statement .answered 15 90), (0, .printed true), (2, .statement .answered 16 95),
    (2, .statement .answered 17 95), (2, .statement .answered 18 95),
    (2, .ran (.record (sampleRecord [("length", .int 10)]))), (2, .statement .answered 19 99),
    (2, .statement .answered 20 99), (2, .printed true)]

/-- Formats that need no text. -/
def sampleFormats : Formats := ⟨fun _ => some "", fun _ => some "", fun _ => ""⟩

/-- The state after the sample events. -/
def sampleCommandWorld : SimWorld Int := SimWorld.play sampleFormats sampleCommands sampleCommandEvents

/-- The batch and the code of a command that has exited. -/
def Stage.exit : Stage F → Option (Option Uuid × Nat)
  | exited batchId code _ => some (batchId, code)
  | _ => none

theorem Stage.exit_eq_some {G : Type} {stage : Stage G} {id : Option Uuid} {code : Nat}
    (h : stage.exit = some (id, code)) :
    ∃ printed, stage = .exited id code printed := by
  cases stage with
  | exited batchId code' printed =>
    obtain ⟨rfl, rfl⟩ := Prod.mk.inj (Option.some.inj h)
    exact ⟨printed, rfl⟩
  | _ => cases h

theorem sampleBatches_whole :
    (∃ row, sampleCommandWorld.db.batches.find? 4 = some row ∧ row.status = .completed ∧
      row.totalRuns = (sampleCommandWorld.db.runsOf 4).length ∧
      ((sampleCommandWorld.db.runsOf 4).map RunRow.params).Nodup) ∧
    (∃ printed, sampleCommandWorld.stages 0 = .exited (some 4) 0 (some printed) ∧
      printed = .top (bestRuns sampleFormats.paramsText 10 (sampleCommandWorld.db.runsOf 4))) ∧
    (∃ record row, sampleCommandWorld.stages 2 = .exited (some 18) 0 (some (.record record)) ∧
      sampleCommandWorld.db.runsOf 18 = [row] ∧ row.params = paramsJson record.params) ∧
    (sampleCommandWorld.db.batches.find? 5).map BatchRow.status = some .failed := by
  have hwhole := @batches_whole Int _ _ samples_range sampleFormats sampleCommands sampleCommandWorld
    (SimWorld.play_reachable _ _ _)
  have hfind : ∃ row, sampleCommandWorld.db.batches.find? 4 = some row ∧ row.status = .completed := by
    decide +kernel
  obtain ⟨row, hrow, hdone⟩ := hfind
  obtain ⟨⟨i, hi, -⟩, hall⟩ := hwhole.1 4 row hrow hdone
  obtain ⟨-, htotal, hnodup, -⟩ := hall i hi
  obtain ⟨swept, hswept⟩ : ∃ printed, sampleCommandWorld.stages 0 = .exited (some 4) 0 printed :=
    Stage.exit_eq_some (by decide +kernel)
  obtain ⟨ran, hran⟩ : ∃ printed, sampleCommandWorld.stages 2 = .exited (some 18) 0 printed :=
    Stage.exit_eq_some (by decide +kernel)
  obtain ⟨b, -, best, hb, -, -, rfl, -, hbest⟩ := hwhole.2.1 0 _ _ hswept
  obtain ⟨b', -, output, hb', -, -, rfl, -, record, run, rfl, hruns, hstored⟩ := hwhole.2.1 2 _ _ hran
  obtain rfl := Option.some.inj hb
  obtain rfl := Option.some.inj hb'
  exact ⟨⟨row, hrow, hdone, htotal, hnodup⟩, ⟨best, hswept, hbest⟩,
    ⟨record, run, hran, hruns, (runRow_ok hstored).2.2⟩, by decide +kernel⟩

end AutoTrader.Sim
