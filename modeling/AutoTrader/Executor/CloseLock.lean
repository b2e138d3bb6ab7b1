import AutoTrader.Executor.Play

/-!
# Who holds the close lock

The close lock of a trade is its status and the time it was taken, with no name on it. `LockLog` keeps
the name: who took the lock last, and who of the others was overtaken. A release ends the lock of the
attempt that releases it in every step of a run iff no attempt that was overtaken releases a trade that
is closing (`release_own_iff`); and then an attempt takes the lock beside others only when these have
held it for longer than the stale threshold.
-/

namespace AutoTrader

open Lib (Config History Label Step)

variable {ε : Type} {E : ExchangeModel ε} {actors : Nat → Actor} {w₀ : World ε} {id : Uuid}

/-! ## The log of the lock -/

/-- What became of the close lock of one trade. -/
structure LockLog where
  /-- The attempt that took the lock last. -/
  owner : Option Nat
  acquiredAt : Nat → Option DateTime
  /-- The attempts whose lock was taken over as stale. -/
  overtaken : Nat → Bool

/-- Task `i` takes the lock; a stale one is taken from all others. -/
def LockLog.take (log : LockLog) (i : Nat) (stale : Bool) (now : DateTime) : LockLog where
  owner := some i
  acquiredAt := Function.update log.acquiredAt i (some now)
  overtaken := fun j => decide (j ≠ i) && (log.overtaken j || stale)

section

variable {log : LockLog} {i j : Nat} {stale : Bool} {now : DateTime}

@[simp] theorem LockLog.take_owner : (log.take i stale now).owner = some i := rfl

@[simp] theorem LockLog.take_acquiredAt_self : (log.take i stale now).acquiredAt i = some now :=
  Function.update_self ..

theorem LockLog.take_acquiredAt_ne (hij : j ≠ i) : (log.take i stale now).acquiredAt j = log.acquiredAt j :=
  Function.update_of_ne hij ..

@[simp] theorem LockLog.take_overtaken_self : (log.take i stale now).overtaken i = false := by
  simp [take]

theorem LockLog.take_overtaken_ne (hij : j ≠ i) :
    (log.take i stale now).overtaken j = (log.overtaken j || stale) := by
  simp [take, hij]

end

/-- The attempt that took the lock of the trade in this step, and the lock. -/
def acquisition (id : Uuid) : Label Calls Move → Option (Nat × CloseLockAcquired)
  | .call i (.db (.acquireCloseLock tradeId _)) (.ok (some lock)) => if tradeId = id then some (i, lock) else none
  | _ => none

/-- The attempt that released the lock of the trade in this step. -/
def releasedBy (id : Uuid) : Label Calls Move → Option Nat
  | .call i (.db (.releaseCloseLock tradeId)) (.ok _) => if tradeId = id then some i else none
  | _ => none

/-- The log after a step. -/
def LockLog.after (id : Uuid) (log : LockLog) (now : DateTime) (l : Label Calls Move) : LockLog :=
  match acquisition id l with
  | some (i, lock) => log.take i lock.wasStaleRecovery now
  | none => log

/-- Whether the task is an attempt to close the trade. -/
def Actor.closes (id : Uuid) : Actor → Bool
  | .closePosition _ uuid _ => uuid = id
  | _ => false

namespace Run

/-- The log of a run. -/
def lockLog (id : Uuid) (h : Run ε) : LockLog :=
  h.ghost (fun log c l _ => log.after id c.world.now l) ⟨none, fun _ => none, fun _ => false⟩

/-- Attempt `i` is between its acquisition of the lock and its release or persist. -/
def Holds (actors : Nat → Actor) (id : Uuid) (h : Run ε) (i : Nat) : Prop :=
  (actors i).closes id ∧ ∃ trade, h.stage actors i = .holding trade

theorem lockLog_step (h : Run ε) (l : Label Calls Move) (c : Config Calls (World ε) (Except Error Outcome)) :
    lockLog id (.step h l c) = (h.lockLog id).after id h.world.now l := rfl

end Run

/-! ## Late releases -/

/-- A release changes the row only if it is the owner's. -/
def OwnRelease (id : Uuid) (h : Run ε) (l : Label Calls Move) (c : Config Calls (World ε) (Except Error Outcome)) :
    Prop :=
  ∀ i ∈ releasedBy id l, c.world.db.trades.find? id ≠ h.world.db.trades.find? id → (h.lockLog id).owner = some i

instance (id : Uuid) (h : Run ε) (l : Label Calls Move) (c : Config Calls (World ε) (Except Error Outcome)) :
    Decidable (OwnRelease id h l c) :=
  inferInstanceAs (Decidable (∀ i ∈ releasedBy id l, _ → _))

/-- The lock is taken beside other holders only when each has held it for longer than the threshold. -/
def BesideStale (actors : Nat → Actor) (id : Uuid) (h : Run ε) (l : Label Calls Move)
    (_ : Config Calls (World ε) (Except Error Outcome)) : Prop :=
  ∀ p ∈ acquisition id l, ∀ i, i ≠ p.1 → h.Holds actors id i →
    ∃ t, (h.lockLog id).acquiredAt i = some t ∧ t + seconds staleClosingThresholdSecs < h.world.now

/-- A trade that is closing is released only by a task that has taken its lock, and whose lock was not
taken over as stale since. -/
def NoLateRelease (id : Uuid) (h : Run ε) (l : Label Calls Move) (_ : Config Calls (World ε) (Except Error Outcome)) :
    Prop :=
  ∀ i ∈ releasedBy id l, (∃ r ∈ h.world.db.trades.find? id, r.status = .closing) →
    ((h.lockLog id).acquiredAt i).isSome ∧ (h.lockLog id).overtaken i = false

instance (id : Uuid) (h : Run ε) (l : Label Calls Move) (c : Config Calls (World ε) (Except Error Outcome)) :
    Decidable (NoLateRelease id h l c) :=
  inferInstanceAs (Decidable (∀ i ∈ releasedBy id l, (∃ r ∈ h.world.db.trades.find? id, r.status = .closing) → _))

/-- The state of the lock while no late release has happened. -/
structure Custody (actors : Nat → Actor) (id : Uuid) (h : Run ε) : Prop where
  closer : ∀ i, ((h.lockLog id).acquiredAt i).isSome → (actors i).closes id
  held : ∀ i, h.Holds actors id i → ∃ t, (h.lockLog id).acquiredAt i = some t ∧
    ((h.lockLog id).overtaken i → t + seconds staleClosingThresholdSecs < h.world.now)
  owned : ∀ i, h.Holds actors id i → (h.lockLog id).overtaken i = false → (h.lockLog id).owner = some i ∧
    ∃ r, h.world.db.trades.find? id = some r ∧
      (r.status = .closed ∨ r.status = .closing ∧ r.closingStartedAt = (h.lockLog id).acquiredAt i)

section

theorem TradeRow.lockable_status {r : TradeRow} {accountId : Uuid} {now : DateTime} (hl : r.lockable accountId now) :
    r.status = .open ∨ r.status = .closing ∧ ∃ t, r.closingStartedAt = some t ∧
      t + seconds staleClosingThresholdSecs < now := by
  simp only [lockable, stale, Bool.and_eq_true, Bool.or_eq_true, decide_eq_true_eq] at hl
  obtain ⟨-, ho | ⟨hc, ht⟩⟩ := hl
  · exact .inl ho
  · cases hs : r.closingStartedAt with
    | none => rw [hs] at ht; cases ht
    | some t =>
      rw [hs] at ht
      exact .inr ⟨hc, t, rfl, Int.add_lt_of_lt_sub_right (of_decide_eq_true ht)⟩

variable {h : Run ε} {c : Config Calls (World ε) (Except Error Outcome)} {i j : Nat} {q : Query}
  {r : Except Error q.Ok}

/-- Only a successful acquisition makes a task a holder. -/
theorem Run.Holds.of_step (hq : (actors i).MayAsk (h.stage actors i) q)
    (hj : Run.Holds actors id (.step h (.call i (.db q) r) c) j) :
    j ≠ i ∧ h.Holds actors id j ∨ j = i ∧ ∃ lock, acquisition id (.call i (.db q) r) = some (i, lock) := by
  obtain ⟨hc, t, ht⟩ := hj
  rw [Run.stage_db] at ht
  by_cases hij : j = i
  · subst hij
    rw [Function.update_self] at ht
    refine .inr ⟨rfl, ?_⟩
    generalize ha : actors j = act at hq hc
    generalize h.stage actors j = s at hq ht
    cases hq with
    | lock =>
      have hc : _ = id := of_decide_eq_true hc
      rcases r with e | _ | lock
      · cases ht
      · cases ht
      · exact ⟨lock, if_pos hc⟩
    | unlock => cases r <;> cases ht
    | close => cases r <;> cases ht
    | _ => cases hc
  · rw [Function.update_of_ne hij] at ht
    exact .inl ⟨hij, hc, t, ht⟩

/-- A step that leaves the log alone, adds no holder and keeps the lock of a row that is held. -/
theorem Custody.keep {h' : Run ε} (hc : Custody actors id h) (hlog : h'.lockLog id = h.lockLog id)
    (hholds : ∀ i, h'.Holds actors id i → h.Holds actors id i) (hnow : h.world.now ≤ h'.world.now)
    (hrow : ∀ i, h'.Holds actors id i → (h.lockLog id).overtaken i = false →
      ∀ u, h.world.db.trades.find? id = some u → ∃ v, h'.world.db.trades.find? id = some v ∧
        (v.status = .closed ∨ v.status = u.status ∧ v.closingStartedAt = u.closingStartedAt)) :
    Custody actors id h' := by
  refine ⟨fun i hi => hc.closer i (hlog ▸ hi), fun i hi => ?_, fun i hi hov => ?_⟩
  · obtain ⟨t, ht, hold⟩ := hc.held i (hholds i hi)
    rw [hlog]
    exact ⟨t, ht, fun hov => lt_of_lt_of_le (hold hov) hnow⟩
  · rw [hlog] at hov ⊢
    obtain ⟨ho, u, hu, hs⟩ := hc.owned i (hholds i hi) hov
    obtain ⟨v, hv, hvs⟩ := hrow i hi hov u hu
    refine ⟨ho, v, hv, ?_⟩
    rcases hvs with hvs | ⟨hvs, hat⟩
    · exact .inl hvs
    · rw [hvs, hat]
      exact hs

end

section

variable {h : Run ε} {l : Label Calls Move} {c : Config Calls (World ε) (Except Error Outcome)}

theorem acquisition_quiet (hl : quietStep l) : acquisition id l = none := by
  cases l with
  | move m => rfl
  | call i q r => cases q <;> first | rfl | exact hl.elim

theorem acquisition_error {i : Nat} {q : Query} {e : Error} :
    acquisition id (.call i (.db q) (.error e) : Label Calls Move) = none := by
  cases q <;> rfl

theorem releasedBy_quiet (hl : quietStep l) : releasedBy id l = none := by
  cases l with
  | move m => rfl
  | call i q r => cases q <;> first | rfl | exact hl.elim

theorem releasedBy_error {i : Nat} {q : Query} {e : Error} :
    releasedBy id (.call i (.db q) (.error e) : Label Calls Move) = none := by
  cases q <;> rfl

theorem acquisition_fst {i : Nat} {q : Query} {r : Except Error q.Ok} {p : Nat × CloseLockAcquired}
    (ha : acquisition id (.call i (.db q) r : Label Calls Move) = some p) : p.1 = i := by
  cases q with
  | acquireCloseLock tradeId accountId =>
    rcases r with e | _ | lock
    · cases ha
    · cases ha
    · simp only [acquisition] at ha
      split at ha
      · cases ha
        rfl
      · cases ha
  | _ => cases ha

/-- What an acquisition of the lock is. -/
theorem acquisition_ok {i j : Nat} {q : Query} {a : q.Ok} {lock : CloseLockAcquired}
    (ha : acquisition id (.call i (.db q) (.ok a) : Label Calls Move) = some (j, lock)) :
    j = i ∧ ∃ accountId, q = .acquireCloseLock id accountId ∧
      ∀ {now db db'}, q.wrote now db a db' → ∃ r, db.trades.find? id = some r ∧ r.lockable accountId now ∧
        lock = ⟨(r.startClosing now).toTrade, r.closingStartedAt.isSome⟩ ∧
        db'.trades.find? id = some (r.startClosing now) := by
  cases q with
  | acquireCloseLock tradeId accountId =>
    cases a with
    | none => cases ha
    | some lock =>
      simp only [acquisition] at ha
      split at ha
      · rename_i hid
        subst hid
        cases ha
        refine ⟨rfl, accountId, rfl, fun hw => ?_⟩
        rcases hw with ⟨r, hr, hl, hlock, rfl⟩ | ⟨hlock, -⟩
        · cases hlock
          refine ⟨r, hr, hl, rfl, ?_⟩
          obtain rfl := Db.trade_id hr
          exact (Lib.Table.find?_set (v := r.startClosing _) hr _).trans (if_pos rfl)
        · cases hlock
      · cases ha
  | _ => cases ha

theorem releasedBy_ok {i j : Nat} {q : Query} {a : q.Ok}
    (hr : releasedBy id (.call i (.db q) (.ok a) : Label Calls Move) = some j) : j = i ∧ q = .releaseCloseLock id := by
  cases q with
  | releaseCloseLock tradeId =>
    simp only [releasedBy] at hr
    split at hr
    · rename_i hid
      exact ⟨(Option.some.inj hr).symm, by rw [hid]⟩
    · cases hr
  | _ => cases hr

/-- When the lock can be taken, whoever holds it has held it for longer than the threshold, and was
overtaken or is so now. -/
theorem Custody.lockable {r : TradeRow} {accountId : Uuid} {i : Nat} (hc : Custody actors id h)
    (hr : h.world.db.trades.find? id = some r) (hl : r.lockable accountId h.world.now)
    (hi : h.Holds actors id i) :
    (∃ t, (h.lockLog id).acquiredAt i = some t ∧ t + seconds staleClosingThresholdSecs < h.world.now) ∧
      ((h.lockLog id).overtaken i = false → r.closingStartedAt.isSome) := by
  obtain ⟨t, ht, hold⟩ := hc.held i hi
  cases hov : (h.lockLog id).overtaken i with
  | true => exact ⟨⟨t, ht, hold hov⟩, nofun⟩
  | false =>
    obtain ⟨-, u, hu, hs⟩ := hc.owned i hi hov
    cases Option.some.inj (hr.symm.trans hu)
    have hstale := TradeRow.lockable_status hl
    rcases hs with hs | ⟨hs, hat⟩
    · rw [hs] at hstale
      rcases hstale with hstale | ⟨hstale, -⟩ <;> cases hstale
    · rw [hs, hat, ht] at hstale
      rcases hstale with hstale | ⟨-, t', ht', hlt⟩
      · cases hstale
      · cases ht'
        exact ⟨⟨t, ht, hlt⟩, fun _ => by rw [hat, ht]; rfl⟩

theorem Custody.acquire {i j : Nat} {q : Query} {a : q.Ok} {lock : CloseLockAcquired} (hc : Custody actors id h)
    (hq : (actors i).MayAsk (h.stage actors i) q) (hw : q.wrote h.world.now h.world.db a c.world.db)
    (hnow : c.world.now = h.world.now)
    (ha : acquisition id (.call i (.db q) (.ok a) : Label Calls Move) = some (j, lock)) :
    Custody actors id (.step h (.call i (.db q) (.ok a)) c) := by
  obtain ⟨rfl, accountId, hqe, hrow⟩ := acquisition_ok ha
  obtain ⟨r, hr, hl, hlock, hr'⟩ := hrow hw
  have hcloses : (actors j).closes id := by
    subst hqe
    generalize actors j = act at hq
    generalize h.stage actors j = s at hq
    cases hq
    exact decide_eq_true rfl
  have hlog : Run.lockLog id (.step h (.call j (.db q) (.ok a)) c) =
      (h.lockLog id).take j lock.wasStaleRecovery h.world.now := by
    rw [Run.lockLog_step, LockLog.after, ha]
  refine ⟨fun i hi => ?_, fun i hi => ?_, fun i hi hov => ?_⟩ <;> rw [hlog] at *
  · by_cases hij : i = j
    · exact hij ▸ hcloses
    · rw [LockLog.take_acquiredAt_ne hij] at hi
      exact hc.closer i hi
  · rcases hi.of_step hq with ⟨hij, hi⟩ | ⟨rfl, -⟩
    · obtain ⟨⟨t, ht, hlt⟩, -⟩ := hc.lockable hr hl hi
      exact ⟨t, by rw [LockLog.take_acquiredAt_ne hij, ht], fun _ => hnow ▸ hlt⟩
    · exact ⟨_, LockLog.take_acquiredAt_self, by simp⟩
  · rcases hi.of_step hq with ⟨hij, hi⟩ | ⟨rfl, -⟩
    · rw [LockLog.take_overtaken_ne hij, Bool.or_eq_false_iff] at hov
      have := (hc.lockable hr hl hi).2 hov.1
      rw [show lock.wasStaleRecovery = r.closingStartedAt.isSome from hlock ▸ rfl, this] at hov
      cases hov.2
    · exact ⟨rfl, _, hr', .inr ⟨rfl, LockLog.take_acquiredAt_self.symm⟩⟩

/-- A release of a trade that is closing is one by its owner. -/
theorem Custody.release {i : Nat} {q : Query} {a : q.Ok} (hc : Custody actors id h)
    (hq : (actors i).MayAsk (h.stage actors i) q) (hlate : NoLateRelease id h (.call i (.db q) (.ok a)) c)
    (hqe : q = .releaseCloseLock id) {r : TradeRow} (hr : h.world.db.trades.find? id = some r)
    (hs : r.status = .closing) : h.Holds actors id i ∧ (h.lockLog id).owner = some i := by
  subst hqe
  obtain ⟨hacq, hov⟩ := hlate i (if_pos rfl) ⟨r, hr, hs⟩
  have hcloses := hc.closer i hacq
  have hholds : h.Holds actors id i := by
    refine ⟨hcloses, ?_⟩
    generalize actors i = act at hq hcloses
    generalize h.stage actors i = s at hq
    cases hq with
    | unlock => exact ⟨_, rfl⟩
    | release => cases hcloses
  exact ⟨hholds, (hc.owned i hholds hov).1⟩

/-- A query that does not acquire the lock keeps the lock of a row that another attempt holds. -/
theorem Custody.row {i j : Nat} {q : Query} {a : q.Ok} (hc : Custody actors id h)
    (hq : (actors i).MayAsk (h.stage actors i) q) (hw : q.wrote h.world.now h.world.db a c.world.db)
    (hlate : NoLateRelease id h (.call i (.db q) (.ok a)) c)
    (ha : acquisition id (.call i (.db q) (.ok a) : Label Calls Move) = none) (hij : j ≠ i)
    (hj : h.Holds actors id j) (hov : (h.lockLog id).overtaken j = false) {u : TradeRow}
    (hu : h.world.db.trades.find? id = some u) :
    ∃ v, c.world.db.trades.find? id = some v ∧
      (v.status = .closed ∨ v.status = u.status ∧ v.closingStartedAt = u.closingStartedAt) := by
  obtain ⟨v, hv, hrow⟩ := Query.wrote_row hw hu
  obtain rfl := Db.trade_id hu
  refine ⟨v, hv, ?_⟩
  cases hrow with
  | same => exact .inr ⟨rfl, rfl⟩
  | settle => exact .inl rfl
  | charge => exact .inr ⟨rfl, rfl⟩
  | @lock accountId _ =>
    cases a with
    | none =>
      rcases hw with ⟨r, -, -, hlock, -⟩ | ⟨-, hdb⟩
      · cases hlock
      · rw [hdb, hu] at hv
        rw [← Option.some.inj hv]
        exact .inr ⟨rfl, rfl⟩
    | some lock =>
      have hne : acquisition u.id (.call i (.db (.acquireCloseLock u.id accountId)) (.ok (some lock))) =
          some (i, lock) := if_pos rfl
      rw [hne] at ha
      cases ha
  | reopen hs =>
    have howner := (hc.release hq hlate rfl hu hs).2
    rw [(hc.owned j hj hov).1] at howner
    exact absurd (Option.some.inj howner) hij

/-- One step of a run without late releases. -/
theorem Custody.step (hv : h.Of E w₀ actors) (hs : Step (worldSys E) h.last l c) (hc : Custody actors id h)
    (hlate : NoLateRelease id h l c) : Custody actors id (.step h l c) := by
  rcases Run.Of.step_cases hv hs with ⟨i, q, a, rfl, hq, hw, hnow⟩ | ⟨i, q, e, rfl, hq, hw⟩ | ⟨j, l, rfl, hw⟩ |
    ⟨hw, hst, hquiet, hnow⟩
  · cases ha : acquisition id (.call i (.db q) (.ok a) : Label Calls Move) with
    | some p => exact hc.acquire hq hw hnow ha
    | none =>
      have holds : ∀ j, Run.Holds actors id (.step h (.call i (.db q) (.ok a)) c) j → j ≠ i ∧ h.Holds actors id j := by
        intro j hj
        rcases hj.of_step hq with hj | ⟨-, lock, hst⟩
        · exact hj
        · rw [ha] at hst; cases hst
      refine hc.keep (by rw [Run.lockLog_step, LockLog.after, ha]) (fun j hj => (holds j hj).2) hnow.ge ?_
      exact fun j hj hov u hu => hc.row hq hw hlate ha (holds j hj).1 (holds j hj).2 hov hu
  · refine hc.keep ?_ (fun j hj => ?_) ?_ ?_
    · rw [Run.lockLog_step, LockLog.after, acquisition_error]
    · rcases hj.of_step hq with hj | ⟨-, lock, hst⟩
      · exact hj.2
      · rw [acquisition_error] at hst; cases hst
    · rw [History.world_step, hw]
    · intro j _ _ u hu
      exact ⟨u, by rw [History.world_step, hw]; exact hu, .inr ⟨rfl, rfl⟩⟩
  · refine hc.keep rfl (fun j hj => hj) ?_ fun j _ _ u hu => ⟨u, ?_, .inr ⟨rfl, rfl⟩⟩
    · rw [History.world_step, hw]
    · rw [History.world_step, hw]
      rw [setLeverage_trades]
      exact hu
  · refine hc.keep ?_ (fun j hj => ?_) hnow fun j _ _ u hu => ⟨u, ?_, .inr ⟨rfl, rfl⟩⟩
    · rw [Run.lockLog_step, LockLog.after, acquisition_quiet hquiet]
    · simpa only [Run.Holds, hst] using hj
    · rw [History.world_step, hw]
      exact hu

end

theorem Run.Of.custody {h : Run ε} (hv : h.Of E w₀ actors) (hlate : h.Steps (NoLateRelease id)) :
    Custody actors id h := by
  refine History.Valid.invariant (J := Custody actors id) ?_ (fun h l c hv _ hc hs hlate => hc.step hv hs hlate) hv
    hlate
  have nobody : ∀ i, ¬ Run.Holds actors id (.start (begin w₀ actors)) i := fun i ⟨_, _, ht⟩ => Stage.noConfusion ht
  exact ⟨fun i hi => (by cases hi), fun i hi => absurd hi (nobody i), fun i hi => absurd hi (nobody i)⟩

/-- The owner has taken the lock, and it was not taken over since. -/
theorem Run.lockLog_owner {i : Nat} : ∀ {h : Run ε}, (h.lockLog id).owner = some i →
    ((h.lockLog id).acquiredAt i).isSome ∧ (h.lockLog id).overtaken i = false
  | .start _, ho => by cases ho
  | .step h l c, ho => by
    rw [lockLog_step, LockLog.after] at ho ⊢
    cases ha : acquisition id l with
    | none =>
      rw [ha] at ho
      exact lockLog_owner ho
    | some p =>
      rw [ha] at ho
      obtain rfl : p.1 = i := Option.some.inj ho
      simp

/-- A release of a trade that is closing changes its row. -/
theorem releasedBy_changes {h : Run ε} {l : Label Calls Move} {c : Config Calls (World ε) (Except Error Outcome)}
    {i : Nat} {r : TradeRow} (hv : h.Of E w₀ actors) (hs : Step (worldSys E) h.last l c)
    (hi : releasedBy id l = some i) (hr : h.world.db.trades.find? id = some r) (hc : r.status = .closing) :
    c.world.db.trades.find? id ≠ h.world.db.trades.find? id := by
  rcases Run.Of.step_cases hv hs with ⟨i, q, a, rfl, -, hw, -⟩ | ⟨i, q, e, rfl, -, -⟩ | ⟨j, l, rfl, -⟩ |
    ⟨-, -, hquiet, -⟩
  · obtain ⟨-, rfl⟩ := releasedBy_ok hi
    rcases hw with ⟨u, hu, -, hdb⟩ | ⟨hn, -⟩
    · obtain rfl := Db.trade_id hu
      have hset : c.world.db.trades.find? u.id = some u.reopen := by
        rw [hdb]
        exact (Lib.Table.find?_set (v := u.reopen) hu _).trans (if_pos rfl)
      rw [hset, hr]
      intro he
      rw [← Option.some.inj he] at hc
      cases hc
    · exact absurd hc (hn r hr)
  · rw [releasedBy_error] at hi
    cases hi
  · cases hi
  · rw [releasedBy_quiet hquiet] at hi
    cases hi

/-- While no late release has happened, the next release that is not late is the owner's. -/
theorem Custody.ownRelease {h : Run ε} {l : Label Calls Move}
    {c : Config Calls (World ε) (Except Error Outcome)} (hv : h.Of E w₀ actors) (hs : Step (worldSys E) h.last l c)
    (hc : Custody actors id h) (hlate : NoLateRelease id h l c) : OwnRelease id h l c := by
  intro i hi hne
  rcases Run.Of.step_cases hv hs with ⟨i, q, a, rfl, hq, hw, -⟩ | ⟨i, q, e, rfl, -, -⟩ | ⟨j, l, rfl, -⟩ |
    ⟨-, -, hquiet, -⟩
  · obtain ⟨rfl, rfl⟩ := releasedBy_ok hi
    rcases hw with ⟨u, hu, hcl, -⟩ | ⟨-, hdb⟩
    · exact (hc.release hq hlate rfl hu hcl).2
    · rw [hdb] at hne
      exact absurd rfl hne
  · rw [releasedBy_error] at hi
    cases hi
  · cases hi
  · rw [releasedBy_quiet hquiet] at hi
    cases hi

/-- While no late release has happened, the lock is taken only beside holders of a stale one. -/
theorem Custody.besideStale {h : Run ε} {l : Label Calls Move}
    {c : Config Calls (World ε) (Except Error Outcome)} (hv : h.Of E w₀ actors) (hs : Step (worldSys E) h.last l c)
    (hc : Custody actors id h) : BesideStale actors id h l c := by
  intro p hp i _ hi
  rcases Run.Of.step_cases hv hs with ⟨j, q, a, rfl, hq, hw, -⟩ | ⟨j, q, e, rfl, -, -⟩ | ⟨j, l, rfl, -⟩ |
    ⟨-, -, hquiet, -⟩
  · obtain ⟨-, accountId, -, hrow⟩ := acquisition_ok hp
    obtain ⟨r, hr, hl, -⟩ := hrow hw
    exact (hc.lockable hr hl hi).1
  · rw [acquisition_error] at hp
    cases hp
  · cases hp
  · rw [acquisition_quiet hquiet] at hp
    cases hp

/-- In a run of any tasks, every release that changes the row of a trade is one by the attempt that took
the lock last, and nobody takes the lock beside another holder before the threshold, iff nobody releases
the trade while it is closing without the lock or after it was taken over. -/
theorem release_own_iff : ∀ {h : Run ε}, h.Of E w₀ actors →
    (h.Steps (OwnRelease id) ∧ h.Steps (BesideStale actors id) ↔ h.Steps (NoLateRelease id))
  | .start _, _ => by simp [History.Steps]
  | .step h l c, hv => by
    have ih := release_own_iff hv.1
    constructor
    · rintro ⟨⟨ho, hown⟩, hb, -⟩
      refine ⟨ih.mp ⟨ho, hb⟩, fun i hi ⟨r, hr, hs⟩ => ?_⟩
      exact Run.lockLog_owner (hown i hi (releasedBy_changes hv.1 hv.2 hi hr hs))
    · rintro ⟨hl, hlate⟩
      obtain ⟨ho, hb⟩ := ih.mpr hl
      have hc := Run.Of.custody hv.1 hl
      exact ⟨⟨ho, hc.ownRelease hv.1 hv.2 hlate⟩, hb, hc.besideStale hv.1 hv.2⟩

/-! ## A late release -/

/-- Every task is a live attempt to close the trade of the sample. -/
def sampleClosers (_ : Nat) : Actor := .closePosition (sampleTrader false) 7 .slHit

/-- The first attempt takes the lock and is held up, the second takes it over as stale, the first one
fails and releases it, and the third one takes it while the second is still at work. -/
def sampleLateRelease : Run Unit :=
  .play anyExchange ⟨sampleOpenDb, (), 0⟩ sampleClosers
    [.commit 0, .wait 301000000, .commit 1, .reply 0 (.sfd (.ok 0)), .reply 0 (.stopStatus (.error "timeout")),
      .commit 0, .commit 2]

theorem sampleLateRelease_not_own :
    sampleLateRelease.Of anyExchange ⟨sampleOpenDb, (), 0⟩ sampleClosers ∧
      ¬ (sampleLateRelease.Steps (OwnRelease 7) ∧ sampleLateRelease.Steps (BesideStale sampleClosers 7)) := by
  refine ⟨Run.play_of _ _ _ _, fun h => ?_⟩
  have : ¬ sampleLateRelease.Steps (OwnRelease 7) := by decide +kernel
  exact this h.1

/-- The same run without the delay: the second attempt does not get the lock. -/
theorem sampleRelease_own :
    (Run.play anyExchange ⟨sampleOpenDb, (), 0⟩ sampleClosers
      [.commit 0, .commit 1, .reply 0 (.sfd (.ok 0)), .reply 0 (.stopStatus (.error "timeout")),
        .commit 0, .commit 2]).Steps (OwnRelease 7) :=
  ((release_own_iff (Run.play_of _ _ _ _)).mpr (by decide +kernel)).1

end AutoTrader
