import AutoTrader.App.SfdAccrual
import AutoTrader.Executor.Play
import AutoTrader.Lib.Ascending
import Mathlib.Data.List.Induction
import Mathlib.Data.List.Nodup

/-!
# Hours are charged once

What a run of the SFD task charges a trade for: never twice for one hour, and once for every hour after the first
tick and not before the entry that begins less than 24 hours before the tick that catches up with it
(`hours_charged_once`). A step keeps the hour it remembers, moves it without a call because nothing is to be charged,
or charges all hours up to it (`processTick_cases`).
-/

namespace AutoTrader

/-! ## Runs -/

/-- A tick finds the database in this state at one of its reads. -/
def SfdTick.Finds (t : SfdTick) (db : Db) : Prop :=
  t.accounts = .ok db ∨ t.count = .ok db ∨ (∃ lh accountId, t.openTrades lh accountId = .ok db) ∨
    ∃ eventAt tradeId, t.fees eventAt tradeId = .ok db

/-- The ticks of a run. Every trade stays with its account, whatever others write between the reads. -/
structure SfdRun where
  ticks : List SfdTick
  owner : Uuid → Uuid
  owned : ∀ t ∈ ticks, ∀ db, t.Finds db → ∀ r ∈ db.trades.rows, r.accountId = owner r.id

/-- The trade is open at every tick after its entry, and the database answers what is asked about it. -/
structure StaysOpen (trade : Trade) (ticks : List SfdTick) : Prop where
  found : ∀ t ∈ ticks, trade.entryAt ≤ t.now → ∀ db, t.Finds db → OpenIn .bitflyerCfd trade db
  listed : ∀ t ∈ ticks, trade.entryAt ≤ t.now → ∀ lh, ∃ db, t.openTrades lh trade.accountId = .ok db
  charged : ∀ t ∈ ticks, trade.entryAt ≤ t.now → ∀ eventAt, ∃ db, t.fees eventAt trade.id = .ok db

/-- The tick that the run begins with: the first one whose full hour is known. -/
def firstTick (ticks : List SfdTick) : Option SfdTick := ticks.find? fun t => (truncateToHour t.now).isSome

/-- All reads of the tick succeed and the prices are fresh. -/
def SfdTick.CatchesUp (t : SfdTick) (fxMid spotMid : Decimal) : Prop :=
  (truncateToHour t.now).isSome ∧ (∃ accounts, t.listAccounts = .ok accounts) ∧ (∃ n, t.openTargetCount = .ok n) ∧
    t.fetchFreshMidPrices = some (fxMid, spotMid)

/-- What an hour costs the trade at these prices. -/
def sfdDue (trade : Trade) (fxMid spotMid : Decimal) : SfdOutcome :=
  let fee := computeHourlySfd
    { fxPrice := fxMid, spotPrice := spotMid, positionNotional := trade.entryPrice * trade.quantity
      direction := trade.direction }
  if fee = 0 then .zeroFee else .charged fee

/-- The calls of a run. -/
def sfdCalls (ticks : List SfdTick) : List SfdCall := (sfdAccrual.outputs none ticks).flatten

/-- The hours that a trade is called for. -/
def NeverTwice (ticks : List SfdTick) : Prop :=
  ∀ id, ((sfdCalls ticks).filter fun c => c.trade.id = id).Pairwise fun c d => c.eventAt < d.eventAt

/-- Every hour that begins after the first tick and not before the entry of a trade that stays open is charged once, by
the first tick from then on that catches up, at the prices of this tick, provided that it is in time. -/
def ChargedOnce (inTime : DateTime → DateTime → Prop) (ticks : List SfdTick) : Prop :=
  ∀ trade boundary, trade.pair = "FX_BTC_JPY" → StaysOpen trade ticks → hour ∣ boundary → trade.entryAt ≤ boundary →
    (∃ first, firstTick ticks = some first ∧ first.now < boundary) →
    ∀ before t after fxMid spotMid, ticks = before ++ t :: after → t.CatchesUp fxMid spotMid → boundary ≤ t.now →
      (∀ u ∈ before, ∀ fx spot, u.CatchesUp fx spot → u.now < boundary) → inTime boundary t.now →
      ∃ call, (sfdCalls ticks).filter (fun c => c.trade.id = trade.id ∧ c.eventAt = boundary) = [call] ∧
        call.outcome = sfdDue trade fxMid spotMid

/-- Of two calls for one trade the second is for a later hour. -/
def SfdCall.Precedes (c d : SfdCall) : Prop := c.trade.id = d.trade.id → c.eventAt < d.eventAt

/-! ## Hours -/

theorem truncateToHour_eq_some {now c : DateTime} (h : truncateToHour now = some c) :
    hour ∣ c ∧ c ≤ now ∧ now < c + hour := by
  obtain ⟨-, heq⟩ := Option.ite_none_right_eq_some.mp h
  obtain rfl := Option.some.inj heq
  have hpos : (0 : Int) < hour := by decide
  have hnonneg : (0 : Int) ≤ (now : Int) % hour := Int.emod_nonneg _ hpos.ne'
  have hlt : (now : Int) % hour < hour := Int.emod_lt_of_pos _ hpos
  have hdvd : hour ∣ (now : Int) - (now : Int) % hour := Int.dvd_self_sub_emod
  exact ⟨hdvd, sub_le_self _ hnonneg, lt_add_of_sub_left_lt (by rwa [sub_sub_cancel])⟩

/-- What is clamped off, and what is left up to the current hour. -/
theorem clampCatchUp_spec {lh c : DateTime} (hlh : hour ∣ lh) (hc : hour ∣ c) (hle : lh + hour ≤ c) :
    lh ≤ (clampCatchUp lh c).1 ∧ hour ∣ (clampCatchUp lh c).1 ∧ 0 ≤ (clampCatchUp lh c).2 ∧
      (clampCatchUp lh c).1 + (clampCatchUp lh c).2 * hour = c ∧
      ((clampCatchUp lh c).1 = lh ∨ (clampCatchUp lh c).1 = c - 24 * hour) := by
  obtain ⟨m, rfl⟩ := hlh
  obtain ⟨n, rfl⟩ := hc
  have hhour : hour = 3600000000 := rfl
  rw [hhour] at hle ⊢
  have hle' : m + 1 ≤ n := by
    have h : (3600000000 : Int) * m + 3600000000 ≤ 3600000000 * n := hle
    omega
  have hpending : Int.tdiv (3600000000 * n - 3600000000 * m) 3600000000 = n - m := by
    rw [← mul_sub, Int.mul_tdiv_cancel_left _ (by decide)]
  unfold clampCatchUp
  rw [hhour, hpending, sfdMaxCatchUpHours]
  by_cases h : n - m ≤ 24
  · rw [if_pos h]
    dsimp only
    refine ⟨le_rfl, dvd_mul_right _ _, by omega, ?_, .inl rfl⟩
    show (3600000000 : Int) * m + (n - m) * 3600000000 = 3600000000 * n
    ring
  · rw [if_neg h]
    dsimp only
    refine ⟨?_, ?_, by decide, ?_, .inr rfl⟩
    · show (3600000000 : Int) * m ≤ 3600000000 * n - 24 * 3600000000
      omega
    · exact ⟨n - 24, by ring⟩
    · ring

/-- An hour among those from `low` up to `c`. -/
theorem hour_between {l low c pending : Int} {k : Nat} (hlow : l ≤ low) (hend : low + pending * hour = c)
    (hk : k < pending.toNat) : l < low + k * hour + hour ∧ low + k * hour + hour ≤ c := by
  have hpos : (0 : Int) < hour := by decide
  have hstart : (0 : Int) ≤ k * hour := mul_nonneg (Nat.cast_nonneg k) hpos.le
  have hlast : ((k : Int) + 1) * hour ≤ pending * hour := mul_le_mul_of_nonneg_right (by omega) hpos.le
  rw [add_mul, one_mul] at hlast
  omega

theorem hour_le_of_lt {boundary c : Int} (hb : hour ∣ boundary) (hc : hour ∣ c) (hlt : boundary < c + hour) :
    boundary ≤ c := by
  obtain ⟨j, rfl⟩ := hb
  obtain ⟨n, rfl⟩ := hc
  rw [show hour = 3600000000 from rfl] at hlt ⊢
  omega

theorem hour_add_le {l boundary : Int} (hl : hour ∣ l) (hb : hour ∣ boundary) (hlt : l < boundary) :
    l + hour ≤ boundary := by
  obtain ⟨i, rfl⟩ := hl
  obtain ⟨j, rfl⟩ := hb
  rw [show hour = 3600000000 from rfl] at hlt ⊢
  omega

theorem exists_hour_index {low c boundary pending : Int} (hlow : hour ∣ low) (hb : hour ∣ boundary)
    (hend : low + pending * hour = c) (hlt : low < boundary) (hle : boundary ≤ c) :
    ∃ k : Nat, k < pending.toNat ∧ low + k * hour + hour = boundary := by
  obtain ⟨m, rfl⟩ := hlow
  obtain ⟨j, rfl⟩ := hb
  rw [show hour = 3600000000 from rfl] at hend hlt hle ⊢
  exact ⟨(j - m - 1).toNat, by omega, by omega⟩

/-! ## The calls of one tick -/

namespace SfdTick

variable {t : SfdTick} {lh l : DateTime} {fxMid spotMid : Decimal}

theorem eventAt_of_mem {pac : TradingAccount} {c : SfdCall} (h : c ∈ t.applySfdToAccount pac lh fxMid spotMid) :
    c.eventAt = lh + hour := by
  unfold applySfdToAccount at h
  split at h
  · exact absurd h List.not_mem_nil
  · split at h
    · exact absurd h List.not_mem_nil
    · split at h
      · exact absurd h List.not_mem_nil
      · obtain ⟨trade, -, rfl⟩ := List.mem_map.mp h
        rfl

theorem applyPendingHours_snd (accounts : List TradingAccount) (n : Nat) :
    ∀ lh, (t.applyPendingHours accounts fxMid spotMid n lh).2 = lh + n * hour := by
  induction n with
  | zero => exact fun lh => (by simp [applyPendingHours])
  | succ n ih =>
    intro lh
    rw [applyPendingHours, ih, Nat.cast_succ]
    ring

theorem mem_applyPendingHours {accounts : List TradingAccount} {n : Nat} {c : SfdCall} :
    ∀ {lh}, c ∈ (t.applyPendingHours accounts fxMid spotMid n lh).1 ↔
      ∃ k < n, ∃ pac ∈ accounts, c ∈ t.applySfdToAccount pac (lh + k * hour) fxMid spotMid := by
  induction n with
  | zero => simp [applyPendingHours]
  | succ n ih =>
    intro lh
    rw [applyPendingHours, List.mem_append, ih, List.mem_flatMap]
    constructor
    · rintro (⟨pac, hpac, hc⟩ | ⟨k, hk, pac, hpac, hc⟩)
      · exact ⟨0, by omega, pac, hpac, by simpa using hc⟩
      · refine ⟨k + 1, by omega, pac, hpac, ?_⟩
        rwa [show lh + ((k + 1 : Nat) : Int) * hour = lh + hour + k * hour by push_cast; ring]
    · rintro ⟨k, hk, pac, hpac, hc⟩
      rcases k with _ | k
      · exact .inl ⟨pac, hpac, by simpa using hc⟩
      · refine .inr ⟨k, by omega, pac, hpac, ?_⟩
        rwa [show lh + hour + k * hour = lh + ((k + 1 : Nat) : Int) * hour by push_cast; ring]

/-! ## One step -/

/-- There is nothing to charge at this tick: no paper account of the exchange, or no open trade in one. -/
def FindsNothing (t : SfdTick) : Prop :=
  (∃ accounts, t.listAccounts = .ok accounts ∧ hasPaperBitflyerAccount accounts = false) ∨ t.openTargetCount = .ok 0

/-- The tick charges the hours from the one that is left of the remembered one up to its own. -/
structure Charges (t : SfdTick) (l c : DateTime) (accounts : List TradingAccount) (fxMid spotMid : Decimal) :
    Prop where
  listed : t.listAccounts = .ok accounts
  counted : ∃ n, t.openTargetCount = .ok n
  priced : t.fetchFreshMidPrices = some (fxMid, spotMid)
  step : t.processTick (some l) =
    ((t.applyPendingHours accounts fxMid spotMid (clampCatchUp l c).2.toNat (clampCatchUp l c).1).1,
      some (t.applyPendingHours accounts fxMid spotMid (clampCatchUp l c).2.toNat (clampCatchUp l c).1).2)

theorem processTick_cases (t : SfdTick) (l : DateTime) :
    t.processTick (some l) = ([], some l) ∧
        (∀ c fxMid spotMid, truncateToHour t.now = some c → t.CatchesUp fxMid spotMid → c < l + hour) ∨
      ∃ c, truncateToHour t.now = some c ∧ l + hour ≤ c ∧
        (t.FindsNothing ∧ t.processTick (some l) = ([], some c) ∨
          ∃ accounts fxMid spotMid, t.Charges l c accounts fxMid spotMid) := by
  unfold processTick
  rcases hc : truncateToHour t.now with _ | c
  · exact .inl ⟨rfl, fun c _ _ hsome => absurd hsome.symm (Option.some_ne_none c)⟩
  · dsimp only
    by_cases hle : l + hour > c
    · exact .inl ⟨if_pos hle, fun c' _ _ hsome _ => Option.some.inj hsome ▸ hle⟩
    · rw [if_neg hle]
      rcases hlist : t.listAccounts with e | accounts
      · refine .inl ⟨rfl, fun _ _ _ _ ⟨_, ⟨_, hok⟩, _⟩ => ?_⟩
        cases hlist.symm.trans hok
      · dsimp only
        rcases hhas : hasPaperBitflyerAccount accounts with _ | _
        · exact .inr ⟨c, rfl, not_lt.mp hle, .inl ⟨.inl ⟨accounts, hlist, hhas⟩, by simp⟩⟩
        · rcases hcount : t.openTargetCount with e | n
          · refine .inl ⟨by simp, fun _ _ _ _ ⟨_, _, ⟨_, hok⟩, _⟩ => ?_⟩
            cases hcount.symm.trans hok
          · rcases n with _ | n
            · exact .inr ⟨c, rfl, not_lt.mp hle, .inl ⟨.inr hcount, by simp⟩⟩
            · rcases hprices : t.fetchFreshMidPrices with _ | ⟨fxMid, spotMid⟩
              · refine .inl ⟨by simp, fun _ _ _ _ ⟨_, _, _, hok⟩ => ?_⟩
                cases hprices.symm.trans hok
              · refine .inr ⟨c, rfl, not_lt.mp hle,
                  .inr ⟨accounts, fxMid, spotMid, hlist, ⟨n + 1, hcount⟩, hprices, ?_⟩⟩
                simp [processTick, hc, hle, hlist, hhas, hcount, hprices]

/-! ## No hour twice -/

/-- The calls for an account are for trades of the account, each of them once. -/
theorem applySfdToAccount_trades {owner : Uuid → Uuid} {pac : TradingAccount}
    (howned : ∀ db, t.Finds db → ∀ r ∈ db.trades.rows, r.accountId = owner r.id) :
    (t.applySfdToAccount pac lh fxMid spotMid).Pairwise (fun c d => c.trade.id ≠ d.trade.id) ∧
      ∀ c ∈ t.applySfdToAccount pac lh fxMid spotMid, owner c.trade.id = pac.id := by
  unfold applySfdToAccount
  split
  · simp
  · split
    · simp
    · split
      · simp
      · rename_i trades htrades
        refine ⟨List.pairwise_map.mpr (open_distinct htrades), fun c hc => ?_⟩
        obtain ⟨trade, htrade, rfl⟩ := List.mem_map.mp hc
        exact open_owned (fun db hdb => howned db (.inr (.inr (.inl ⟨lh, pac.id, hdb⟩)))) htrades htrade

theorem applyPendingHours_later {owner : Uuid → Uuid} {accounts : List TradingAccount}
    (howned : ∀ db, t.Finds db → ∀ r ∈ db.trades.rows, r.accountId = owner r.id)
    (haccounts : accounts.Pairwise fun a b => a.id ≠ b.id) (n : Nat) :
    ∀ lh, (t.applyPendingHours accounts fxMid spotMid n lh).1.Pairwise SfdCall.Precedes := by
  induction n with
  | zero => exact fun lh => .nil
  | succ n ih =>
    intro lh
    rw [applyPendingHours, List.pairwise_append]
    refine ⟨?_, ih (lh + hour), fun c hc d hd _ => ?_⟩
    · exact List.Pairwise.imp (fun hne heq => absurd heq hne)
        (calls_distinct haccounts fun pac => applySfdToAccount_trades howned)
    · obtain ⟨pac, -, hc⟩ := List.mem_flatMap.mp hc
      obtain ⟨k, -, pac', -, hd⟩ := mem_applyPendingHours.mp hd
      rw [eventAt_of_mem hc, eventAt_of_mem hd]
      exact (hour_between le_rfl rfl (show k < ((k : Int) + 1).toNat by omega)).1

section

variable {c : DateTime} {accounts : List TradingAccount}

theorem Charges.snd (h : t.Charges l c accounts fxMid spotMid) (hl : hour ∣ l) (hc : hour ∣ c) (hle : l + hour ≤ c) :
    (t.processTick (some l)).2 = some c := by
  obtain ⟨-, -, hnonneg, hend, -⟩ := clampCatchUp_spec hl hc hle
  rw [h.step, applyPendingHours_snd, Int.toNat_of_nonneg hnonneg, hend]

/-- The hours that are charged lie between the hour remembered before and the one remembered after. -/
theorem Charges.range (h : t.Charges l c accounts fxMid spotMid) (hl : hour ∣ l) (hc : hour ∣ c) (hle : l + hour ≤ c)
    {call : SfdCall} (hcall : call ∈ (t.processTick (some l)).1) : l < call.eventAt ∧ call.eventAt ≤ c := by
  obtain ⟨hlow, -, hnonneg, hend, -⟩ := clampCatchUp_spec hl hc hle
  rw [h.step] at hcall
  obtain ⟨k, hk, pac, -, hmem⟩ := mem_applyPendingHours.mp hcall
  rw [eventAt_of_mem hmem]
  exact hour_between hlow hend hk

end

/-- What one tick does from an hour on: the hours it calls for lie between that hour and the next one remembered. -/
theorem processTick_advances (hl : hour ∣ l) : ∃ l', (t.processTick (some l)).2 = some l' ∧ hour ∣ l' ∧ l ≤ l' ∧
    ∀ call ∈ (t.processTick (some l)).1, l < call.eventAt ∧ call.eventAt ≤ l' := by
  rcases t.processTick_cases l with ⟨hkept, -⟩ | ⟨c, hc, hle, ⟨-, hskip⟩ | ⟨accounts, fxMid, spotMid, hcharges⟩⟩
  · rw [hkept]
    exact ⟨l, rfl, hl, le_rfl, by simp⟩
  · rw [hskip]
    refine ⟨c, rfl, (truncateToHour_eq_some hc).1, le_trans (le_add_of_nonneg_right (by decide)) hle, by simp⟩
  · have hdvd := (truncateToHour_eq_some hc).1
    refine ⟨c, hcharges.snd hl hdvd hle, hdvd, le_trans (le_add_of_nonneg_right (by decide)) hle, fun call hcall => ?_⟩
    exact hcharges.range hl hdvd hle hcall

theorem processTick_later {owner : Uuid → Uuid}
    (howned : ∀ db, t.Finds db → ∀ r ∈ db.trades.rows, r.accountId = owner r.id) :
    (t.processTick (some l)).1.Pairwise SfdCall.Precedes := by
  rcases t.processTick_cases l with ⟨hkept, -⟩ | ⟨c, hc, hle, ⟨-, hskip⟩ | ⟨accounts, fxMid, spotMid, hcharges⟩⟩
  · rw [hkept]
    exact .nil
  · rw [hskip]
    exact .nil
  · rw [hcharges.step]
    exact applyPendingHours_later howned (listed_distinct hcharges.listed) _ _

theorem processTick_none : (t.processTick none).1 = [] ∧ (t.processTick none).2 = truncateToHour t.now := by
  unfold processTick
  cases truncateToHour t.now <;> exact ⟨rfl, rfl⟩

end SfdTick

/-- From the hour that a run remembers, no trade is called for twice, and every call is for a later hour. -/
theorem calls_later {owner : Uuid → Uuid} {ticks : List SfdTick}
    (howned : ∀ t ∈ ticks, ∀ db, t.Finds db → ∀ r ∈ db.trades.rows, r.accountId = owner r.id) :
    ∀ l, hour ∣ l → (sfdAccrual.outputs (some l) ticks).flatten.Pairwise SfdCall.Precedes ∧
      ∀ call ∈ (sfdAccrual.outputs (some l) ticks).flatten, l < call.eventAt := by
  induction ticks with
  | nil => exact fun l _ => ⟨.nil, by simp [Lib.Machine.outputs]⟩
  | cons t ticks ih =>
    intro l hl
    obtain ⟨l', hstep, hl', hle, hrange⟩ := SfdTick.processTick_advances (t := t) hl
    obtain ⟨hlater, hafter⟩ := ih (fun u hu => howned u (List.mem_cons_of_mem t hu)) l' hl'
    show ((t.processTick (some l)).1 ++ (sfdAccrual.outputs (t.processTick (some l)).2 ticks).flatten).Pairwise _ ∧ _
    rw [hstep, List.pairwise_append]
    refine ⟨⟨SfdTick.processTick_later (howned t List.mem_cons_self), hlater, fun c hc d hd _ => ?_⟩, fun c hc => ?_⟩
    · exact (hrange c hc).2.trans_lt (hafter d hd)
    · rw [Lib.Machine.outputs, List.flatten_cons, List.mem_append] at hc
      rcases hc with hc | hc
      · exact (hrange c hc).1
      · exact hle.trans_lt (hafter c (hstep ▸ hc))

theorem sfdCalls_precede {owner : Uuid → Uuid} {ticks : List SfdTick}
    (howned : ∀ t ∈ ticks, ∀ db, t.Finds db → ∀ r ∈ db.trades.rows, r.accountId = owner r.id) :
    (sfdCalls ticks).Pairwise SfdCall.Precedes := by
  induction ticks with
  | nil => exact .nil
  | cons t ticks ih =>
    have howned' := fun u hu => howned u (List.mem_cons_of_mem t hu)
    show ((t.processTick none).1 ++ (sfdAccrual.outputs (t.processTick none).2 ticks).flatten).Pairwise _
    rw [SfdTick.processTick_none.1, SfdTick.processTick_none.2, List.nil_append]
    rcases hc : truncateToHour t.now with _ | c
    · exact ih howned'
    · exact (calls_later howned' c (truncateToHour_eq_some hc).1).1

/-! ## Every hour once -/

section

variable {trade : Trade} {boundary : DateTime}

/-- An open trade is found by the reads that look for one. -/
theorem not_findsNothing {t : SfdTick} (hpair : trade.pair = "FX_BTC_JPY")
    (hopen : ∀ db, t.Finds db → OpenIn .bitflyerCfd trade db) : ¬t.FindsNothing := by
  rintro (⟨accounts, hlist, hnone⟩ | hzero)
  · obtain ⟨db, hdb, -⟩ := Lib.bind_eq_ok.mp hlist
    obtain ⟨a, hmem, hlive, hexchange, -⟩ := (hopen db (.inl hdb)).listed hlist hdb
    rw [hasPaperBitflyerAccount, List.any_eq_false] at hnone
    exact hnone a hmem (by simp [hlive, hexchange])
  · obtain ⟨db, hdb, hanswer⟩ := Lib.bind_eq_ok.mp hzero
    obtain ⟨⟨r, hr, hstatus, hterms⟩, a, ha, hlive, hexchange⟩ := hopen db (.inr (.inl hdb))
    have hempty := List.length_eq_zero_iff.mp (Except.ok.inj hanswer)
    refine List.filter_eq_nil_iff.mp hempty r (Lib.Table.find?_mem hr) ?_
    simp [hterms.accountId, ha, hstatus, hterms.pair, hpair, hlive, hexchange]

/-- While the trade stays open, an hour that no tick has caught up with is later than the remembered one. -/
theorem remembered_lt {ticks : List SfdTick} (hpair : trade.pair = "FX_BTC_JPY") (hentry : trade.entryAt ≤ boundary)
    (hopen : ∀ u ∈ ticks, trade.entryAt ≤ u.now → ∀ db, u.Finds db → OpenIn .bitflyerCfd trade db)
    (hearlier : ∀ u ∈ ticks, ∀ fx spot, u.CatchesUp fx spot → u.now < boundary) :
    ∀ l, hour ∣ l → l < boundary →
      ∃ l', sfdAccrual.after (some l) ticks = some l' ∧ hour ∣ l' ∧ l' < boundary := by
  induction ticks with
  | nil => exact fun l hl hlt => ⟨l, rfl, hl, hlt⟩
  | cons u ticks ih =>
    intro l hl hlt
    have hstep : ∃ l', (u.processTick (some l)).2 = some l' ∧ hour ∣ l' ∧ l' < boundary := by
      rcases u.processTick_cases l with ⟨hkept, -⟩ | ⟨c, hc, hle, ⟨hnothing, hskip⟩ | ⟨accounts, fx, spot, hcharges⟩⟩
      · exact ⟨l, by rw [hkept], hl, hlt⟩
      · obtain ⟨hdvd, hnow, -⟩ := truncateToHour_eq_some hc
        refine ⟨c, by rw [hskip], hdvd, ?_⟩
        by_contra hge
        have hafter : trade.entryAt ≤ u.now := (hentry.trans (not_lt.mp hge)).trans hnow
        exact not_findsNothing hpair (hopen u List.mem_cons_self hafter) hnothing
      · obtain ⟨hdvd, hnow, -⟩ := truncateToHour_eq_some hc
        refine ⟨c, hcharges.snd hl hdvd hle, hdvd, hnow.trans_lt ?_⟩
        exact hearlier u List.mem_cons_self fx spot
          ⟨by rw [hc]; rfl, ⟨accounts, hcharges.listed⟩, hcharges.counted, hcharges.priced⟩
    obtain ⟨l', hsome, hl', hlt'⟩ := hstep
    rw [Lib.Machine.after_cons]
    show ∃ l'', sfdAccrual.after (u.processTick (some l)).2 ticks = some l'' ∧ _
    rw [hsome]
    exact ih (fun v hv => hopen v (List.mem_cons_of_mem u hv)) (fun v hv => hearlier v (List.mem_cons_of_mem u hv))
      l' hl' hlt'

/-- The same from the start of a run, if its first tick is before the hour. -/
theorem remembered_lt_of_first {before after : List SfdTick} {t first : SfdTick} (hpair : trade.pair = "FX_BTC_JPY")
    (hentry : trade.entryAt ≤ boundary)
    (hopen : ∀ u ∈ before, trade.entryAt ≤ u.now → ∀ db, u.Finds db → OpenIn .bitflyerCfd trade db)
    (hearlier : ∀ u ∈ before, ∀ fx spot, u.CatchesUp fx spot → u.now < boundary)
    (hfirst : firstTick (before ++ t :: after) = some first) (hlt : first.now < boundary)
    (ht : (truncateToHour t.now).isSome) (hge : boundary ≤ t.now) :
    ∃ l, sfdAccrual.after none before = some l ∧ hour ∣ l ∧ l < boundary := by
  induction before with
  | nil =>
    simp only [List.nil_append, firstTick, List.find?_cons, ht, Option.some_inj] at hfirst
    exact absurd hlt (not_lt.mpr (hfirst ▸ hge))
  | cons u before ih =>
    rw [Lib.Machine.after_cons]
    show ∃ l, sfdAccrual.after (u.processTick none).2 before = some l ∧ _
    rw [SfdTick.processTick_none.2]
    rcases hc : truncateToHour u.now with _ | c
    · refine ih (fun v hv => hopen v (List.mem_cons_of_mem u hv))
        (fun v hv => hearlier v (List.mem_cons_of_mem u hv)) ?_
      rwa [List.cons_append, firstTick, List.find?_cons_of_neg (by simp [hc])] at hfirst
    · rw [List.cons_append, firstTick, List.find?_cons_of_pos (by simp [hc])] at hfirst
      obtain rfl := Option.some.inj hfirst
      obtain ⟨hdvd, hnow, -⟩ := truncateToHour_eq_some hc
      exact remembered_lt hpair hentry (fun v hv => hopen v (List.mem_cons_of_mem u hv))
        (fun v hv => hearlier v (List.mem_cons_of_mem u hv)) c hdvd (hnow.trans_lt hlt)

/-- What the call for an open trade comes to. -/
theorem sfdOutcome_eq_due {t : SfdTick} {lh : DateTime} {fxMid spotMid : Decimal} {found : Trade} {db : Db}
    (hpair : trade.pair = "FX_BTC_JPY") (hentry : trade.entryAt ≤ lh + hour)
    (hfee : t.fees (lh + hour) trade.id = .ok db)
    (hopen : OpenIn .bitflyerCfd trade db) (hterms : SameTerms found trade) :
    t.sfdOutcome trade.accountId found lh fxMid spotMid = sfdDue trade fxMid spotMid := by
  unfold SfdTick.sfdOutcome sfdDue
  rw [hterms.pair, hpair, hterms.entryPrice, hterms.quantity, hterms.direction, hterms.entryAt]
  dsimp only
  generalize computeHourlySfd _ = fee
  obtain ⟨balance, happlied⟩ := hopen.charged fee .sfdFee (some (lh + hour))
  have happly : t.applyFee trade.accountId found.id fee (lh + hour) = .ok (some balance) := by
    rw [SfdTick.applyFee, hterms.id, hfee]
    exact happlied
  have hnot : ¬trade.entryAt > lh + hour := not_lt.mpr hentry
  rw [happly]
  simp [tradeIsSubjectToBitflyerSfd, hnot]

/-- The tick that catches up with an hour calls for it, if it is not 24 hours late. -/
theorem exists_call {t : SfdTick} {l : DateTime} {fxMid spotMid : Decimal} (hpair : trade.pair = "FX_BTC_JPY")
    (hdvd : hour ∣ boundary) (hentry : trade.entryAt ≤ boundary)
    (hfound : ∀ db, t.Finds db → OpenIn .bitflyerCfd trade db)
    (hlisted : ∀ lh, ∃ db, t.openTrades lh trade.accountId = .ok db)
    (hfee : ∀ eventAt, ∃ db, t.fees eventAt trade.id = .ok db) (ht : t.CatchesUp fxMid spotMid) (hl : hour ∣ l)
    (hlt : l < boundary) (hle : boundary ≤ t.now) (hin : t.now < boundary + 24 * hour) :
    ∃ call ∈ (t.processTick (some l)).1, call.trade.id = trade.id ∧ call.eventAt = boundary ∧
      call.outcome = sfdDue trade fxMid spotMid := by
  obtain ⟨c₀, hc₀⟩ := Option.isSome_iff_exists.mp ht.1
  obtain ⟨hdvd₀, hle₀, hlt₀⟩ := truncateToHour_eq_some hc₀
  have hreached : boundary ≤ c₀ := hour_le_of_lt hdvd hdvd₀ (hle.trans_lt hlt₀)
  have hpending : l + hour ≤ c₀ := (hour_add_le hl hdvd hlt).trans hreached
  have hafter := hentry.trans hle
  rcases t.processTick_cases l with ⟨-, hkept⟩ | ⟨c, hc, -, ⟨hnothing, -⟩ | ⟨accounts, fx, spot, hcharges⟩⟩
  · exact absurd (hkept c₀ fxMid spotMid hc₀ ht) (not_lt.mpr hpending)
  · exact absurd hnothing (not_findsNothing hpair hfound)
  · obtain rfl : c₀ = c := Option.some.inj (hc₀.symm.trans hc)
    obtain ⟨rfl, rfl⟩ : fx = fxMid ∧ spot = spotMid := by
      have hprices := hcharges.priced.symm.trans ht.2.2.2
      simpa using hprices
    obtain ⟨-, hlow, -, hend, hclamped⟩ := clampCatchUp_spec hl hdvd₀ hpending
    have hstart : (clampCatchUp l c₀).1 < boundary := by
      rcases hclamped with hkeep | hdrop
      · rwa [hkeep]
      · rw [hdrop]
        exact sub_lt_iff_lt_add.mpr (hle₀.trans_lt hin)
    obtain ⟨k, hk, hat⟩ := exists_hour_index hlow hdvd hend hstart hreached
    -- The account is listed, and the trade is among its open trades in this hour.
    obtain ⟨dbAccounts, hdbAccounts, -⟩ := Lib.bind_eq_ok.mp hcharges.listed
    obtain ⟨pac, hpac, hlive, hexchange, hpacId⟩ :=
      (hfound dbAccounts (.inl hdbAccounts)).listed hcharges.listed hdbAccounts
    obtain ⟨dbTrades, hdbTrades⟩ := hlisted ((clampCatchUp l c₀).1 + k * hour)
    obtain ⟨trades, htrades, found, hfoundMem, hterms⟩ :=
      (hfound dbTrades (.inr (.inr (.inl ⟨_, _, hdbTrades⟩)))).found hdbTrades
    obtain ⟨dbFee, hdbFee⟩ := hfee boundary
    refine ⟨t.applySfdToTrade pac.id found ((clampCatchUp l c₀).1 + k * hour) fx spot, ?_, hterms.id, hat, ?_⟩
    · rw [hcharges.step]
      refine SfdTick.mem_applyPendingHours.mpr ⟨k, hk, pac, hpac, ?_⟩
      rw [SfdTick.applySfdToAccount, hlive, if_neg Bool.false_ne_true, if_neg (not_not.mpr hexchange), hpacId, htrades]
      exact List.mem_map_of_mem hfoundMem
    · rw [SfdTick.applySfdToTrade, hpacId]
      rw [← hat] at hentry hdbFee
      exact sfdOutcome_eq_due hpair hentry hdbFee (hfound dbFee (.inr (.inr (.inr ⟨_, _, hdbFee⟩)))) hterms

end

/-- A trade is never called for twice, and every hour that is not 24 hours late is charged once. -/
theorem hours_charged_once (run : SfdRun) :
    NeverTwice run.ticks ∧ ChargedOnce (fun boundary now => now < boundary + 24 * hour) run.ticks := by
  have hprecede := sfdCalls_precede run.owned
  refine ⟨fun id => ?_, ?_⟩
  · rw [List.pairwise_filter]
    exact hprecede.imp fun h hc hd => h ((of_decide_eq_true hc).trans (of_decide_eq_true hd).symm)
  · rintro trade boundary hpair hopen hdvd hentry ⟨first, hfirst, hstarted⟩ before t after fxMid spotMid hticks ht hle
      hearlier hin
    have hbefore : ∀ u ∈ before, u ∈ run.ticks := fun u hu => hticks ▸ List.mem_append_left _ hu
    have hmem : t ∈ run.ticks := hticks ▸ List.mem_append_right _ List.mem_cons_self
    have hnow := hentry.trans hle
    obtain ⟨l, hl, hldvd, hlt⟩ := remembered_lt_of_first hpair hentry
      (fun u hu hafter => hopen.found u (hbefore u hu) hafter) hearlier (hticks ▸ hfirst) hstarted ht.1 hle
    obtain ⟨call, hcall, hid, hat, houtcome⟩ := exists_call hpair hdvd hentry (hopen.found t hmem hnow)
      (hopen.listed t hmem hnow) (hopen.charged t hmem hnow) ht hldvd hlt hle hin
    have hcalled : call ∈ sfdCalls run.ticks := by
      rw [hticks, sfdCalls, Lib.Machine.outputs_append, List.flatten_append, List.mem_append, hl]
      exact .inr (List.mem_append_left _ hcall)
    refine ⟨call, ?_, houtcome⟩
    rw [← hid, ← hat]
    exact Lib.Ascending.filter_eq_singleton Int.lt_irrefl (sfdCalls_precede run.owned) hcalled

/-! ## An hour that is 24 hours late -/

/-- The sample position, open in a paper account. -/
def samplePaperDb : Db :=
  { sampleOpenDb with accounts := ⟨[{ sampleAccount with live := false, currentBalance := 980 }], by decide⟩ }

/-- A tick that finds the open position of the sample, and prices 10 percent apart. -/
def sampleSfdTick (now : DateTime) : SfdTick where
  now
  accounts := .ok samplePaperDb
  count := .ok samplePaperDb
  fxAge := some 0
  spotAge := some 0
  fxBidAsk := some (110, 110)
  spotBidAsk := some (100, 100)
  openTrades _ _ := .ok samplePaperDb
  fees _ _ := .ok samplePaperDb

/-- Half an hour after midnight, and one hour after the next midnight to the second. -/
def sampleLateRun : SfdRun where
  ticks := [sampleSfdTick (seconds 1800), sampleSfdTick (25 * hour)]
  owner _ := 1
  owned := by
    intro t ht db hdb r hr
    have hsame : db = samplePaperDb := by
      simp only [List.mem_cons, List.not_mem_nil, or_false] at ht
      rcases ht with rfl | rfl <;> simpa [SfdTick.Finds, sampleSfdTick, eq_comm] using hdb
    rw [hsame] at hr
    obtain rfl := List.mem_singleton.mp hr
    rfl

/-- The hour from midnight to one is 24 hours late at the second tick, and is not charged. -/
theorem sampleLateRun_dropped :
    ¬ChargedOnce (fun boundary now => now ≤ boundary + 24 * hour) sampleLateRun.ticks := by
  intro h
  have hfound : ∀ t ∈ sampleLateRun.ticks, ∀ db, t.Finds db → db = samplePaperDb := by
    intro t ht db hdb
    simp only [sampleLateRun, List.mem_cons, List.not_mem_nil, or_false] at ht
    rcases ht with rfl | rfl <;> simpa [SfdTick.Finds, sampleSfdTick, eq_comm] using hdb
  have hopen : StaysOpen sampleTrade.toTrade sampleLateRun.ticks := by
    refine ⟨fun t ht _ db hdb => ?_, fun t ht _ lh => ?_, fun t ht _ eventAt => ?_⟩
    · rw [hfound t ht db hdb]
      exact ⟨⟨sampleTrade, rfl, rfl, ⟨rfl, rfl, rfl, rfl, rfl, rfl, rfl⟩⟩, _, rfl, rfl, rfl⟩
    all_goals
      simp only [sampleLateRun, List.mem_cons, List.not_mem_nil, or_false] at ht
      rcases ht with rfl | rfl <;> exact ⟨samplePaperDb, rfl⟩
  have hearlier : ∀ u ∈ [sampleSfdTick (seconds 1800)], ∀ fx spot, u.CatchesUp fx spot → u.now < hour := by
    rintro u hu fx spot -
    rw [List.mem_singleton.mp hu]
    decide
  obtain ⟨call, hcall, -⟩ := h sampleTrade.toTrade hour rfl hopen dvd_rfl (by decide)
    ⟨sampleSfdTick (seconds 1800), rfl, by decide⟩ [sampleSfdTick (seconds 1800)] (sampleSfdTick (25 * hour)) [] 110 100
    rfl ⟨by decide, ⟨_, rfl⟩, ⟨_, rfl⟩, by decide +kernel⟩ (by decide) hearlier (by decide)
  have hnone : (sfdCalls sampleLateRun.ticks).filter
      (fun c => c.trade.id = sampleTrade.id ∧ c.eventAt = hour) = [] := by
    decide +kernel
  exact absurd (hcall.symm.trans hnone) (by simp)

end AutoTrader
