import AutoTrader.App.Overnight
import AutoTrader.Executor.Play
import AutoTrader.Lib.Ascending

/-!
# Overnight fees and the calendar

What a run of the overnight task charges a trade for. If every date that is processed is the day after the one that is
remembered, the reads of that look succeed and find no trade that was entered after the midnight, and no midnight is
between the entry of a trade and the start of the run, then each midnight from the entry of a trade to the last reading
is charged once, and no other is (`fees_follow_calendar`). A day that is skipped is never charged, a day that the clock
steps back to is charged again, and a midnight is charged to a trade that was entered between it and the reading
(`sampleClock_breaks_calendar`).
-/

namespace AutoTrader

/-! ## Runs -/

/-- A tick finds the database in this state at one of its reads. -/
def OvernightTick.Finds (t : OvernightTick) (db : Db) : Prop :=
  t.accounts = .ok db ∨ (∃ accountId, t.openTrades accountId = .ok db) ∨ ∃ tradeId, t.fees tradeId = .ok db

/-- The looks of a run that starts at this time. Every trade stays with its account, whatever others write. -/
structure OvernightRun where
  start : DateTime
  ticks : List OvernightTick
  owner : Uuid → Uuid
  owned : ∀ t ∈ ticks, ∀ db, t.Finds db → ∀ r ∈ db.trades.rows, r.accountId = owner r.id

/-- The trade is open in a paper account at every tick after its entry. -/
def HeldOver (exchange : Exchange) (trade : Trade) (ticks : List OvernightTick) : Prop :=
  ∀ t ∈ ticks, trade.entryAt ≤ t.now → ∀ db, t.Finds db → OpenIn exchange trade db

/-- What a midnight costs the trade. -/
def overnightDue (swapConfig : GmoFxSwapConfig) (exchange : Exchange) (trade : Trade) : OvernightOutcome :=
  match computeFee exchange trade swapConfig with
  | none => .noRate
  | some fee => if fee = 0 then .zeroFee else .charged fee

section

variable (swapConfig : GmoFxSwapConfig) (start : DateTime) (ticks : List OvernightTick)

/-- The calls of a run. -/
def overnightCalls : List OvernightCall := ((overnight swapConfig).outputs start.dateNaive ticks).flatten

/-- The calls for a trade and the midnight of a date. -/
def callsFor (id : Uuid) (date : NaiveDate) : List OvernightCall :=
  (overnightCalls swapConfig start ticks).filter fun c => c.trade.id = id ∧ c.eventAt = day date

/-- No midnight is charged twice, none is charged to a trade that was entered after it, and every midnight from the
entry of a trade that stays open up to the last reading is charged once. -/
structure FollowsCalendar : Prop where
  once : ∀ id date, (callsFor swapConfig start ticks id date).length ≤ 1
  entered : ∀ call ∈ overnightCalls swapConfig start ticks, ∀ fee, call.outcome = .charged fee →
    call.trade.entryAt ≤ call.eventAt
  charged : ∀ exchange trade date, overnightFeeAppliesToExchange exchange → HeldOver exchange trade ticks →
    trade.entryAt ≤ day date → (∃ last ∈ ticks.getLast?, date ≤ last.today) →
    ∃ call, callsFor swapConfig start ticks trade.id date = [call] ∧
      call.outcome = overnightDue swapConfig exchange trade

end

/-- The accounts can be listed. -/
def OvernightTick.Lists (t : OvernightTick) : Prop := ∃ accounts, t.listAccounts = .ok accounts

/-- The open trades of every paper account that is charged can be read, and the fee of every trade that is read there
is answered for. -/
structure OvernightTick.Answers (t : OvernightTick) : Prop where
  openTrades : ∀ accounts, t.listAccounts = .ok accounts → ∀ pac ∈ accounts, (resolveOvernightFeeExchange pac).isSome →
    ∃ db, t.openTrades pac.id = .ok db
  fees : ∀ accountId trades, t.listOpenTrades accountId = .ok trades → ∀ trade ∈ trades, ∃ db, t.fees trade.id = .ok db

/-- Every open trade that is read in a paper account that is charged was entered no later than the midnight of the
date. -/
def OvernightTick.EnteredBefore (t : OvernightTick) : Prop :=
  ∀ accounts, t.listAccounts = .ok accounts → ∀ pac ∈ accounts, (resolveOvernightFeeExchange pac).isSome →
    ∀ trades, t.listOpenTrades pac.id = .ok trades → ∀ trade ∈ trades, trade.entryAt ≤ day t.today

/-- Every date that differs from the remembered one when the accounts can be listed is the day after it, and the reads
of that look succeed and find no trade that was entered after the midnight. -/
def DayByDay (swapConfig : GmoFxSwapConfig) (lastDate : NaiveDate) (ticks : List OvernightTick) : Prop :=
  ∀ before t, before ++ [t] <+: ticks → t.Lists → t.today ≠ (overnight swapConfig).after lastDate before →
    t.today = (overnight swapConfig).after lastDate before + 1 ∧ t.Answers ∧ t.EnteredBefore

/-- No midnight is between the entry of an open trade that is found and the start of the run. -/
def EnteredSince (start : DateTime) (ticks : List OvernightTick) : Prop :=
  ∀ t ∈ ticks, ∀ db, t.Finds db → ∀ exchange trade, overnightFeeAppliesToExchange exchange →
    OpenIn exchange trade db → day start.dateNaive < trade.entryAt

/-! ## One look -/

namespace OvernightTick

variable {t : OvernightTick} {swapConfig : GmoFxSwapConfig} {lastDate : NaiveDate}

theorem look_cases (t : OvernightTick) (swapConfig : GmoFxSwapConfig) (lastDate : NaiveDate) :
    t.look swapConfig lastDate = ([], lastDate) ∧ (t.Lists → t.today = lastDate) ∨
      ∃ accounts, t.listAccounts = .ok accounts ∧ t.today ≠ lastDate ∧
        t.look swapConfig lastDate = (accounts.flatMap (t.applyFeesToAccount swapConfig (day t.today)), t.today) := by
  unfold look processDateChange
  by_cases hsame : t.today = lastDate
  · exact .inl ⟨if_pos hsame, fun _ => hsame⟩
  · rw [if_neg hsame]
    rcases hlist : t.listAccounts with e | accounts
    · refine .inl ⟨rfl, fun ⟨accounts, hok⟩ => ?_⟩
      cases hlist.symm.trans hok
    · exact .inr ⟨accounts, rfl, hsame, rfl⟩

theorem today_eq_of_lists (h : t.Lists) : (t.look swapConfig lastDate).2 = t.today := by
  rcases t.look_cases swapConfig lastDate with ⟨hkept, hsame⟩ | ⟨accounts, -, -, hlook⟩
  · rw [hkept, hsame h]
  · rw [hlook]

theorem day_today_le (t : OvernightTick) : day t.today ≤ t.now := by
  have hin : inDay t.today t.now := inDay_iff.mpr rfl
  exact (of_decide_eq_true hin).1

theorem eventAt_of_mem {eventAt : DateTime} {pac : TradingAccount} {c : OvernightCall}
    (h : c ∈ t.applyFeesToAccount swapConfig eventAt pac) : c.eventAt = eventAt := by
  unfold applyFeesToAccount at h
  split at h
  · exact absurd h List.not_mem_nil
  · split at h
    · exact absurd h List.not_mem_nil
    · obtain ⟨trade, -, rfl⟩ := List.mem_map.mp h
      rfl

/-- The calls for an account are for trades of the account, each of them once. -/
theorem applyFeesToAccount_trades {owner : Uuid → Uuid} {eventAt : DateTime} {pac : TradingAccount}
    (howned : ∀ db, t.Finds db → ∀ r ∈ db.trades.rows, r.accountId = owner r.id) :
    (t.applyFeesToAccount swapConfig eventAt pac).Pairwise (fun c d => c.trade.id ≠ d.trade.id) ∧
      ∀ c ∈ t.applyFeesToAccount swapConfig eventAt pac, owner c.trade.id = pac.id := by
  unfold applyFeesToAccount
  split
  · simp
  · split
    · simp
    · rename_i trades htrades
      refine ⟨List.pairwise_map.mpr (open_distinct htrades), fun c hc => ?_⟩
      obtain ⟨trade, htrade, rfl⟩ := List.mem_map.mp hc
      exact open_owned (fun db hdb => howned db (.inr (.inl ⟨pac.id, hdb⟩))) htrades htrade

theorem look_ascending {owner : Uuid → Uuid}
    (howned : ∀ db, t.Finds db → ∀ r ∈ db.trades.rows, r.accountId = owner r.id) :
    Lib.Ascending (fun c : OvernightCall => c.trade.id) OvernightCall.eventAt (t.look swapConfig lastDate).1 := by
  rcases t.look_cases swapConfig lastDate with ⟨hkept, -⟩ | ⟨accounts, hlist, -, hlook⟩
  · rw [hkept]
    exact Lib.ascending_nil
  · rw [hlook]
    apply Lib.ascending_of_keys
    exact calls_distinct (listed_distinct hlist) fun pac => applyFeesToAccount_trades howned

/-- All calls of a look are for the midnight of the date that is remembered next. -/
theorem eventAt_of_look {c : OvernightCall} (h : c ∈ (t.look swapConfig lastDate).1) :
    c.eventAt = day (t.look swapConfig lastDate).2 ∧ (t.look swapConfig lastDate).2 = t.today ∧ t.today ≠ lastDate ∧
      t.Lists := by
  rcases t.look_cases swapConfig lastDate with ⟨hkept, -⟩ | ⟨accounts, hlist, hne, hlook⟩
  · rw [hkept] at h
    exact absurd h List.not_mem_nil
  · rw [hlook] at h ⊢
    obtain ⟨pac, -, hc⟩ := List.mem_flatMap.mp h
    exact ⟨eventAt_of_mem hc, rfl, hne, accounts, hlist⟩

/-- A look that finds no trade entered after the midnight calls for none. -/
theorem entered_of_look {c : OvernightCall} (hentered : t.EnteredBefore) (h : c ∈ (t.look swapConfig lastDate).1) :
    c.trade.entryAt ≤ c.eventAt := by
  rcases t.look_cases swapConfig lastDate with ⟨hkept, -⟩ | ⟨accounts, hlist, -, hlook⟩
  · rw [hkept] at h
    exact absurd h List.not_mem_nil
  · rw [hlook] at h
    obtain ⟨pac, hpac, hc⟩ := List.mem_flatMap.mp h
    unfold applyFeesToAccount at hc
    split at hc
    · exact absurd hc List.not_mem_nil
    · rename_i exchange hresolve
      split at hc
      · exact absurd hc List.not_mem_nil
      · rename_i trades htrades
        obtain ⟨trade, htrade, rfl⟩ := List.mem_map.mp hc
        exact hentered accounts hlist pac hpac (hresolve ▸ rfl) trades htrades trade htrade

/-- What the call for an open trade comes to. -/
theorem overnightOutcome_eq_due {exchange : Exchange} {trade found : Trade} {eventAt : DateTime} {db : Db}
    (happlies : overnightFeeAppliesToExchange exchange) (hfee : t.fees found.id = .ok db)
    (hopen : OpenIn exchange trade db) (hterms : SameTerms found trade) :
    t.overnightOutcome swapConfig exchange eventAt trade.accountId found = overnightDue swapConfig exchange trade := by
  have hcompute : computeFee exchange found swapConfig = computeFee exchange trade swapConfig := by
    unfold computeFee
    rw [hterms.pair, hterms.entryPrice, hterms.quantity, hterms.direction]
  have happlied : ∀ fee, ∃ balance,
      t.applyFee exchange trade.accountId found.id fee eventAt = .ok (some balance) := by
    intro fee
    unfold applyFee
    rw [hfee, hterms.id]
    rcases exchange with _ | _ | _
    · exact absurd happlies Bool.false_ne_true
    · exact hopen.charged fee .overnightFee none
    · exact hopen.charged fee .swapFee (some eventAt)
  unfold overnightOutcome overnightDue
  rw [hcompute]
  rcases computeFee exchange trade swapConfig with _ | fee
  · rfl
  · obtain ⟨balance, hok⟩ := happlied fee
    simp only [hok]

/-- The look that processes a date calls for every trade that is open, and charges what is due. -/
theorem exists_call {exchange : Exchange} {trade : Trade} (happlies : overnightFeeAppliesToExchange exchange)
    (hopen : ∀ db, t.Finds db → OpenIn exchange trade db) (hlists : t.Lists) (hne : t.today ≠ lastDate)
    (hanswers : t.Answers) : ∃ call ∈ (t.look swapConfig lastDate).1, call.trade.id = trade.id ∧
      call.eventAt = day t.today ∧ call.outcome = overnightDue swapConfig exchange trade := by
  rcases t.look_cases swapConfig lastDate with ⟨-, hsame⟩ | ⟨accounts, hlist, -, hlook⟩
  · exact absurd (hsame hlists) hne
  · -- The account is listed, and the trade is among its open trades.
    obtain ⟨dbAccounts, hdbAccounts, -⟩ := Lib.bind_eq_ok.mp hlist
    obtain ⟨pac, hpac, hlive, hexchange, hid⟩ := (hopen dbAccounts (.inl hdbAccounts)).listed hlist hdbAccounts
    have hresolve : resolveOvernightFeeExchange pac = some exchange := by
      simp [resolveOvernightFeeExchange, hlive, hexchange, happlies]
    obtain ⟨dbTrades, hdbTrades⟩ := hanswers.openTrades accounts hlist pac hpac (hresolve ▸ rfl)
    rw [hid] at hdbTrades
    obtain ⟨trades, htrades, found, hfound, hterms⟩ :
        ∃ trades, t.listOpenTrades trade.accountId = .ok trades ∧ ∃ found ∈ trades, SameTerms found trade :=
      (hopen dbTrades (.inr (.inl ⟨trade.accountId, hdbTrades⟩))).found hdbTrades
    obtain ⟨dbFee, hdbFee⟩ := hanswers.fees trade.accountId trades htrades found hfound
    refine ⟨t.applyFeeToTrade swapConfig exchange (day t.today) pac.id found, ?_, hterms.id, rfl, ?_⟩
    · rw [hlook]
      refine List.mem_flatMap.mpr ⟨pac, hpac, ?_⟩
      unfold applyFeesToAccount
      rw [hresolve, hid]
      simp only [htrades]
      exact List.mem_map_of_mem hfound
    · rw [applyFeeToTrade, hid]
      exact overnightOutcome_eq_due happlies hdbFee (hopen dbFee (.inr (.inr ⟨found.id, hdbFee⟩))) hterms

end OvernightTick

/-! ## Day by day -/

section

variable {swapConfig : GmoFxSwapConfig} {lastDate : NaiveDate} {t : OvernightTick} {ticks : List OvernightTick}

theorem DayByDay.of_prefix {upto : List OvernightTick} (h : DayByDay swapConfig lastDate ticks)
    (hupto : upto <+: ticks) :
    DayByDay swapConfig lastDate upto :=
  fun before t hbefore => h before t (hbefore.trans hupto)

theorem dayByDay_cons : DayByDay swapConfig lastDate (t :: ticks) ↔
    (t.Lists → t.today ≠ lastDate → t.today = lastDate + 1 ∧ t.Answers ∧ t.EnteredBefore) ∧
      DayByDay swapConfig (t.look swapConfig lastDate).2 ticks := by
  constructor
  · exact fun h => ⟨h [] t (by simp),
      fun before u hbefore => h (t :: before) u (List.cons_prefix_cons.mpr ⟨rfl, hbefore⟩)⟩
  · rintro ⟨hfirst, hrest⟩ before u hbefore
    rcases before with _ | ⟨v, before⟩
    · obtain rfl : u = t := (List.cons_prefix_cons.mp hbefore).1
      exact hfirst
    · obtain ⟨rfl, hupto⟩ := List.cons_prefix_cons.mp hbefore
      exact hrest before u hupto

/-- The first look keeps the remembered date or moves to the day after it, and the others go on from there. -/
theorem DayByDay.cons (h : DayByDay swapConfig lastDate (t :: ticks)) :
    ((t.look swapConfig lastDate).2 = lastDate ∧ (t.look swapConfig lastDate).1 = [] ∨
      (t.look swapConfig lastDate).2 = lastDate + 1 ∧ t.today = lastDate + 1 ∧ t.Lists ∧ t.Answers) ∧
      DayByDay swapConfig (t.look swapConfig lastDate).2 ticks := by
  obtain ⟨hfirst, hrest⟩ := dayByDay_cons.mp h
  refine ⟨?_, hrest⟩
  rcases t.look_cases swapConfig lastDate with ⟨hkept, -⟩ | ⟨accounts, hlist, hne, hlook⟩
  · rw [hkept]
    exact .inl ⟨rfl, rfl⟩
  · obtain ⟨htoday, hanswers, -⟩ := hfirst ⟨accounts, hlist⟩ hne
    rw [hlook]
    exact .inr ⟨htoday, htoday, ⟨accounts, hlist⟩, hanswers⟩

theorem day_lt_day {a b : Int} (h : a < b) : day a < day b := by
  show 86400 * a * 1000000 < 86400 * b * 1000000
  omega

theorem lt_of_day_lt_day {a b : Int} (h : day a < day b) : a < b := by
  have h : 86400 * a * 1000000 < 86400 * b * 1000000 := h
  omega

/-- No trade is called for twice for one midnight, and all midnights are after the remembered date. -/
theorem calls_ascending {owner : Uuid → Uuid}
    (howned : ∀ t ∈ ticks, ∀ db, t.Finds db → ∀ r ∈ db.trades.rows, r.accountId = owner r.id)
    (h : DayByDay swapConfig lastDate ticks) :
    Lib.Ascending (fun c : OvernightCall => c.trade.id) OvernightCall.eventAt
        ((overnight swapConfig).outputs lastDate ticks).flatten ∧
      ∀ c ∈ ((overnight swapConfig).outputs lastDate ticks).flatten, day lastDate < c.eventAt := by
  induction ticks generalizing lastDate with
  | nil => exact ⟨Lib.ascending_nil, by simp [Lib.Machine.outputs]⟩
  | cons t ticks ih =>
    obtain ⟨hlook, hrest⟩ := h.cons
    obtain ⟨hascending, hlater⟩ := ih (fun u hu => howned u (List.mem_cons_of_mem t hu)) hrest
    show Lib.Ascending _ _ ((t.look swapConfig lastDate).1 ++ _) ∧
      ∀ c ∈ (t.look swapConfig lastDate).1 ++ _, day lastDate < c.eventAt
    refine ⟨Lib.ascending_append (OvernightTick.look_ascending (howned t List.mem_cons_self)) hascending ?_,
      fun c hc => ?_⟩
    · intro c hc d hd
      rw [(OvernightTick.eventAt_of_look hc).1]
      exact hlater d hd
    rcases hlook with ⟨hsame, hnone⟩ | ⟨hnext, -⟩
    · rw [hnone, List.nil_append] at hc
      exact hsame ▸ hlater c hc
    · have hlt : day lastDate < day (t.look swapConfig lastDate).2 := day_lt_day (hnext ▸ Int.lt_succ lastDate)
      rcases List.mem_append.mp hc with hc | hc
      · rwa [(OvernightTick.eventAt_of_look hc).1]
      · exact hlt.trans (hlater c hc)

/-- A call of a run is one of a look that processes a date. -/
theorem entered_of_call (h : DayByDay swapConfig lastDate ticks) {c : OvernightCall}
    (hc : c ∈ ((overnight swapConfig).outputs lastDate ticks).flatten) : c.trade.entryAt ≤ c.eventAt := by
  induction ticks generalizing lastDate with
  | nil => exact absurd hc List.not_mem_nil
  | cons t ticks ih =>
    obtain ⟨hfirst, hrest⟩ := dayByDay_cons.mp h
    have hc : c ∈ (t.look swapConfig lastDate).1 ++
        ((overnight swapConfig).outputs (t.look swapConfig lastDate).2 ticks).flatten := hc
    rcases List.mem_append.mp hc with hc | hc
    · obtain ⟨-, -, hne, hlists⟩ := OvernightTick.eventAt_of_look hc
      exact OvernightTick.entered_of_look (hfirst hlists hne).2.2 hc
    · exact ih hrest hc

/-- Every date up to the remembered one has been processed by a look. -/
theorem exists_processed (h : DayByDay swapConfig lastDate ticks) {date : NaiveDate} (hlt : lastDate < date)
    (hle : date ≤ (overnight swapConfig).after lastDate ticks) :
    ∃ before t after, ticks = before ++ t :: after ∧ t.today = date ∧
      t.today ≠ (overnight swapConfig).after lastDate before ∧ t.Lists ∧ t.Answers := by
  induction ticks generalizing lastDate with
  | nil => exact absurd hle (not_le.mpr hlt)
  | cons t ticks ih =>
    obtain ⟨hlook, hrest⟩ := h.cons
    have hlater (hlt' : (t.look swapConfig lastDate).2 < date) : ∃ before u after, t :: ticks = before ++ u :: after ∧
        u.today = date ∧ u.today ≠ (overnight swapConfig).after lastDate before ∧ u.Lists ∧ u.Answers := by
      obtain ⟨before, u, after, hticks, hu⟩ := ih hrest hlt' hle
      exact ⟨t :: before, u, after, by rw [hticks]; rfl, hu⟩
    rcases hlook with ⟨hsame, -⟩ | ⟨hnext, htoday, hlists, hanswers⟩
    · exact hlater (hsame.symm ▸ hlt)
    · by_cases hdate : date = lastDate + 1
      · refine ⟨[], t, ticks, rfl, htoday.trans hdate.symm, ?_, hlists, hanswers⟩
        rw [Lib.Machine.after_nil, htoday]
        exact (Int.lt_succ lastDate).ne'
      · apply hlater
        rw [hnext]
        exact lt_of_le_of_ne (Int.add_one_le_of_lt hlt) (Ne.symm hdate)

/-- Where the accounts can be listed, the date that is read is remembered. -/
theorem after_eq_today {last : OvernightTick} (hlast : last ∈ ticks.getLast?) (hlists : last.Lists) :
    (overnight swapConfig).after lastDate ticks = last.today := by
  obtain ⟨before, rfl⟩ := List.getLast?_eq_some_iff.mp hlast
  rw [Lib.Machine.after_concat]
  exact OvernightTick.today_eq_of_lists hlists

/-- A trade that is there when the date is read was entered after the midnight of the day the run started on. -/
theorem EnteredSince.lt_entryAt {start : DateTime} {exchange : Exchange} {trade : Trade} {date : NaiveDate}
    {last : OvernightTick} (h : EnteredSince start ticks) (happlies : overnightFeeAppliesToExchange exchange)
    (hheld : HeldOver exchange trade ticks) (hentry : trade.entryAt ≤ day date) (hlast : last ∈ ticks)
    (hlists : last.Lists) (hdate : date ≤ last.today) : day start.dateNaive < trade.entryAt := by
  obtain ⟨accounts, hlist⟩ := hlists
  obtain ⟨db, hdb, -⟩ := Lib.bind_eq_ok.mp hlist
  have hle : day date ≤ day last.today := by
    rcases eq_or_lt_of_le hdate with rfl | hlt
    · exact le_refl _
    · exact le_of_lt (day_lt_day hlt)
  have hopen := hheld last hlast (hentry.trans (hle.trans last.day_today_le)) db (.inl hdb)
  exact h last hlast db (.inl hdb) exchange trade happlies hopen

end

/-- Every midnight after the start of the run, and not before the entry of a trade that stays open, is charged once,
also where the trade was entered before the day of the start. -/
theorem charged_after_start (swapConfig : GmoFxSwapConfig) (run : OvernightRun) {ticks : List OvernightTick}
    (h : DayByDay swapConfig run.start.dateNaive ticks) (hticks : ticks <+: run.ticks) {exchange : Exchange}
    {trade : Trade} {date : NaiveDate} (happlies : overnightFeeAppliesToExchange exchange)
    (hheld : HeldOver exchange trade ticks) (hentry : trade.entryAt ≤ day date) (hstart : run.start.dateNaive < date)
    (hreading : date ≤ (overnight swapConfig).after run.start.dateNaive ticks) :
    ∃ call, callsFor swapConfig run.start ticks trade.id date = [call] ∧
      call.outcome = overnightDue swapConfig exchange trade := by
  obtain ⟨hascending, -⟩ := calls_ascending (fun t ht => run.owned t (hticks.subset ht)) h
  obtain ⟨before, t, after, rfl, htoday, hne, htlists, hanswers⟩ := exists_processed h hstart hreading
  have hnow : trade.entryAt ≤ t.now := hentry.trans (htoday ▸ t.day_today_le)
  obtain ⟨call, hcall, hid, hat, hdue⟩ := OvernightTick.exists_call happlies
    (hheld t (List.mem_append_right _ List.mem_cons_self) hnow) htlists hne hanswers
  refine ⟨call, ?_, hdue⟩
  have hmem : call ∈ overnightCalls swapConfig run.start (before ++ t :: after) := by
    rw [overnightCalls, Lib.Machine.outputs_append, List.flatten_append, List.mem_append]
    exact .inr (List.mem_append_left _ hcall)
  have halone := hascending.filter_eq_singleton Int.lt_irrefl hmem
  rw [hid, hat, htoday] at halone
  exact halone

/-- Where each date is processed the day after the one before, and no trade was entered before the day of the start or
after the midnight that it is charged for, the fees follow the calendar. -/
theorem fees_follow_calendar (swapConfig : GmoFxSwapConfig) (run : OvernightRun)
    (h : DayByDay swapConfig run.start.dateNaive run.ticks) (hsince : EnteredSince run.start run.ticks)
    (ticks : List OvernightTick) (hticks : ticks <+: run.ticks) (hlists : ∀ t ∈ ticks.getLast?, t.Lists) :
    FollowsCalendar swapConfig run.start ticks := by
  have hday := h.of_prefix hticks
  obtain ⟨hascending, -⟩ := calls_ascending (fun t ht => run.owned t (hticks.subset ht)) hday
  refine ⟨fun id date => hascending.length_filter_le Int.lt_irrefl id (day date),
    fun call hcall _ _ => entered_of_call hday hcall, ?_⟩
  rintro exchange trade date happlies hheld hentry ⟨last, hlast, hreading⟩
  have hsince : EnteredSince run.start ticks := fun t ht => hsince t (hticks.subset ht)
  have hafter : day run.start.dateNaive < trade.entryAt :=
    hsince.lt_entryAt happlies hheld hentry (List.mem_of_getLast? hlast) (hlists last hlast) hreading
  have hlast := @after_eq_today swapConfig run.start.dateNaive ticks last hlast (hlists last hlast)
  exact charged_after_start swapConfig run hday hticks happlies hheld hentry
    (lt_of_day_lt_day (hafter.trans_le hentry)) (hlast ▸ hreading)

/-! ## A position and a clock -/

/-- A trade entered at `entryAt`. -/
def sampleHeldTrade (entryAt : DateTime) : TradeRow := { sampleTrade with quantity := 50, entryAt }

/-- A paper account with a position that costs 2 each night. -/
def sampleHeldDb (entryAt : DateTime) : Db where
  trades := ⟨[sampleHeldTrade entryAt], List.nodup_singleton _⟩
  accounts := ⟨[{ sampleAccount with live := false, currentBalance := 500 }], by decide⟩
  accountEvents := []
  notifications := []

/-- A reading at `now` with one trade. -/
def sampleLook (entryAt now : DateTime) : OvernightTick :=
  ⟨now, .ok (sampleHeldDb entryAt), fun _ => .ok (sampleHeldDb entryAt), fun _ => .ok (sampleHeldDb entryAt)⟩

section

variable {entryAt : DateTime}

theorem sampleLook_finds {now : DateTime} {db : Db} (h : (sampleLook entryAt now).Finds db) :
    db = sampleHeldDb entryAt := by
  simpa [OvernightTick.Finds, sampleLook, eq_comm] using h

theorem sampleLook_lists (now : DateTime) : (sampleLook entryAt now).Lists := ⟨_, rfl⟩

theorem sampleLook_answers (now : DateTime) : (sampleLook entryAt now).Answers :=
  ⟨fun _ _ _ _ _ => ⟨_, rfl⟩, fun _ _ _ _ _ => ⟨_, rfl⟩⟩

theorem sampleLook_enteredBefore {now : DateTime} (h : entryAt ≤ day now.dateNaive) :
    (sampleLook entryAt now).EnteredBefore := by
  intro accounts _ pac _ _ trades htrades trade htrade
  obtain ⟨db, hdb, hperm⟩ := getOpenTradesByAccount_answer htrades
  obtain rfl := Except.ok.inj hdb
  obtain ⟨r, hr, rfl⟩ := List.mem_map.mp (hperm.subset htrade)
  obtain rfl := List.mem_singleton.mp (List.mem_of_mem_filter hr)
  exact h

end

/-- A run that reads these times, with a trade entered at `entryAt`. -/
def sampleClock (entryAt start : DateTime) (readings : List DateTime) : OvernightRun where
  start
  ticks := readings.map (sampleLook entryAt)
  owner _ := 1
  owned := by
    intro t ht db hdb r hr
    obtain ⟨now, -, rfl⟩ := List.mem_map.mp ht
    rw [sampleLook_finds hdb] at hr
    obtain rfl := List.mem_singleton.mp hr
    rfl

theorem sampleClock_heldOver (entryAt start : DateTime) (readings : List DateTime) :
    HeldOver .bitflyerCfd (sampleHeldTrade entryAt).toTrade (sampleClock entryAt start readings).ticks := by
  intro t ht _ db hdb
  obtain ⟨now, -, rfl⟩ := List.mem_map.mp ht
  rw [sampleLook_finds hdb]
  exact ⟨⟨sampleHeldTrade entryAt, rfl, rfl, ⟨rfl, rfl, rfl, rfl, rfl, rfl, rfl⟩⟩, _, rfl, rfl, rfl⟩

theorem sampleClock_enteredSince {entryAt start : DateTime} (readings : List DateTime)
    (h : day start.dateNaive < entryAt) : EnteredSince start (sampleClock entryAt start readings).ticks := by
  intro t ht db hdb exchange trade _ hopen
  obtain ⟨now, -, rfl⟩ := List.mem_map.mp ht
  rw [sampleLook_finds hdb] at hopen
  obtain ⟨r, hr, -, hterms⟩ := hopen.row
  obtain rfl := List.mem_singleton.mp (Lib.Table.find?_mem hr)
  exact hterms.entryAt ▸ h

/-- No swap rates are configured. -/
def sampleSwapConfig : GmoFxSwapConfig := ⟨fun _ => none⟩

/-- One reading on each day, after an entry in the first hour of the day that the run starts on. -/
theorem sampleClock_follows : FollowsCalendar sampleSwapConfig (seconds 7200)
    [sampleLook (seconds 3600) (day 1), sampleLook (seconds 3600) (day 2)] := by
  refine fees_follow_calendar sampleSwapConfig (sampleClock (seconds 3600) (seconds 7200) [day 1, day 2]) ?_
    (sampleClock_enteredSince _ (by decide)) _ (List.prefix_refl _) ?_
  · refine dayByDay_cons.mpr
      ⟨fun _ _ => ⟨by decide, sampleLook_answers _, sampleLook_enteredBefore (by decide)⟩, ?_⟩
    refine dayByDay_cons.mpr
      ⟨fun _ _ => ⟨by decide +kernel, sampleLook_answers _, sampleLook_enteredBefore (by decide)⟩, ?_⟩
    exact fun before t hbefore => absurd hbefore (by simp)
  · rintro t ht
    obtain rfl := Option.some.inj ht
    exact sampleLook_lists _

/-- The clock jumps over a day, and the midnight between is not charged; it steps back over a midnight, and that
midnight is charged twice; a trade is charged for the midnight half a minute before its entry; and one is not charged
for the midnight between its entry and the start of the run. -/
theorem sampleClock_breaks_calendar :
    ¬FollowsCalendar sampleSwapConfig (seconds 7200) (sampleClock (seconds 3600) (seconds 7200) [day 2]).ticks ∧
      ¬FollowsCalendar sampleSwapConfig (seconds 7200)
        (sampleClock (seconds 3600) (seconds 7200) [day 1, seconds 86399, day 1]).ticks ∧
      ¬FollowsCalendar sampleSwapConfig (seconds 7200)
        (sampleClock (day 1 + seconds 30) (seconds 7200) [day 1 + seconds 45]).ticks ∧
      ¬FollowsCalendar sampleSwapConfig (day 1) (sampleClock (seconds 3600) (day 1) [day 2]).ticks := by
  have missed : ∀ start readings, (∃ last ∈ (sampleClock (seconds 3600) start readings).ticks.getLast?,
      1 ≤ last.today) →
      callsFor sampleSwapConfig start (sampleClock (seconds 3600) start readings).ticks 7 1 = [] →
      ¬FollowsCalendar sampleSwapConfig start (sampleClock (seconds 3600) start readings).ticks := by
    intro start readings hlast hnone h
    obtain ⟨call, hcall, -⟩ := h.charged .bitflyerCfd (sampleHeldTrade (seconds 3600)).toTrade 1 rfl
      (sampleClock_heldOver _ _ _) (by decide) hlast
    exact absurd (hcall.symm.trans hnone) (by simp)
  refine ⟨missed _ _ ⟨_, rfl, by decide⟩ (by decide +kernel), fun h => ?_, fun h => ?_,
    missed _ _ ⟨_, rfl, by decide⟩ (by decide +kernel)⟩
  · have htwo : (callsFor sampleSwapConfig (seconds 7200)
        (sampleClock (seconds 3600) (seconds 7200) [day 1, seconds 86399, day 1]).ticks 7 1).length = 2 := by
      decide +kernel
    exact absurd (htwo ▸ h.once 7 1) (by decide)
  · have hcharged : ∃ call ∈ overnightCalls sampleSwapConfig (seconds 7200)
        (sampleClock (day 1 + seconds 30) (seconds 7200) [day 1 + seconds 45]).ticks,
        call.outcome = .charged 2 ∧ call.eventAt < call.trade.entryAt := by
      decide +kernel
    obtain ⟨call, hmem, houtcome, hlt⟩ := hcharged
    exact absurd (h.entered call hmem 2 houtcome) (not_le.mpr hlt)

end AutoTrader
