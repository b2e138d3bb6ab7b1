import AutoTrader.Lib.Threads
import AutoTrader.Sim.Backfill

/-!
# Backfills in every interleaving

Several backfills may write to one table. A backfill keeps to `fetchProtocol`: what it writes is the join
of the klines that were answered for a date of its range, and where it exits with code 0, it has done so for every date
(`runBackfill_meets`).
-/

namespace AutoTrader.Sim

open Lib (Config History Input Label Prog Protocol Step Sys Table)
open Lib.Prog (Meets MeetsE Only)
open Lib.Prog

variable {D : Type}

/-! ## The surroundings -/

/-- The clock, in microseconds, and the candles. -/
structure FetchWorld (D : Type) where
  clock : Nat
  candles : CandleTable D

/-- How calls are answered. The API may fail, but a URL has one list of klines. -/
def FetchWorld.Answers (f : FetchFormats D) (source : String → List KlineRaw) (w : FetchWorld D) :
    (c : FetchCall) → c.Ret → FetchWorld D → Prop
  | .now, r, w' => r = w.clock ∧ w' = w
  | .sleepUntil deadline, _, w' => deadline ≤ w.clock ∧ w' = w
  | .get url, r, w' => (∀ data, r = .body 0 data → data = source url) ∧ w' = w
  | .upsertBars bars, r, w' =>
    ∃ fate t, f.upsertBars bars fate w.candles = (r, t) ∧ w' = { w with candles := t }
  | .prepare, _, w' | .buildHttp, _, w' | .printBackfill _, _, w' => w' = w

/-- Time goes on by itself. -/
def fetchSys (f : FetchFormats D) (source : String → List KlineRaw) : Sys FetchCalls (FetchWorld D) Nat where
  respond _ w c r w' := w.Answers f source c r w'
  move w elapsed w' := w' = { w with clock := w.clock + elapsed }

/-- The dates of a command; the last one is a date. -/
structure DateRange where
  «from» : NaiveDate
  «to» : NaiveDate
  to_le : «to» ≤ GmoKlineClient.naiveDateMax

instance : Membership NaiveDate DateRange := ⟨fun r date => r.from ≤ date ∧ date ≤ r.to⟩

/-- A run of backfills over one table. -/
abbrev FetchRun (D : Type) := History FetchCalls (FetchWorld D) Nat (Except Panic Nat)

/-- A backfill for each range, with an empty table. -/
def fetchStart (client : GmoKlineClient) (f : FetchFormats D) (ranges : Nat → DateRange) :
    Config FetchCalls (FetchWorld D) (Except Panic Nat) :=
  ⟨⟨0, .empty⟩, fun i => (runBackfill client f (ranges i).from (ranges i).to).run⟩

/-- A run of backfills of the ranges. -/
def FetchRun.Of (client : GmoKlineClient) (f : FetchFormats D) (source : String → List KlineRaw)
    (ranges : Nat → DateRange) (h : FetchRun D) : Prop :=
  h.Valid (fetchSys f source) (fetchStart client f ranges)

/-! ## What a command has fetched and saved -/

/-- What a backfill has fetched and saved so far. -/
structure FetchPhase where
  /-- The klines that were answered, with their URLs. -/
  fetched : List (String × List KlineRaw)
  saved : List (List Bar)

/-- Nothing was fetched yet. -/
def FetchPhase.start : FetchPhase := ⟨[], []⟩

/-- A later phase has fetched and saved at least as much. -/
structure FetchPhase.Grows (p p' : FetchPhase) : Prop where
  fetched : p.fetched ⊆ p'.fetched
  saved : p.saved ⊆ p'.saved

theorem FetchPhase.Grows.refl (p : FetchPhase) : p.Grows p := ⟨List.Subset.refl _, List.Subset.refl _⟩

theorem FetchPhase.Grows.trans {p q r : FetchPhase} (h : p.Grows q) (h' : q.Grows r) : p.Grows r :=
  ⟨List.Subset.trans h.fetched h'.fetched, List.Subset.trans h.saved h'.saved⟩

/-- What the answer of one call adds. -/
def FetchPhase.next (p : FetchPhase) : (c : FetchCall) → c.Ret → FetchPhase
  | .get url, .body status data => if status = 0 then { p with fetched := (url, data) :: p.fetched } else p
  | .upsertBars bars, .ok _ => { p with saved := bars :: p.saved }
  | _, _ => p

section

variable (client : GmoKlineClient) (f : FetchFormats D)

/-- The klines of one side were fetched. -/
def FetchPhase.Read (p : FetchPhase) (date : NaiveDate) (priceType : PriceType) (klines : List Kline) : Prop :=
  ∃ data, (client.url f date priceType, data) ∈ p.fetched ∧ parseKlines f.ops data = .ok klines

/-- The outcome is the join of what was fetched. -/
def FetchPhase.Joins (p : FetchPhase) (date : NaiveDate) (outcome : JoinOutcome) : Prop :=
  ∃ bid ask, p.Read client f date .bid bid ∧ p.Read client f date .ask ask ∧ outcome = joinAndValidate bid ask

/-- The bars of the date were saved, if there are any. -/
def FetchPhase.Done (p : FetchPhase) (date : NaiveDate) : Prop :=
  ∃ outcome, p.Joins client f date outcome ∧ (outcome.bars = [] ∨ outcome.bars ∈ p.saved)

/-- The date is done, or a fetch of it is among those that failed. -/
def FetchPhase.Covers (p : FetchPhase) (failed : List String) (date : NaiveDate) : Prop :=
  p.Done client f date ∨ ∃ priceType, GmoKlineClient.failedEntry f date priceType ∈ failed

/-- Only bars of the dates are written, and only a report that has every date is printed. -/
def fetchProtocol (range : DateRange) : Protocol FetchCalls FetchPhase where
  allowed p
    | .upsertBars bars => ∃ date ∈ range, ∃ outcome, p.Joins client f date outcome ∧ bars = outcome.bars
    | .printBackfill report => ∀ date ∈ range, p.Covers client f report.failed date
    | _ => True
  next := FetchPhase.next

variable {client f} {range : DateRange} {p p' : FetchPhase} {date : NaiveDate}

theorem FetchPhase.Read.grows {priceType : PriceType} {klines : List Kline} (h : p.Read client f date priceType klines)
    (hg : p.Grows p') : p'.Read client f date priceType klines :=
  h.imp fun _ hdata => ⟨hg.fetched hdata.1, hdata.2⟩

theorem FetchPhase.Joins.grows {outcome : JoinOutcome} (h : p.Joins client f date outcome) (hg : p.Grows p') :
    p'.Joins client f date outcome := by
  obtain ⟨bid, ask, hbid, hask, rfl⟩ := h
  exact ⟨bid, ask, hbid.grows hg, hask.grows hg, rfl⟩

theorem FetchPhase.Done.grows (h : p.Done client f date) (hg : p.Grows p') : p'.Done client f date := by
  obtain ⟨outcome, hjoins, hsaved⟩ := h
  exact ⟨outcome, hjoins.grows hg, hsaved.imp_right fun hin => hg.saved hin⟩

theorem FetchPhase.Covers.grows {failed failed' : List String} (h : p.Covers client f failed date) (hg : p.Grows p')
    (hf : failed ⊆ failed') : p'.Covers client f failed' date :=
  h.imp (fun hdone => hdone.grows hg) fun ⟨priceType, hin⟩ => ⟨priceType, hf hin⟩

/-! ## The command keeps to the protocol -/

theorem meets_fetching {α : Type} {R : FetchPhase → α → Prop} {E : FetchPhase → Panic → Prop} {c : FetchCall}
    {k : c.Ret → Fetch α} (hc : (fetchProtocol client f range).allowed p c)
    (h : ∀ r, MeetsE (fetchProtocol client f range) (p.next c r) (k r) R E) :
    MeetsE (fetchProtocol client f range) p (fetching c >>= k) R E :=
  MeetsE.bindLift ⟨hc, h⟩

/-- The calls that wait. -/
def FetchCall.Waits : FetchCall → Prop
  | .now | .sleepUntil _ => True
  | _ => False

theorem only_sleep (duration : Nat) : Only FetchCall.Waits (sleep duration).run :=
  ⟨trivial, fun _ => ⟨trivial, fun _ => trivial⟩⟩

theorem only_throttle (client : GmoKlineClient) (next : Option Nat) :
    Only FetchCall.Waits (client.throttle next).run := by
  refine OnlyE.bindLift (Only.perform trivial) fun now => ?_
  dsimp only
  split
  · exact OnlyE.bind (only_sleep _) fun _ => OnlyE.pure _
  · exact OnlyE.pure _

theorem waits_kept (c : FetchCall) (hc : c.Waits) :
    (fetchProtocol client f range).allowed p c ∧ ∀ r, (fetchProtocol client f range).next p c r = p := by
  cases c with
  | now => exact ⟨trivial, fun _ => rfl⟩
  | sleepUntil deadline => exact ⟨trivial, fun _ => rfl⟩
  | _ => cases hc

theorem meets_waits {α β : Type} {R : FetchPhase → β → Prop} {x : Fetch α}
    {k : α → Fetch β} (hx : Only FetchCall.Waits x.run)
    (h : ∀ a, MeetsE (fetchProtocol client f range) p (k a) R fun _ _ => True) :
    MeetsE (fetchProtocol client f range) p (x >>= k) R fun _ _ => True :=
  MeetsE.bind (MeetsE.of_only hx waits_kept h fun _ => trivial)

theorem meets_ite {α : Type} {R : FetchPhase → α → Prop} {E : FetchPhase → Panic → Prop} {c : Prop} [Decidable c]
    {x y : Fetch α} (hx : c → MeetsE (fetchProtocol client f range) p x R E)
    (hy : ¬c → MeetsE (fetchProtocol client f range) p y R E) :
    MeetsE (fetchProtocol client f range) p (if c then x else y) R E := by
  split
  · exact hx ‹_›
  · exact hy ‹_›

open GmoKlineClient

theorem tryFetch_meets (url : String) :
    MeetsE (fetchProtocol client f range) p (tryFetch url)
      (fun p' r => p.Grows p' ∧ ∀ data, r = .ok data → (url, data) ∈ p'.fetched) fun _ _ => True := by
  refine meets_fetching trivial fun answer => ?_
  cases answer with
  | body status data =>
    by_cases hstatus : status = 0
    · simp only [hstatus, FetchPhase.next]
      refine MeetsE.pure ⟨⟨List.subset_cons_self _ _, List.Subset.refl _⟩, fun data' h => ?_⟩
      rw [Except.ok.inj h]
      exact List.mem_cons_self
    · simp only [FetchPhase.next, if_neg hstatus, if_pos (show status ≠ 0 from hstatus)]
      exact MeetsE.pure ⟨.refl p, fun _ h => by cases h⟩
  | _ => exact MeetsE.pure ⟨.refl p, fun _ h => by cases h⟩

/-- By induction on the attempts that are left. -/
theorem attempts_meets (date : NaiveDate) (priceType : PriceType) (delays : List (Option Nat)) (lastErr : Error)
    (next : Option Nat) :
    MeetsE (fetchProtocol client f range) p (client.attempts f date priceType delays lastErr next)
      (fun p' r => p.Grows p' ∧ ∀ klines, r.1 = .ok klines → p'.Read client f date priceType klines)
      fun _ _ => True := by
  induction delays generalizing p lastErr next with
  | nil => exact MeetsE.pure ⟨.refl p, fun _ h => by cases h⟩
  | cons delay delays ih =>
    have hattempt : MeetsE (fetchProtocol client f range) p
        (client.attempts f date priceType (none :: delays) lastErr next)
        (fun p' r => p.Grows p' ∧ ∀ klines, r.1 = .ok klines → p'.Read client f date priceType klines)
        fun _ _ => True := by
      refine meets_waits (only_throttle client next) fun next => MeetsE.bind ?_
      refine (tryFetch_meets _).mono (fun q r hq => ?_) fun _ _ h => h
      obtain ⟨hgrows, hfetched⟩ := hq
      cases r with
      | ok data =>
        refine MeetsE.bind (MeetsE.result (fun klines hparse => ?_) fun _ _ => trivial)
        refine MeetsE.pure ⟨hgrows, fun klines' h => ?_⟩
        rw [← Except.ok.inj h]
        exact ⟨data, hfetched data rfl, hparse⟩
      | error e => exact (ih e next).mono (fun p' r hr => ⟨hgrows.trans hr.1, hr.2⟩) fun _ _ h => h
    cases delay with
    | none => exact hattempt
    | some delay => exact meets_waits (only_sleep delay) fun _ => hattempt

theorem mem_failedOf {priceType : PriceType} {e : Error} :
    failedEntry f date priceType ∈ failedOf f date priceType (.error e) :=
  List.mem_singleton_self _

theorem fetchAndJoinDay_meets (date : NaiveDate) (next : Option Nat) :
    MeetsE (fetchProtocol client f range) p (client.fetchAndJoinDay f date next)
      (fun p' r => p.Grows p' ∧ (∀ outcome, r.1 = .ok outcome → p'.Joins client f date outcome) ∧
        ∀ failed, r.1 = .error failed → ∃ priceType, failedEntry f date priceType ∈ failed) fun _ _ => True := by
  unfold fetchAndJoinDay
  refine MeetsE.bind ((attempts_meets date .bid _ [] next).mono (fun q bid hbid => ?_) fun _ _ h => h)
  refine MeetsE.bind ((attempts_meets date .ask _ [] bid.2).mono (fun p' ask hask => ?_) fun _ _ h => h)
  obtain ⟨hgrows, hread⟩ := hbid
  obtain ⟨hgrows', hread'⟩ := hask
  have hboth := hgrows.trans hgrows'
  obtain ⟨bid | bid, next₁⟩ := bid
  · refine MeetsE.pure ⟨hboth, fun _ h => (by cases h), fun failed h => ⟨.bid, ?_⟩⟩
    rw [← Except.error.inj h]
    exact List.mem_append_left _ mem_failedOf
  obtain ⟨ask | ask, next₂⟩ := ask
  · refine MeetsE.pure ⟨hboth, fun _ h => (by cases h), fun failed h => ⟨.ask, ?_⟩⟩
    rw [← Except.error.inj h]
    exact List.mem_append_right _ mem_failedOf
  · refine MeetsE.pure ⟨hboth, fun outcome h => ?_, fun _ h => by cases h⟩
    exact ⟨bid, ask, (hread bid rfl).grows hgrows', hread' ask rfl, (Except.ok.inj h).symm⟩

theorem saveDayOutcome_meets {outcome : JoinOutcome} (hdate : date ∈ range) (hjoins : p.Joins client f date outcome)
    (report : BackfillReport) :
    MeetsE (fetchProtocol client f range) p (saveDayOutcome outcome report)
      (fun p' r => p.Grows p' ∧ ∀ report', r = .ok report' →
        p'.Done client f date ∧ report'.failed = report.failed) fun _ _ => True := by
  unfold saveDayOutcome
  by_cases hempty : outcome.bars.isEmpty
  · simp only [hempty, if_true]
    refine MeetsE.pure ⟨.refl p, fun report' h => ?_⟩
    rw [← Except.ok.inj h]
    exact ⟨⟨outcome, hjoins, .inl (List.isEmpty_iff.mp hempty)⟩, rfl⟩
  · simp only [hempty]
    refine meets_fetching ⟨date, hdate, outcome, hjoins, rfl⟩ fun answer => ?_
    cases answer with
    | error e => exact MeetsE.pure ⟨.refl p, fun _ h => by cases h⟩
    | ok affected =>
      have hgrows : p.Grows (p.next (.upsertBars outcome.bars) (.ok affected)) :=
        ⟨List.Subset.refl _, List.subset_cons_self _ _⟩
      refine MeetsE.pure ⟨hgrows, fun report' h => ?_⟩
      rw [← Except.ok.inj h]
      exact ⟨⟨outcome, hjoins.grows hgrows, .inr List.mem_cons_self⟩, rfl⟩

/-- From one report to the next, the phase grows, failures are kept, and the dates are covered. -/
structure FetchPhase.Covered (client : GmoKlineClient) (f : FetchFormats D) (p p' : FetchPhase)
    (report report' : BackfillReport) (lo hi : NaiveDate) : Prop where
  grows : p.Grows p'
  failed : report.failed ⊆ report'.failed
  covers : ∀ date, lo ≤ date → date ≤ hi → p'.Covers client f report'.failed date

theorem FetchPhase.Covered.day {report report' : BackfillReport} (hgrows : p.Grows p')
    (hfailed : report.failed ⊆ report'.failed) (hcovers : p'.Covers client f report'.failed date) :
    FetchPhase.Covered client f p p' report report' date date where
  grows := hgrows
  failed := hfailed
  covers date' hlo hhi := by
    obtain rfl : date' = date := Int.le_antisymm hhi hlo
    exact hcovers

theorem FetchPhase.Covered.trans {q : FetchPhase} {report₁ report₂ report₃ : BackfillReport} {lo mid hi : NaiveDate}
    (h : FetchPhase.Covered client f p q report₁ report₂ lo mid)
    (h' : FetchPhase.Covered client f q p' report₂ report₃ (mid + 1) hi) :
    FetchPhase.Covered client f p p' report₁ report₃ lo hi where
  grows := h.grows.trans h'.grows
  failed := List.Subset.trans h.failed h'.failed
  covers date hlo hhi := by
    rcases lt_or_ge mid date with hlt | hle
    · exact h'.covers date hlt hhi
    · exact (h.covers date hlo hle).grows h'.grows h'.failed

theorem backfillDay_meets (hdate : date ∈ range) (report : BackfillReport) (next : Option Nat) :
    MeetsE (fetchProtocol client f range) p (client.backfillDay f date report next)
      (fun p' r => ∀ report', r.1 = .ok report' → FetchPhase.Covered client f p p' report report' date date)
      fun _ _ => True := by
  unfold backfillDay
  refine MeetsE.bind ((fetchAndJoinDay_meets date next).mono (fun q joined hq => ?_) fun _ _ h => h)
  obtain ⟨hgrows, hjoins, hfailed⟩ := hq
  obtain ⟨failed | outcome, next'⟩ := joined
  · refine MeetsE.pure fun report' h => ?_
    obtain ⟨priceType, hin⟩ := hfailed failed rfl
    rw [← Except.ok.inj h]
    exact .day hgrows (List.subset_append_left _ _) (.inr ⟨priceType, List.mem_append_right _ hin⟩)
  · have hsave := saveDayOutcome_meets hdate (hjoins outcome rfl) { report with days := report.days + 1 }
    refine MeetsE.bind (hsave.mono (fun p' saved hsaved => ?_) fun _ _ h => h)
    refine MeetsE.pure fun report' h => ?_
    obtain ⟨hgrows', hdone⟩ := hsaved
    obtain ⟨hdone, hkept⟩ := hdone report' h
    exact .day (hgrows.trans hgrows') (by rw [hkept]; exact List.Subset.refl _) (.inl hdone)

variable (client f) in
/-- By induction on the rounds that are left, which are enough for the dates. -/
theorem backfillDays_meets {hi : NaiveDate} (hmax : hi ≤ naiveDateMax) (n : Nat) (date : NaiveDate)
    (hdates : ∀ d, date ≤ d → d ≤ hi → d ∈ range) (hn : hi < date + n) (report : BackfillReport) (next : Option Nat) :
    MeetsE (fetchProtocol client f range) p (client.backfillDays f hi n date report next)
      (fun p' r => ∀ report', r.1 = .ok report' → FetchPhase.Covered client f p p' report report' date hi)
      fun _ _ => True := by
  induction n generalizing p date report next with
  | zero =>
    refine MeetsE.pure fun report' h => ?_
    rw [← Except.ok.inj h]
    refine ⟨.refl p, List.Subset.refl _, fun d hlo hhi => ?_⟩
    exact absurd (Int.le_trans hlo hhi) (by simpa using hn)
  | succ n ih =>
    rw [backfillDays]
    by_cases hover : hi < date
    · rw [if_pos hover]
      refine MeetsE.pure fun report' h => ?_
      rw [← Except.ok.inj h]
      exact ⟨.refl p, List.Subset.refl _, fun d hlo hhi => absurd (Int.le_trans hlo hhi) (Int.not_le.mpr hover)⟩
    rw [if_neg hover]
    have hin : date ∈ range := hdates date (Int.le_refl _) (Int.not_lt.mp hover)
    refine MeetsE.bind ((backfillDay_meets hin report next).mono (fun q day hday => ?_) fun _ _ h => h)
    obtain ⟨e | report₁, next'⟩ := day
    · exact MeetsE.pure fun _ h => by cases h
    have hday := hday report₁ rfl
    by_cases hlast : date = hi
    · subst hlast
      simp only [if_true]
      refine MeetsE.pure fun report' h => ?_
      rw [← Except.ok.inj h]
      exact hday
    simp only [if_neg hlast]
    have hlt : date < hi := lt_of_le_of_ne (Int.not_lt.mp hover) hlast
    have hsucc : succOpt date = some (date + 1) := if_pos (lt_of_lt_of_le hlt hmax)
    rw [hsucc]
    have hrest := ih (p := q) (date + 1) (fun d hlo hhi => hdates d (Int.le_of_lt hlo) hhi)
      (by push_cast at hn; rwa [Int.add_assoc, Int.add_comm 1]) report₁ next'
    exact hrest.mono (fun p' r hr report' h => hday.trans (hr report' h)) fun _ _ h => h

/-- What the result of `backfill` says of its dates. -/
def FetchPhase.Backfilled (client : GmoKlineClient) (f : FetchFormats D) (p : FetchPhase) (date : NaiveDate) :
    Except BackfillError BackfillReport → Prop
  | .ok report => p.Covers client f report.failed date
  | .error (.fetchIncomplete failed) => p.Covers client f failed date
  | .error (.store _) => True

theorem backfill_meets (hdate : date ∈ range) (next : Option Nat) :
    MeetsE (fetchProtocol client f range) p (client.backfill f date date next)
      (fun p' r => (∀ e, r.1 ≠ .error (.store e)) → p.Grows p' ∧ p'.Backfilled client f date r.1)
      fun _ _ => True := by
  have hone : ∀ d, date ≤ d → d ≤ date → d ∈ range := fun d hlo hhi => Int.le_antisymm hhi hlo ▸ hdate
  have hdays := backfillDays_meets client f (p := p) (Int.le_trans hdate.2 range.to_le) ((date - date).toNat + 1) date
    hone (by simp) .start next
  refine MeetsE.bind (hdays.mono (fun p' done hdone => ?_) fun _ _ h => h)
  obtain ⟨e | report, next'⟩ := done
  · exact MeetsE.pure fun h => absurd rfl (h e)
  have hcovered := hdone report rfl
  have hcovers := hcovered.covers date (Int.le_refl _) (Int.le_refl _)
  by_cases hfailed : report.failed.isEmpty
  · simp only [hfailed, if_true]
    exact MeetsE.pure fun _ => ⟨hcovered.grows, hcovers⟩
  · simp only [hfailed]
    exact MeetsE.pure fun _ => ⟨hcovered.grows, hcovers⟩

variable (client f) in
theorem backfillLoop_meets (n : Nat) (date : NaiveDate) (hdates : ∀ d, date ≤ d → d ≤ range.to → d ∈ range)
    (hn : range.to < date + n) (hle : date ≤ range.to) (total : BackfillReport) (next : Option Nat) :
    MeetsE (fetchProtocol client f range) p (client.backfillLoop f range.to n date total next)
      (fun p' r => (∀ total', r = .ok total' → FetchPhase.Covered client f p p' total total' date range.to) ∧
        r ≠ .error 0) fun _ _ => True := by
  induction n generalizing p date total next with
  | zero => exact absurd hle (by simpa using hn)
  | succ n ih =>
    rw [backfillLoop]
    have hin : date ∈ range := hdates date (Int.le_refl _) hle
    have hsucc (hmore : date ≠ range.to) : succOpt date = some (date + 1) :=
      if_pos (lt_of_lt_of_le (lt_of_le_of_ne hle hmore) range.to_le)
    have hlast (q : FetchPhase) (total₁ : BackfillReport)
        (hday : FetchPhase.Covered client f p q total total₁ date date) (heq : date = range.to) :
        MeetsE (fetchProtocol client f range) q (pure (.ok total₁) : Fetch (Except Nat BackfillReport))
          (fun p' r => (∀ total', r = .ok total' → FetchPhase.Covered client f p p' total total' date range.to) ∧
            r ≠ .error 0) fun _ _ => True := by
      refine MeetsE.pure ⟨fun total' h => ?_, fun h => by cases h⟩
      rw [← Except.ok.inj h, ← heq]
      exact hday
    have hrest (q : FetchPhase) (total₁ : BackfillReport) (next : Option Nat)
        (hday : FetchPhase.Covered client f p q total total₁ date date) (hmore : date ≠ range.to) :
        MeetsE (fetchProtocol client f range) q (client.backfillLoop f range.to n (date + 1) total₁ next)
          (fun p' r => (∀ total', r = .ok total' → FetchPhase.Covered client f p p' total total' date range.to) ∧
            r ≠ .error 0) fun _ _ => True := by
      have hmeets := ih (p := q) (date + 1) (fun d hlo hhi => hdates d (Int.le_of_lt hlo) hhi)
        (by push_cast at hn; rwa [Int.add_assoc, Int.add_comm 1]) (lt_of_le_of_ne hle hmore) total₁ next
      exact hmeets.mono (fun p' r hr => ⟨fun total' h => hday.trans (hr.1 total' h), hr.2⟩) fun _ _ h => h
    refine MeetsE.bind ((backfill_meets hin next).mono (fun q day hday => ?_) fun _ _ h => h)
    obtain ⟨(failed | e) | report, next'⟩ := day
    · obtain ⟨hgrows, hcovers⟩ := hday fun _ h => by cases h
      have hcovered : FetchPhase.Covered client f p q total
          { total with days := total.days + 1, failed := total.failed ++ failed } date date :=
        .day hgrows (List.subset_append_left _ _)
          (FetchPhase.Covers.grows hcovers (.refl q) (List.subset_append_right _ _))
      refine meets_ite (hlast q _ hcovered) fun hmore => ?_
      rw [hsucc hmore]
      exact hrest q _ next' hcovered hmore
    · exact MeetsE.pure ⟨fun _ h => (by cases h), fun h => by cases h⟩
    · obtain ⟨hgrows, hcovers⟩ := hday fun _ h => by cases h
      have hcovered : FetchPhase.Covered client f p q total (addReport total report) date date :=
        .day hgrows (List.subset_append_left _ _)
          (FetchPhase.Covers.grows hcovers (.refl q) (List.subset_append_right _ _))
      refine meets_ite (hlast q _ hcovered) fun hmore => ?_
      rw [hsucc hmore]
      exact hrest q _ next' hcovered hmore

/-- With the exit code 0, all dates are done. -/
theorem runBackfill_meets :
    MeetsE (fetchProtocol client f range) p (runBackfill client f range.from range.to)
      (fun p' code => code = 0 → ∀ date ∈ range, p'.Done client f date) fun _ _ => True := by
  unfold runBackfill
  by_cases hrange : range.to < range.from
  · simp only [validateBackfillRange, if_pos hrange]
    exact MeetsE.pure fun h => by cases h
  by_cases hmin : range.from < gmoKlineMinDate
  · simp only [validateBackfillRange, if_neg hrange, if_pos hmin]
    exact MeetsE.pure fun h => by cases h
  simp only [validateBackfillRange, if_neg hrange, if_neg hmin]
  have hle : range.from ≤ range.to := Int.not_lt.mp hrange
  have hrounds : range.to < range.from + ((range.to - range.from).toNat + 1 : Nat) := by
    have htoNat : ((range.to - range.from).toNat : Int) = range.to - range.from :=
      Int.toNat_of_nonneg (Int.sub_nonneg_of_le hle)
    rw [Int.natCast_add, htoNat]
    exact (Int.lt_succ range.to).trans_eq (by ring)
  have hloop : MeetsE (fetchProtocol client f range) p (runBackfillLoop client f range.from range.to)
      (fun p' r => (∀ total, r = .ok total → ∀ date ∈ range, p'.Covers client f total.failed date) ∧ r ≠ .error 0)
      fun _ _ => True := by
    unfold runBackfillLoop
    refine meets_fetching trivial fun prepared => ?_
    cases prepared with
    | error code => exact MeetsE.pure ⟨fun _ h => (by cases h), fun h => by cases h⟩
    | ok _ =>
      refine meets_fetching trivial fun built => ?_
      cases built with
      | error e => exact MeetsE.pure ⟨fun _ h => (by cases h), fun h => by cases h⟩
      | ok _ =>
        have hmeets := backfillLoop_meets client f (p := p) ((range.to - range.from).toNat + 1)
          range.from (fun d hlo hhi => ⟨hlo, hhi⟩) hrounds hle .start none
        exact hmeets.mono (fun p' r hr =>
          ⟨fun total h date hdate => (hr.1 total h).covers date hdate.1 hdate.2, hr.2⟩) fun _ _ h => h
  refine MeetsE.bind (hloop.mono (fun q r hr => ?_) fun _ _ h => h)
  cases r with
  | error code => exact MeetsE.pure fun h => absurd (congrArg Except.error h) hr.2
  | ok total =>
    have hcovers := hr.1 total rfl
    refine meets_fetching hcovers fun printed => ?_
    cases printed with
    | error e => exact MeetsE.pure fun h => by cases h
    | ok _ =>
      by_cases hfailed : total.failed.isEmpty
      · refine MeetsE.pure fun _ date hdate => (hcovers date hdate).resolve_right ?_
        rw [List.isEmpty_iff.mp hfailed]
        exact fun ⟨_, hin⟩ => List.not_mem_nil hin
      · simp only [hfailed]
        exact MeetsE.pure fun h => by cases h

theorem fetchStart_meets (ranges : Nat → DateRange) (i : Nat) :
    Meets (fetchProtocol client f (ranges i)) FetchPhase.start ((fetchStart client f ranges).thread i)
      fun p r => r = .ok 0 → ∀ date ∈ ranges i, p.Done client f date := by
  refine MeetsE.run (runBackfill_meets.mono (fun p code hcode h => ?_) fun _ _ _ h => by cases h)
  exact hcode (Except.ok.inj h)

end

end AutoTrader.Sim
