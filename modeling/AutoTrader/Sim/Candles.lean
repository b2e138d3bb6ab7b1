import AutoTrader.Lib.Table
import AutoTrader.Sim.KlineParsing
import AutoTrader.Sim.Series
import AutoTrader.Sim.Store
import Mathlib.Data.Set.List

/-!
# The stored candles

The table `sim_candles` has a row for each bar, with decimal prices. `upsertBars` writes bars in one transaction and
`loadBars` reads them back: what is written is read as it was (`loadBars_ok`), and bars that agree with what is stored
only add rows (`upsertBars_ok`).
-/

namespace AutoTrader.Sim

open Lib (DecimalOps Table)

variable {D : Type}

/-- The exchange of the stored bars. -/
def simExchange : String := "gmo_fx"

/-- The pair of the stored bars. -/
def simPair : String := "USD_JPY"

/-- The timeframe of the stored bars. -/
def simTimeframe : String := "M5"

/-- A row of `sim_candles`; open times are in seconds. -/
structure CandleRow (D : Type) where
  exchange : String
  pair : String
  timeframe : String
  openTime : Int
  bidOpen : D
  bidHigh : D
  bidLow : D
  bidClose : D
  askOpen : D
  askHigh : D
  askLow : D
  askClose : D

/-- The primary key of a row. -/
def CandleRow.key (r : CandleRow D) : String × String × String × Int := (r.exchange, r.pair, r.timeframe, r.openTime)

/-- The row with the prices of another one. -/
def CandleRow.withPrices (old r : CandleRow D) : CandleRow D :=
  { old with
    bidOpen := r.bidOpen, bidHigh := r.bidHigh, bidLow := r.bidLow, bidClose := r.bidClose
    askOpen := r.askOpen, askHigh := r.askHigh, askLow := r.askLow, askClose := r.askClose }

/-- The table of the bars. -/
abbrev CandleTable (D : Type) := Table (CandleRow.key : CandleRow D → _)

/-- How decimals and times are read and written. -/
structure CandleFormats (D : Type) where
  ops : DecimalOps D
  text : D → String
  dateOf : Int → Option String

namespace CandleFormats

variable (f : CandleFormats D)

/-! ## Saving -/

/-- The row of a bar. -/
def rowOf (b : Bar) : CandleRow D where
  exchange := simExchange
  pair := simPair
  timeframe := simTimeframe
  openTime := b.openTime
  bidOpen := milliToDecimal f.ops b.bidOpen
  bidHigh := milliToDecimal f.ops b.bidHigh
  bidLow := milliToDecimal f.ops b.bidLow
  bidClose := milliToDecimal f.ops b.bidClose
  askOpen := milliToDecimal f.ops b.askOpen
  askHigh := milliToDecimal f.ops b.askHigh
  askLow := milliToDecimal f.ops b.askLow
  askClose := milliToDecimal f.ops b.askClose

/-- A column has ten digits, three of them after the point. -/
def fitsColumn (d : D) : Bool := decide (|f.ops.value d| < 10 ^ 7)

/-- Every price of the row fits its column. -/
def fits (r : CandleRow D) : Bool :=
  [r.bidOpen, r.bidHigh, r.bidLow, r.bidClose, r.askOpen, r.askHigh, r.askLow, r.askClose].all f.fitsColumn

/-- `INSERT INTO sim_candles .. ON CONFLICT (exchange, pair, timeframe, open_time) DO UPDATE SET ..`. -/
def upsertCandle (r : CandleRow D) (t : CandleTable D) : Option (CandleTable D) :=
  if f.fits r then some (t.upsert r fun old => old.withPrices r) else none

/-- What becomes of a transaction. -/
inductive TxFate where
  | beginFails
  /-- The connection fails after so many statements. -/
  | statementFails (done : Nat)
  | commitFails
  /-- It is committed, and the answer is lost. -/
  | commitLost
  | committed
  deriving DecidableEq, Repr

/-- The statement for one bar, after so many others. -/
def upsertNext (fate : TxFate) (affected : Nat) (bar : Bar) (t : CandleTable D) : Except StoreError (CandleTable D) :=
  match epochSecsToDatetime f.dateOf bar.openTime "upsert_bars" with
  | .error e => .error (.sim e)
  | .ok _ =>
    if fate = .statementFails affected then .error .db
    else
      match f.upsertCandle (f.rowOf bar) t with
      | none => .error .db
      | some t => .ok t

/-- The statements of the transaction: the rows affected, and the table after them. -/
def upsertEach (fate : TxFate) : List Bar → Nat → CandleTable D → Except StoreError (Nat × CandleTable D)
  | [], affected, t => .ok (affected, t)
  | bar :: bars, affected, t =>
    match f.upsertNext fate affected bar t with
    | .error e => .error e
    | .ok t => upsertEach fate bars (affected + 1) t

/-- `upsert_bars`: all bars in one transaction. -/
def upsertBars (bars : List Bar) (fate : TxFate) (t : CandleTable D) : Except StoreError Nat × CandleTable D :=
  if bars = [] then (.ok 0, t)
  else if fate = .beginFails then (.error .db, t)
  else
    match f.upsertEach fate bars 0 t with
    | .error e => (.error e, t)
    | .ok (affected, t') =>
      match fate with
      | .commitFails => (.error .db, t)
      | .commitLost => (.error .db, t')
      | _ => (.ok affected, t')

/-! ## Loading -/

/-- What a loading function gives, unless the code panics. -/
abbrev Load (α : Type) := ExceptT SimError (Except Panic) α

/-- A stored price in milli units; a fraction of one is an error. -/
def decimalToMilliRejectingFraction (d : D) (field : String) (openTime : Int) : Load Int64 :=
  match decimalToMilli f.ops d with
  | .error panic => ExceptT.mk (.error panic)
  | .ok (.ok m) => pure m
  | .ok (.error (.fractional scaled)) => throw (.other [.lit "invalid sim_candles field \"", .lit field,
      .lit "\": value ", .arg (f.text d), .lit " at open_time ", .arg (toString openTime),
      .lit " does not scale to an integer milli-yen amount (scaled=", .arg (f.text scaled), .lit ")"])
  | .ok (.error .overflow) => throw (.other [.lit "invalid sim_candles field \"", .lit field, .lit "\": value ",
      .arg (f.text d), .lit " at open_time ", .arg (toString openTime), .lit " overflows i64 at milli-yen scale"])

/-- `Bar::try_from`. -/
def barOfRow (r : CandleRow D) : Load Bar := do
  let bidOpen ← f.decimalToMilliRejectingFraction r.bidOpen "bid_open" r.openTime
  let bidHigh ← f.decimalToMilliRejectingFraction r.bidHigh "bid_high" r.openTime
  let bidLow ← f.decimalToMilliRejectingFraction r.bidLow "bid_low" r.openTime
  let bidClose ← f.decimalToMilliRejectingFraction r.bidClose "bid_close" r.openTime
  let askOpen ← f.decimalToMilliRejectingFraction r.askOpen "ask_open" r.openTime
  let askHigh ← f.decimalToMilliRejectingFraction r.askHigh "ask_high" r.openTime
  let askLow ← f.decimalToMilliRejectingFraction r.askLow "ask_low" r.openTime
  let askClose ← f.decimalToMilliRejectingFraction r.askClose "ask_close" r.openTime
  return ⟨r.openTime, bidOpen, bidHigh, bidLow, bidClose, askOpen, askHigh, askLow, askClose⟩

/-- `SELECT .. FROM sim_candles WHERE .. ORDER BY open_time ASC`. -/
def selectCandles (toExclusive : Option Int) (t : CandleTable D) : List (CandleRow D) :=
  let wanted (r : CandleRow D) : Bool := r.exchange = simExchange && r.pair = simPair && r.timeframe = simTimeframe &&
    toExclusive.all fun limit => r.openTime < limit
  (t.rows.filter wanted).mergeSort fun r s => r.openTime ≤ s.openTime

/-- `load_bars`: the stored bars in the order of their times. -/
def loadBars (toExclusive : Option Int) (t : CandleTable D) : Load (List Bar) := do
  if let some limit := toExclusive then
    if let .error e := epochSecsToDatetime f.dateOf limit "load_bars to_exclusive" then throw e
  (selectCandles toExclusive t).mapM f.barOfRow

/-! ## What is written is read -/

section

variable {f}

@[simp] theorem key_rowOf (b : Bar) : (f.rowOf b).key = (simExchange, simPair, simTimeframe, b.openTime) := rfl

theorem read_milliToDecimal (law : f.ops.Lawful) (v : Int64) (field : String) (openTime : Int) :
    f.decimalToMilliRejectingFraction (milliToDecimal f.ops v) field openTime = pure v := by
  unfold decimalToMilliRejectingFraction
  rw [decimalToMilli_milliToDecimal law]

theorem barOfRow_rowOf (law : f.ops.Lawful) (b : Bar) : f.barOfRow (f.rowOf b) = pure b := by
  unfold barOfRow rowOf
  simp only [read_milliToDecimal law, pure_bind]

theorem rowOf_inj (law : f.ops.Lawful) : Function.Injective f.rowOf := fun b b' h => by
  have hread := congrArg f.barOfRow h
  rw [barOfRow_rowOf law, barOfRow_rowOf law] at hread
  exact Except.ok.inj (Except.ok.inj hread)

theorem mapM_barOfRow (law : f.ops.Lawful) (bars : List Bar) : (bars.map f.rowOf).mapM f.barOfRow = pure bars := by
  induction bars with
  | nil => rfl
  | cons b bars ih => rw [List.map_cons, List.mapM_cons, barOfRow_rowOf law, ih, pure_bind, pure_bind]

/-- Only bars are stored. -/
def Stores (f : CandleFormats D) (t : CandleTable D) : Prop := ∀ r ∈ t.rows, ∃ b, r = f.rowOf b

theorem mem_selectCandles {t : CandleTable D} {toExclusive : Option Int} {b : Bar} :
    f.rowOf b ∈ selectCandles toExclusive t ↔ f.rowOf b ∈ t.rows ∧ toExclusive.all fun limit => b.openTime < limit := by
  rw [selectCandles, List.mem_mergeSort, List.mem_filter]
  refine and_congr_right fun _ => ?_
  simp [rowOf]
  rfl

theorem selectCandles_ascending {t : CandleTable D} (ht : Stores f t) (toExclusive : Option Int) :
    (selectCandles toExclusive t).Pairwise fun r s => r.openTime < s.openTime := by
  have hsorted : (selectCandles toExclusive t).Pairwise fun r s => r.openTime ≤ s.openTime := by
    have hpairwise (rows : List (CandleRow D)) :
        (rows.mergeSort fun r s => decide (r.openTime ≤ s.openTime)).Pairwise fun r s =>
          decide (r.openTime ≤ s.openTime) = true :=
      List.pairwise_mergeSort (fun r s u hrs hsu => by simp at hrs hsu ⊢; omega) (fun r s => by simp; omega) rows
    exact (hpairwise _).imp of_decide_eq_true
  have hperm : (selectCandles toExclusive t).Perm (t.rows.filter _) := List.mergeSort_perm _ _
  have hkeys : ((selectCandles toExclusive t).map CandleRow.key).Nodup :=
    (hperm.map _).nodup_iff.mpr ((List.filter_sublist.map _).nodup t.nodup)
  have hne : (selectCandles toExclusive t).Pairwise fun r s => r.key ≠ s.key := List.pairwise_map.mp hkeys
  refine List.Pairwise.imp_of_mem (fun {r s} hr hs h => ?_) (hsorted.and hne)
  obtain ⟨b, rfl⟩ := ht r (List.mem_of_mem_filter (hperm.subset hr))
  obtain ⟨c, rfl⟩ := ht s (List.mem_of_mem_filter (hperm.subset hs))
  refine lt_of_le_of_ne h.1 fun heq => h.2 ?_
  have heq : b.openTime = c.openTime := heq
  rw [key_rowOf, key_rowOf, heq]

/-- The bars that are stored are loaded in their order. -/
theorem loadBars_ok (law : f.ops.Lawful) {t : CandleTable D} (ht : Stores f t) {toExclusive : Option Int}
    (hto : ∀ limit ∈ toExclusive, (f.dateOf limit).isSome) :
    ∃ bars, f.loadBars toExclusive t = pure bars ∧ bars.Pairwise (·.openTime < ·.openTime) ∧
      ∀ b, b ∈ bars ↔ f.rowOf b ∈ t.rows ∧ toExclusive.all fun limit => b.openTime < limit := by
  have hrows : ∃ bars : List Bar, selectCandles toExclusive t = bars.map f.rowOf := by
    have hstored : ∀ r ∈ selectCandles toExclusive t, ∃ b, f.rowOf b = r := fun r hr => by
      obtain ⟨b, rfl⟩ := ht r (List.mem_of_mem_filter ((List.mergeSort_perm _ _).subset hr))
      exact ⟨b, rfl⟩
    have hrange : selectCandles toExclusive t ∈ Set.range (List.map f.rowOf) := by
      rw [Set.range_list_map]
      exact hstored
    exact hrange.imp fun _ h => h.symm
  obtain ⟨bars, hbars⟩ := hrows
  refine ⟨bars, ?_, ?_, fun b => ?_⟩
  · unfold loadBars
    rw [hbars, mapM_barOfRow law]
    cases toExclusive with
    | none => rfl
    | some limit =>
      obtain ⟨date, hdate⟩ := Option.isSome_iff_exists.mp (hto limit rfl)
      simp [epochSecsToDatetime, hdate]
  · have hsorted := selectCandles_ascending ht toExclusive
    rw [hbars, List.pairwise_map] at hsorted
    exact hsorted
  · rw [← mem_selectCandles, hbars, List.mem_map_of_injective (rowOf_inj law)]

/-! ## What is written stays -/

/-- The bars agree with each other and with what is stored: one bar for each open time. -/
structure Agree (f : CandleFormats D) (bars : List Bar) (t : CandleTable D) : Prop where
  one : ∀ b ∈ bars, ∀ c ∈ bars, b.openTime = c.openTime → b = c
  stored : ∀ b ∈ bars, ∀ c, f.rowOf c ∈ t.rows → b.openTime = c.openTime → b = c

theorem Agree.of_cons {b : Bar} {bars : List Bar} {t t' : CandleTable D} (h : Agree f (b :: bars) t)
    (ht : ∀ c, f.rowOf c ∈ t'.rows → f.rowOf c ∈ t.rows ∨ c = b) : Agree f bars t' where
  one c hc d hd := h.one c (List.mem_cons_of_mem _ hc) d (List.mem_cons_of_mem _ hd)
  stored c hc d hd heq := by
    rcases ht d hd with hd | rfl
    · exact h.stored c (List.mem_cons_of_mem _ hc) d hd heq
    · exact h.one c (List.mem_cons_of_mem _ hc) d List.mem_cons_self heq

theorem upsertCandle_ok {b : Bar} {t t' : CandleTable D} (ht : Stores f t)
    (hagree : ∀ c, f.rowOf c ∈ t.rows → b.openTime = c.openTime → b = c)
    (h : f.upsertCandle (f.rowOf b) t = some t') : ∀ r, r ∈ t'.rows ↔ r ∈ t.rows ∨ r = f.rowOf b := by
  unfold upsertCandle at h
  split at h
  swap
  · cases h
  obtain rfl := Option.some.inj h
  intro r
  rw [Table.mem_iff_find?,
    Table.find?_upsert _ _ (fun old : CandleRow D => show (old.withPrices (f.rowOf b)).key = old.key from rfl)]
  rcases hold : t.find? (f.rowOf b).key with _ | old
  · have hfresh : f.rowOf b ∉ t.rows := fun hmem => by
      rw [Table.mem_iff_find?, hold] at hmem
      cases hmem
    by_cases hr : r.key = (f.rowOf b).key
    · rw [if_pos hr, Option.map_none, Option.getD_none, Option.some.injEq]
      refine ⟨fun heq => .inr heq.symm, fun hcases => ?_⟩
      rcases hcases with hmem | rfl
      · rw [Table.mem_iff_find?, hr, hold] at hmem
        cases hmem
      · rfl
    · rw [if_neg hr, ← Table.mem_iff_find?]
      refine ⟨.inl, fun hcases => ?_⟩
      rcases hcases with hmem | rfl
      · exact hmem
      · exact absurd rfl hr
  · have hmem := Table.find?_mem hold
    obtain ⟨c, rfl⟩ := ht old hmem
    have hkey : (f.rowOf c).key = (f.rowOf b).key := Table.find?_some_key hold
    obtain rfl : b = c := by
      refine hagree c hmem ?_
      simp only [key_rowOf, Prod.mk.injEq, true_and] at hkey
      exact hkey.symm
    by_cases hr : r.key = (f.rowOf b).key
    · rw [if_pos hr, Option.map_some, Option.getD_some, Option.some.injEq]
      refine ⟨fun heq => .inr heq.symm, fun hcases => ?_⟩
      rcases hcases with hin | rfl
      · rw [Table.mem_iff_find?, hr, hold] at hin
        exact Option.some.inj hin
      · rfl
    · rw [if_neg hr, ← Table.mem_iff_find?]
      refine ⟨.inl, fun hcases => ?_⟩
      rcases hcases with hin | rfl
      · exact hin
      · exact absurd rfl hr

theorem Stores.upsert {b : Bar} {t t' : CandleTable D} (ht : Stores f t)
    (h : ∀ r, r ∈ t'.rows ↔ r ∈ t.rows ∨ r = f.rowOf b) : Stores f t' := fun r hr => by
  rcases (h r).mp hr with hr | rfl
  · exact ht r hr
  · exact ⟨b, rfl⟩

theorem upsertNext_ok {fate : TxFate} {n : Nat} {b : Bar} {t t' : CandleTable D}
    (h : f.upsertNext fate n b t = .ok t') : f.upsertCandle (f.rowOf b) t = some t' := by
  unfold upsertNext at h
  split at h
  · cases h
  split at h
  · cases h
  split at h
  · cases h
  · rename_i hupsert
    rw [hupsert, Except.ok.inj h]

theorem upsertEach_ok (law : f.ops.Lawful) {fate : TxFate} {bars : List Bar} {n affected : Nat}
    {t t' : CandleTable D} (ht : Stores f t) (hagree : Agree f bars t)
    (h : f.upsertEach fate bars n t = .ok (affected, t')) :
    affected = n + bars.length ∧ ∀ r, r ∈ t'.rows ↔ r ∈ t.rows ∨ ∃ b ∈ bars, r = f.rowOf b := by
  induction bars generalizing n t with
  | nil =>
    obtain ⟨rfl, rfl⟩ := Prod.mk.inj (Except.ok.inj h)
    exact ⟨rfl, by simp⟩
  | cons b bars ih =>
    rw [upsertEach] at h
    split at h
    · cases h
    rename_i t₁ hnext
    have hrows := upsertCandle_ok ht (hagree.stored b List.mem_cons_self) (upsertNext_ok hnext)
    obtain ⟨haffected, hmem⟩ := ih (ht.upsert hrows)
      (hagree.of_cons fun c hc => ((hrows _).mp hc).imp_right fun heq => rowOf_inj law heq) h
    refine ⟨by rw [haffected, List.length_cons]; omega, fun r => ?_⟩
    rw [hmem, hrows, or_assoc]
    simp

/-- Bars that agree with what is stored are added, all of them or none; and they are added where that is the answer. -/
theorem upsertBars_ok (law : f.ops.Lawful) {fate : TxFate} {bars : List Bar} {t t' : CandleTable D}
    {r : Except StoreError Nat} (ht : Stores f t) (hagree : Agree f bars t) (h : f.upsertBars bars fate t = (r, t')) :
    (∀ row, row ∈ t'.rows ↔ row ∈ t.rows ∨ ∃ b ∈ bars, row = f.rowOf b) ∧ (∀ n, r = .ok n → n = bars.length) ∨
      t' = t ∧ ∃ e, r = .error e := by
  unfold upsertBars at h
  split at h
  · rename_i hnil
    subst hnil
    obtain ⟨rfl, rfl⟩ := Prod.mk.inj h
    exact .inl ⟨by simp, fun n hn => (Except.ok.inj hn).symm⟩
  split at h
  · obtain ⟨rfl, rfl⟩ := Prod.mk.inj h
    exact .inr ⟨rfl, _, rfl⟩
  split at h
  · obtain ⟨rfl, rfl⟩ := Prod.mk.inj h
    exact .inr ⟨rfl, _, rfl⟩
  rename_i affected t₁ heach
  obtain ⟨haffected, hmem⟩ := upsertEach_ok law ht hagree heach
  rw [Nat.zero_add] at haffected
  split at h <;> obtain ⟨rfl, rfl⟩ := Prod.mk.inj h
  · exact .inr ⟨rfl, _, rfl⟩
  · exact .inl ⟨hmem, fun n hn => by cases hn⟩
  · exact .inl ⟨hmem, fun n hn => (Except.ok.inj hn).symm.trans haffected⟩

end

end CandleFormats

end AutoTrader.Sim
