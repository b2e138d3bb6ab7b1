import AutoTrader.Sim.BackfillRuns

/-!
# What backfills store

As long as the API answers a date with the same klines each time, and dates that share an open time agree on its bar,
backfills converge in every interleaving: the stored bars are bars of their dates, one that is stored stays, and a
command that exits with code 0 has stored all bars of its dates (`backfills_converge`). So a command that is run again
for the same dates, after some of them failed, fills the gaps.
-/

namespace AutoTrader.Sim

open Lib (Config ExactDecimal History Input Label Step)
open Lib.Prog (Meets)

variable {D : Type}

/-! ## The bars of a date -/

section

variable (client : GmoKlineClient) (f : FetchFormats D) (source : String → List KlineRaw)

/-- The bars of the klines that the API has for a date, if they can be read. -/
def dayBars (date : NaiveDate) : List Bar :=
  match parseKlines f.ops (source (client.url f date .bid)), parseKlines f.ops (source (client.url f date .ask)) with
  | .ok bid, .ok ask => (joinAndValidate bid ask).bars
  | _, _ => []

/-- Dates that share an open time agree on its bar. -/
def OneBar : Prop :=
  ∀ date date', ∀ b ∈ dayBars client f source date, ∀ c ∈ dayBars client f source date',
    b.openTime = c.openTime → b = c

/-- Every stored row is that of a bar of a date of some command. -/
def Dated (ranges : Nat → DateRange) (t : CandleTable D) : Prop :=
  ∀ row ∈ t.rows, ∃ i, ∃ date ∈ ranges i, ∃ b ∈ dayBars client f source date, row = f.rowOf b

/-- What a command has fetched is what the API has, and what it has saved is stored. -/
structure FetchPhase.Kept (p : FetchPhase) (t : CandleTable D) : Prop where
  fetched : ∀ url data, (url, data) ∈ p.fetched → data = source url
  saved : ∀ bars ∈ p.saved, ∀ b ∈ bars, f.rowOf b ∈ t.rows

variable {client f source} {ranges : Nat → DateRange} {p : FetchPhase} {t t' : CandleTable D} {date : NaiveDate}

theorem bars_joinAndValidate (bid ask : List Kline) :
    (joinAndValidate bid ask).bars = (distinctTimes bid ask).filterMap (barAt bid ask) := by
  have hfold := foldl_joinAt ⟨[], 0, 0⟩ fun t (ht : t ∈ distinctTimes bid ask) => (mem_distinctTimes bid ask).mp ht
  rw [joinAndValidate_eq]
  exact hfold.1

theorem dayBars_sound {b : Bar} (hb : b ∈ dayBars client f source date) : b.Sound := by
  unfold dayBars at hb
  split at hb
  · rw [bars_joinAndValidate, mem_filterMap_barAt] at hb
    exact isValidPair_sound hb.2.2
  · cases hb

theorem Dated.stores (h : Dated client f source ranges t) : f.Stores t := fun row hrow => by
  obtain ⟨_, _, -, b, -, rfl⟩ := h row hrow
  exact ⟨b, rfl⟩

theorem FetchPhase.Kept.mono (h : p.Kept f source t) (hrows : t.rows ⊆ t'.rows) : p.Kept f source t' where
  fetched := h.fetched
  saved bars hbars b hb := hrows (h.saved bars hbars b hb)

/-- What is joined from the answers is the bars of the date. -/
theorem FetchPhase.Kept.joins {outcome : JoinOutcome} (h : p.Kept f source t)
    (hjoins : p.Joins client f date outcome) : outcome.bars = dayBars client f source date := by
  obtain ⟨bid, ask, ⟨data, hdata, hbid⟩, ⟨data', hdata', hask⟩, rfl⟩ := hjoins
  rw [h.fetched _ _ hdata] at hbid
  rw [h.fetched _ _ hdata'] at hask
  unfold dayBars
  rw [hbid, hask]

/-! ## What a step keeps -/

theorem upsert_kept (law : f.ops.Lawful) (hone : OneBar client f source) {i : Nat} (hdate : date ∈ ranges i)
    (ht : Dated client f source ranges t) {fate : CandleFormats.TxFate} {r : Except StoreError Nat}
    (h : f.upsertBars (dayBars client f source date) fate t = (r, t')) :
    Dated client f source ranges t' ∧ t.rows ⊆ t'.rows ∧
      ∀ n, r = .ok n → ∀ b ∈ dayBars client f source date, f.rowOf b ∈ t'.rows := by
  have hagree : CandleFormats.Agree f.toCandleFormats (dayBars client f source date) t := by
    refine ⟨fun b hb c hc heq => hone date date b hb c hc heq, fun b hb c hc heq => ?_⟩
    obtain ⟨_, date', -, c', hc', hrow⟩ := ht _ hc
    obtain rfl := CandleFormats.rowOf_inj law hrow
    exact hone date date' b hb c hc' heq
  rcases CandleFormats.upsertBars_ok law ht.stores hagree h with ⟨hrows, -⟩ | ⟨rfl, e, rfl⟩
  · refine ⟨fun row hrow => ?_, fun row hrow => (hrows row).mpr (.inl hrow),
      fun n _ b hb => (hrows _).mpr (.inr ⟨b, hb, rfl⟩)⟩
    rcases (hrows row).mp hrow with hrow | ⟨b, hb, rfl⟩
    · exact ht row hrow
    · exact ⟨i, date, hdate, b, hb, rfl⟩
  · exact ⟨ht, List.Subset.refl _, fun n hn => by cases hn⟩

/-- An answered call that the protocol allows. -/
theorem call_kept (law : f.ops.Lawful) (hone : OneBar client f source) {w w' : FetchWorld D} {c : FetchCall}
    {r : c.Ret} {i : Nat} (hw : Dated client f source ranges w.candles) (hp : p.Kept f source w.candles)
    (hallowed : (fetchProtocol client f (ranges i)).allowed p c) (h : w.Answers f source c r w') :
    Dated client f source ranges w'.candles ∧ w.candles.rows ⊆ w'.candles.rows ∧
      (p.next c r).Kept f source w'.candles := by
  cases c with
  | get url =>
    obtain ⟨hdata, rfl⟩ := h
    refine ⟨hw, List.Subset.refl _, ?_⟩
    cases r with
    | body status data =>
      simp only [FetchPhase.next]
      by_cases hstatus : status = 0
      · subst hstatus
        rw [if_pos rfl]
        refine ⟨fun url' data' hin => ?_, hp.saved⟩
        rcases List.mem_cons.mp hin with heq | hin
        · obtain ⟨rfl, rfl⟩ := Prod.mk.inj heq
          exact hdata _ rfl
        · exact hp.fetched url' data' hin
      · rw [if_neg hstatus]
        exact hp
    | _ => exact hp
  | upsertBars bars =>
    obtain ⟨fate, t, hupsert, rfl⟩ := h
    obtain ⟨date, hdate, outcome, hjoins, rfl⟩ := hallowed
    have hbars := hp.joins hjoins
    rw [hbars] at hupsert
    obtain ⟨hdated, hrows, hstored⟩ := upsert_kept law hone hdate hw hupsert
    refine ⟨hdated, hrows, ?_⟩
    cases r with
    | error e => exact hp.mono hrows
    | ok n =>
      refine ⟨hp.fetched, fun bars hin b hb => ?_⟩
      rcases List.mem_cons.mp hin with rfl | hin
      · exact hstored n rfl b (hbars ▸ hb)
      · exact hrows (hp.saved bars hin b hb)
  | now =>
    obtain ⟨-, rfl⟩ := h
    exact ⟨hw, List.Subset.refl _, hp⟩
  | sleepUntil deadline =>
    obtain ⟨-, rfl⟩ := h
    exact ⟨hw, List.Subset.refl _, hp⟩
  | prepare | buildHttp | printBackfill report =>
    obtain rfl : w' = w := h
    exact ⟨hw, List.Subset.refl _, hp⟩

/-! ## What a run keeps -/

variable (client f source ranges) in
/-- What holds in every state of a run. -/
structure FetchRun.Kept (h : FetchRun D) : Prop where
  dated : Dated client f source ranges h.world.candles
  phases : ∀ i,
    (h.phases (fetchProtocol client f (ranges i)) (fun _ => FetchPhase.start) i).Kept f source h.world.candles

theorem FetchRun.Kept.step (law : f.ops.Lawful) (hone : OneBar client f source) {h : FetchRun D}
    {l : Label FetchCalls Nat} {c : Config FetchCalls (FetchWorld D) (Except Panic Nat)}
    (hv : FetchRun.Of client f source ranges h) (hk : FetchRun.Kept client f source ranges h)
    (hs : Step (fetchSys f source) h.last l c) :
    FetchRun.Kept client f source ranges (.step h l c) ∧ h.world.candles.rows ⊆ c.world.candles.rows := by
  cases l with
  | move elapsed =>
    have hmove : c.world = { h.world with clock := h.world.clock + elapsed } := hs.1
    have hsame : c.world.candles = h.world.candles := by rw [hmove]
    refine ⟨⟨?_, fun i => ?_⟩, by rw [hsame]; exact List.Subset.refl _⟩
    · rw [History.world_step, hsame]
      exact hk.dated
    · rw [History.world_step, hsame]
      exact hk.phases i
  | call i q r =>
    have hallowed : (fetchProtocol client f (ranges i)).allowed
        (h.phases (fetchProtocol client f (ranges i)) (fun _ => FetchPhase.start) i) q :=
      @History.Valid.allowed _ _ _ _ _ _ (fetchStart client f ranges) (fetchProtocol client f (ranges i))
        (fun _ => .start)
        _ i (fetchStart_meets ranges i) h hv q r c hs
    obtain ⟨hdated, hrows, hkept⟩ := call_kept law hone hk.dated (hk.phases i) hallowed hs.1
    refine ⟨⟨hdated, fun j => ?_⟩, hrows⟩
    by_cases hij : j = i
    · subst hij
      rw [History.phases_call]
      exact hkept
    · rw [History.phases_call_ne _ _ _ _ hij]
      exact (hk.phases j).mono hrows

theorem FetchRun.kept (law : f.ops.Lawful) (hone : OneBar client f source) {h : FetchRun D}
    (hv : FetchRun.Of client f source ranges h) :
    FetchRun.Kept client f source ranges h ∧
      h.Steps fun before _ c => before.world.candles.rows ⊆ c.world.candles.rows := by
  refine History.Valid.invariant
    (J := fun h => FetchRun.Kept client f source ranges h ∧
      h.Steps fun before _ c => before.world.candles.rows ⊆ c.world.candles.rows)
    (P := fun _ _ _ => True) ⟨⟨fun row hrow => ?_, fun i => ⟨fun url data hin => ?_, fun bars hin => ?_⟩⟩, trivial⟩
    (fun h l c hv _ hk hs _ => ?_) hv (History.Steps.of_forall (fun _ _ _ => trivial) h)
  · cases hrow
  · cases hin
  · cases hin
  · obtain ⟨hkept, hrows⟩ := hk.1.step law hone hv hs
    exact ⟨hkept, hk.2, hrows⟩

end

/-- In every state the stored bars are loaded in their order; each is a valid bar of a date of some command, and no
step loses one. A command that exited with code 0 has all bars of its dates stored, and where its dates cover those of
all commands, just these. -/
theorem backfills_converge {client : GmoKlineClient} {f : FetchFormats D} {source : String → List KlineRaw}
    {ranges : Nat → DateRange} {h : FetchRun D} (law : f.ops.Lawful) (hone : OneBar client f source)
    (hv : FetchRun.Of client f source ranges h) :
    (∃ bars, f.loadBars none h.world.candles = pure bars ∧ bars.Pairwise (·.openTime < ·.openTime) ∧
      (∀ b ∈ bars, b.Sound ∧ ∃ i, ∃ date ∈ ranges i, b ∈ dayBars client f source date) ∧
      ∀ i, h.last.thread i = .done (.ok 0) →
        (∀ date ∈ ranges i, dayBars client f source date ⊆ bars) ∧
        ((∀ j, ∀ date ∈ ranges j, date ∈ ranges i) →
          ∀ b, b ∈ bars ↔ ∃ date ∈ ranges i, b ∈ dayBars client f source date)) ∧
      h.Steps fun before _ c => before.world.candles.rows ⊆ c.world.candles.rows := by
  obtain ⟨hkept, hgrows⟩ := FetchRun.kept law hone hv
  have hall : ∀ limit ∈ (none : Option Int), (f.dateOf limit).isSome := fun _ hlimit => by cases hlimit
  obtain ⟨bars, hload, hsorted, hmem⟩ := CandleFormats.loadBars_ok law hkept.dated.stores hall
  have hstored (b : Bar) : b ∈ bars ↔ f.rowOf b ∈ h.world.candles.rows := by
    rw [hmem, Option.all_none, and_iff_left rfl]
  have hbar (b : Bar) (hb : b ∈ bars) : b.Sound ∧ ∃ i, ∃ date ∈ ranges i, b ∈ dayBars client f source date := by
    obtain ⟨i, date, hdate, c, hc, hrow⟩ := hkept.dated _ ((hstored b).mp hb)
    obtain rfl := CandleFormats.rowOf_inj law hrow
    exact ⟨dayBars_sound hc, i, date, hdate, hc⟩
  refine ⟨⟨bars, hload, hsorted, hbar, fun i hdone => ?_⟩, hgrows⟩
  have hmeets := @History.Valid.meets _ _ _ _ _ _ (fetchStart client f ranges) (fetchProtocol client f (ranges i))
    (fun _ => .start) _ i (fetchStart_meets ranges i) h hv
  rw [hdone] at hmeets
  have hsub (date : NaiveDate) (hdate : date ∈ ranges i) : dayBars client f source date ⊆ bars := fun b hb => by
    obtain ⟨outcome, hjoins, hsaved⟩ := hmeets rfl date hdate
    have hbars := (hkept.phases i).joins hjoins
    rcases hsaved with hnil | hin
    · rw [← hbars, hnil] at hb
      cases hb
    · exact (hstored b).mpr ((hkept.phases i).saved _ hin b (hbars ▸ hb))
  refine ⟨hsub, fun hcover b => ⟨fun hb => ?_, fun ⟨date, hdate, hb⟩ => hsub date hdate hb⟩⟩
  obtain ⟨-, j, date, hdate, hb⟩ := hbar b hb
  exact ⟨date, hcover j date hdate, hb⟩

/-! ## A run -/

/-- A call that is answered at once. -/
def FetchWorld.serve (f : FetchFormats D) (source : String → List KlineRaw) (w : FetchWorld D) :
    (c : FetchCall) → Option (c.Ret × FetchWorld D)
  | .now => some (w.clock, w)
  | .sleepUntil deadline => if deadline ≤ w.clock then some ((), w) else none
  | .get url => some (.body 0 (source url), w)
  | .upsertBars bars =>
    some ((f.upsertBars bars .committed w.candles).1,
      { w with candles := (f.upsertBars bars .committed w.candles).2 })
  | .prepare => some (.ok (), w)
  | .buildHttp => some (.ok (), w)
  | .printBackfill _ => some (.ok (), w)

theorem FetchWorld.serve_answers {f : FetchFormats D} {source : String → List KlineRaw} {w w' : FetchWorld D}
    {c : FetchCall} {r : c.Ret} (h : w.serve f source c = some (r, w')) : w.Answers f source c r w' := by
  cases c with
  | now | prepare | buildHttp | printBackfill report =>
    obtain ⟨rfl, rfl⟩ := Prod.mk.inj (Option.some.inj h)
    simp [Answers]
  | sleepUntil deadline =>
    obtain ⟨hdue, h⟩ := Option.ite_none_right_eq_some.mp h
    obtain ⟨-, rfl⟩ := Prod.mk.inj (Option.some.inj h)
    exact ⟨hdue, rfl⟩
  | get url =>
    obtain ⟨rfl, rfl⟩ := Prod.mk.inj (Option.some.inj h)
    exact ⟨fun data hdata => (KlineAnswer.body.inj hdata).2.symm, rfl⟩
  | upsertBars bars =>
    obtain ⟨rfl, rfl⟩ := Prod.mk.inj (Option.some.inj h)
    exact ⟨.committed, _, rfl, rfl⟩

/-- Two dates have their own texts. -/
def sampleDateText (date : NaiveDate) : String := if date = 20000 then "20241004" else "20241005"

/-- Formats that need no text. -/
def sampleFetchFormats : FetchFormats ExactDecimal := ⟨⟨sampleOps, fun _ => "", fun _ => some ""⟩, sampleDateText⟩

/-- A client without retries. -/
def sampleClient : GmoKlineClient := ⟨"", 0, []⟩

/-- The exchange has one entry for each of the two dates. -/
def sampleSource (url : String) : List KlineRaw :=
  if "20241004".toList <:+ url.toList then [sampleKline "150.125"]
  else [⟨"86400000", "151.250", "151.250", "151.250", "151.250"⟩]

/-- The entry of a date, and the bar that it makes. -/
def sampleDayKline (date : NaiveDate) : Kline :=
  if date = 20000 then ⟨0, 150125, 150125, 150125, 150125⟩ else ⟨86400, 151250, 151250, 151250, 151250⟩

/-- The bar of each sample date. -/
def sampleDayBar (date : NaiveDate) : Bar :=
  if date = 20000 then ⟨0, 150125, 150125, 150125, 150125, 150125, 150125, 150125, 150125⟩
  else ⟨86400, 151250, 151250, 151250, 151250, 151250, 151250, 151250, 151250⟩

/-- Two ranges that share a date. -/
def sampleRanges : Nat → DateRange
  | 0 => ⟨20000, 20001, by decide⟩
  | _ => ⟨20001, 20001, by decide⟩

/-- Two commands, one call after the other; a third one waits for the connection. -/
def sampleFetchInputs : List (Input FetchCalls (FetchWorld ExactDecimal) Nat) :=
  (List.replicate 13 [0, 1]).flatten.map fun i => .call i fun w c => w.serve sampleFetchFormats sampleSource c

/-- Two backfills of the ranges. -/
def sampleBackfill : FetchRun ExactDecimal :=
  Lib.play (fetchStart sampleClient sampleFetchFormats sampleRanges) sampleFetchInputs

theorem sampleBackfill_of : FetchRun.Of sampleClient sampleFetchFormats sampleSource sampleRanges sampleBackfill := by
  refine Lib.play_valid _ _ fun x hx => ?_
  obtain ⟨i, -, rfl⟩ := List.mem_map.mp hx
  exact fun w c r w' h => FetchWorld.serve_answers h

theorem sampleDayBars (date : NaiveDate) :
    dayBars sampleClient sampleFetchFormats sampleSource date = [sampleDayBar date] := by
  have hside (priceType : PriceType) : parseKlines sampleFetchFormats.ops
      (sampleSource (sampleClient.url sampleFetchFormats date priceType)) = .ok [sampleDayKline date] := by
    unfold GmoKlineClient.url sampleDayKline
    by_cases hdate : date = 20000
    · subst hdate
      cases priceType <;> decide +kernel
    · rw [show sampleFetchFormats.dateText date = "20241005" from if_neg hdate, if_neg hdate]
      cases priceType <;> decide +kernel
  have hjoin : (joinAndValidate [sampleDayKline date] [sampleDayKline date]).bars = [sampleDayBar date] := by
    unfold sampleDayKline sampleDayBar
    split <;> decide +kernel
  unfold dayBars
  rw [hside, hside]
  exact hjoin

theorem sampleDayBar_unique {date date' : NaiveDate}
    (h : (sampleDayBar date).openTime = (sampleDayBar date').openTime) : sampleDayBar date = sampleDayBar date' := by
  unfold sampleDayBar at h ⊢
  by_cases hdate : date = 20000 <;> by_cases hdate' : date' = 20000 <;> simp [hdate, hdate'] at h ⊢

/-- Whether a command has exited with code 0. -/
def FetchRun.exits (h : FetchRun D) (i : Nat) : Bool :=
  match h.last.thread i with
  | .done (.ok 0) => true
  | _ => false

example : sampleBackfill.exits 0 && sampleBackfill.exits 1 && !sampleBackfill.exits 2 := by decide +kernel

/-- The two dates have different bars, and the first command stores both. -/
theorem sampleBackfill_converges :
    (∃ bars, sampleFetchFormats.loadBars none sampleBackfill.world.candles = pure bars ∧
      bars.Pairwise (·.openTime < ·.openTime) ∧
      (∀ b ∈ bars, b.Sound ∧
        ∃ i, ∃ date ∈ sampleRanges i, b ∈ dayBars sampleClient sampleFetchFormats sampleSource date) ∧
      ∀ i, sampleBackfill.last.thread i = .done (.ok 0) →
        (∀ date ∈ sampleRanges i, dayBars sampleClient sampleFetchFormats sampleSource date ⊆ bars) ∧
        ((∀ j, ∀ date ∈ sampleRanges j, date ∈ sampleRanges i) →
          ∀ b, b ∈ bars ↔
            ∃ date ∈ sampleRanges i, b ∈ dayBars sampleClient sampleFetchFormats sampleSource date)) ∧
      sampleBackfill.Steps fun before _ c => before.world.candles.rows ⊆ c.world.candles.rows := by
  refine backfills_converge (Lib.exactDecimal_lawful sampleRead) (fun date date' b hb c hc htime => ?_)
    sampleBackfill_of
  rw [sampleDayBars, List.mem_singleton] at hb hc
  subst hb hc
  exact sampleDayBar_unique htime

end AutoTrader.Sim
