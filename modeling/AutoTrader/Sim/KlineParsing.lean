import AutoTrader.Sim.Fetch

/-!
# What is read of klines

`decimalToMilli` gives the price in milli units, or says why there is none, of every decimal whose thousandfold is
below `2 ^ 96`; of a larger one it panics. So the entries that `parseKlines` returns are the readable ones just
when it comes to no such price (`kline_reading_iff`).
-/

namespace AutoTrader.Sim

open Lib

variable {D : Type}

/-! ## One price -/

section

variable (ops : DecimalOps D)

/-- The thousandfold is too large to be a decimal. -/
def TooLarge (d : D) : Prop := 2 ^ 96 ≤ |ops.value d * 1000|

/-- The value of a decimal in milli units. -/
def IsMilli (d : D) (m : Int64) : Prop := ops.value d = m.toInt / 1000

/-- The price in milli units, or the reason that there is none. -/
def MilliRead (d : D) : Prop := ∃ result, decimalToMilli ops d = .ok result ∧
  (∀ m, result = .ok m ↔ IsMilli ops d m) ∧
  ((∃ scaled, result = .error (.fractional scaled)) ↔ ¬∃ n : Int, ops.value d * 1000 = n) ∧
  (result = .error .overflow ↔ ∃ n : Int, ops.value d * 1000 = n ∧ ¬Fits n)

end

section

variable {ops : DecimalOps D} {d : D}

theorem isMilli_iff {m : Int64} : IsMilli ops d m ↔ ops.value d * 1000 = (m.toInt : Rat) := by
  unfold IsMilli
  constructor
  · intro h
    rw [h]
    ring
  · intro h
    rw [← h]
    ring

theorem not_tooLarge_of_isMilli {m : Int64} (h : IsMilli ops d m) : ¬TooLarge ops d := by
  intro hlarge
  have hlo := m.le_toInt
  have hhi := m.toInt_lt
  rw [TooLarge, isMilli_iff.mp h, ← Int.cast_abs] at hlarge
  have habs : (2 ^ 96 : Int) ≤ |m.toInt| := by exact_mod_cast hlarge
  rcases le_abs.mp habs with hpos | hneg
  · omega
  · omega

/-! The three results for a product that is not refused. -/

section

variable {scaled : D} (hmul : ops.mul d (ops.fromInt 1000) = some scaled)

include hmul

theorem decimalToMilli_fractional (hzero : ops.isZero (ops.fract scaled) = false) :
    decimalToMilli ops d = .ok (.error (.fractional scaled)) := by
  simp [decimalToMilli, multiply, hmul, hzero]

theorem decimalToMilli_overflow (hzero : ops.isZero (ops.fract scaled) = true) (hi : ops.toI64 scaled = none) :
    decimalToMilli ops d = .ok (.error .overflow) := by
  simp [decimalToMilli, multiply, hmul, hzero, hi]

theorem decimalToMilli_ok {m : Int64} (hzero : ops.isZero (ops.fract scaled) = true)
    (hi : ops.toI64 scaled = some m) : decimalToMilli ops d = .ok (.ok m) := by
  simp [decimalToMilli, multiply, hmul, hzero, hi]

end

variable (law : ops.Lawful)

include law

theorem value_thousand : ops.value (ops.fromInt 1000) = 1000 :=
  law.value_fromInt 1000 (by decide) (by decide)

theorem decimalToMilli_tooLarge (h : TooLarge ops d) :
    decimalToMilli ops d = .error .multiplicationOverflowed := by
  have hmul : ops.mul d (ops.fromInt 1000) = none := by
    refine law.mul_overflow _ _ ?_
    rw [value_thousand law]
    exact h
  unfold decimalToMilli multiply
  rw [hmul]

theorem exists_scaled (h : ¬TooLarge ops d) :
    ∃ scaled, ops.mul d (ops.fromInt 1000) = some scaled ∧ ops.value scaled = ops.value d * 1000 := by
  obtain ⟨scaled, hmul, hvalue⟩ := law.mul_exact d (ops.fromInt 1000) (by
    rw [value_thousand law]
    exact (law.bounded d).mul_thousand (not_le.mp h))
  exact ⟨scaled, hmul, by rw [hvalue, value_thousand law]⟩

theorem isZero_fract (d : D) : ops.isZero (ops.fract d) = true ↔ ∃ n : Int, ops.value d = n := by
  rw [law.isZero_iff, law.value_fract, sub_eq_zero, eq_comm, truncate_eq_self_iff]

theorem milliRead_of_not_tooLarge (h : ¬TooLarge ops d) : MilliRead ops d := by
  obtain ⟨scaled, hmul, hvalue⟩ := exists_scaled law h
  by_cases hwhole : ∃ n : Int, ops.value d * 1000 = n
  · obtain ⟨n, hn⟩ := hwhole
    have hzero : ops.isZero (ops.fract scaled) = true := (isZero_fract law scaled).mpr ⟨n, hvalue.trans hn⟩
    have htrunc : truncate (ops.value scaled) = (n : Rat) := by
      rw [hvalue, hn]
      exact truncate_intCast n
    rcases hi : ops.toI64 scaled with _ | m
    · have hread := decimalToMilli_overflow hmul hzero hi
      have hnot : ∀ m : Int64, ops.value d * 1000 ≠ (m.toInt : Rat) := by
        intro m hm
        have hsome := (law.toI64_iff scaled m).mpr (by rw [htrunc, ← hn, hm])
        rw [hi] at hsome
        exact absurd hsome.symm (Option.some_ne_none m)
      refine ⟨.error .overflow, hread, fun m => ?_, ?_, ?_⟩
      · rw [isMilli_iff]
        exact ⟨fun heq => (by cases heq), fun heq => absurd heq (hnot m)⟩
      · exact ⟨fun ⟨_, heq⟩ => (by cases heq), fun hno => absurd ⟨n, hn⟩ hno⟩
      · refine ⟨fun _ => ⟨n, hn, fun hfits => ?_⟩, fun _ => rfl⟩
        refine hnot (Int64.ofInt n) ?_
        rw [hn, Int64.toInt_ofInt_of_le hfits.1 hfits.2]
    · have hread := decimalToMilli_ok hmul hzero hi
      have hm : (n : Rat) = (m.toInt : Rat) := htrunc ▸ (law.toI64_iff scaled m).mp hi
      have hnm : n = m.toInt := by exact_mod_cast hm
      refine ⟨.ok m, hread, fun m' => ?_, ?_, ?_⟩
      · rw [isMilli_iff, hn, hnm, Int.cast_inj, Int64.toInt_inj]
        exact ⟨fun heq => Except.ok.inj heq, fun heq => congrArg Except.ok heq⟩
      · exact ⟨fun ⟨_, heq⟩ => (by cases heq), fun hno => absurd ⟨n, hn⟩ hno⟩
      · refine ⟨fun heq => (by cases heq), fun ⟨n', hn', hnot⟩ => absurd ?_ hnot⟩
        have hnn : n = n' := by exact_mod_cast hn.symm.trans hn'
        rw [← hnn, hnm]
        exact fits_toInt m
  · have hzero : ops.isZero (ops.fract scaled) = false := by
      rw [← Bool.not_eq_true, isZero_fract law, hvalue]
      exact hwhole
    have hread := decimalToMilli_fractional hmul hzero
    refine ⟨.error (.fractional scaled), hread, fun m => ?_, ?_, ?_⟩
    · rw [isMilli_iff]
      exact ⟨fun heq => (by cases heq), fun heq => absurd ⟨_, heq⟩ hwhole⟩
    · exact ⟨fun _ => hwhole, fun _ => ⟨scaled, rfl⟩⟩
    · exact ⟨fun heq => (by cases heq), fun ⟨n, hn, _⟩ => absurd ⟨n, hn⟩ hwhole⟩

theorem milliRead_iff : MilliRead ops d ↔ ¬TooLarge ops d := by
  constructor
  · rintro ⟨result, hread, -⟩ hlarge
    rw [decimalToMilli_tooLarge law hlarge] at hread
    cases hread
  · exact milliRead_of_not_tooLarge law

theorem decimalToMilli_milliToDecimal (v : Int64) :
    decimalToMilli ops (milliToDecimal ops v) = .ok (.ok v) := by
  have hmilli : IsMilli ops (milliToDecimal ops v) v := by
    have hv := law.value_new v.toInt 3 (fits_toInt v) (by decide)
    rw [IsMilli, milliToDecimal, hv]
    norm_num
  obtain ⟨result, hread, hok, -⟩ := milliRead_of_not_tooLarge law (not_tooLarge_of_isMilli hmilli)
  rw [hread, (hok v).mpr hmilli]

end

/-! ## One text -/

section

variable (ops : DecimalOps D)

/-- The text of a milli price. -/
def PriceOf (s : String) (m : Int64) : Prop := ∃ d, ops.fromStr s = some d ∧ IsMilli ops d m

/-- The text of a price too large to be scaled. -/
def Aborts (s : String) : Prop := ∃ d, ops.fromStr s = some d ∧ TooLarge ops d

/-- The text of an open time in whole seconds. -/
def OpenTimeOf (s : String) (openTime : Int) : Prop :=
  ∃ ms, parseI64 s = some ms ∧ 0 ≤ ms ∧ ms = 1000 * openTime

/-- Read in this order, the texts come to one whose price is too large. -/
def AbortsIn : List String → Prop
  | [] => False
  | s :: rest => Aborts ops s ∨ (∃ m, PriceOf ops s m) ∧ AbortsIn rest

/-- The price texts of an entry, in the order they are read. -/
def KlineRaw.prices (raw : KlineRaw) : List String := [raw.opening, raw.high, raw.low, raw.close]

/-- The entry that a kline was read from. -/
structure Reads (raw : KlineRaw) (kline : Kline) : Prop where
  openTime : OpenTimeOf raw.openTime kline.openTime
  opening : PriceOf ops raw.opening kline.opening
  high : PriceOf ops raw.high kline.high
  low : PriceOf ops raw.low kline.low
  close : PriceOf ops raw.close kline.close

/-- The entry panics: its open time is good and a price is too large. -/
def AbortsAt (raw : KlineRaw) : Prop := (∃ openTime, OpenTimeOf raw.openTime openTime) ∧ AbortsIn ops raw.prices

/-- The klines are those of the readable entries, in their order. -/
inductive Keeps : List KlineRaw → List Kline → Prop where
  | nil : Keeps [] []
  | read {raw rest kline klines} : Reads ops raw kline → Keeps rest klines → Keeps (raw :: rest) (kline :: klines)
  | skip {raw rest klines} : (∀ kline, ¬Reads ops raw kline) → Keeps rest klines → Keeps (raw :: rest) klines

/-- The list is parsed, and every good entry is kept. -/
def KlinesRead (raws : List KlineRaw) : Prop := ∃ klines, parseKlines ops raws = .ok klines ∧ Keeps ops raws klines

end

theorem parseOpenTime_eq_some {s : String} {openTime : Int} :
    parseOpenTime s = some openTime ↔ OpenTimeOf s openTime := by
  unfold parseOpenTime OpenTimeOf
  rcases parseI64 s with _ | ms
  · simp
  · by_cases hbad : ms < 0 ∨ ms % 1000 ≠ 0
    · simp only [if_pos hbad, Option.some.injEq, exists_eq_left']
      constructor
      · intro h
        exact absurd h.symm (Option.some_ne_none _)
      · rintro ⟨hnn, hms⟩
        omega
    · simp only [if_neg hbad, Option.some.injEq, exists_eq_left']
      omega

/-! ## Reading in sequence -/

/-- A reading that panics. -/
def Read.Panics {α : Type} (x : Read α) : Prop := ∃ panic, x = .error panic

theorem Read.andThen_eq_some {α β : Type} {x : Read α} {f : α → Read β} {b : β} :
    Read.andThen x f = .ok (some b) ↔ ∃ a, x = .ok (some a) ∧ f a = .ok (some b) := by
  rcases x with panic | (_ | a)
  · simp [Read.andThen]
  · simp [Read.andThen]
  · simp [Read.andThen]

theorem Read.andThen_panics {α β : Type} {x : Read α} {f : α → Read β} :
    (Read.andThen x f).Panics ↔ x.Panics ∨ ∃ a, x = .ok (some a) ∧ (f a).Panics := by
  rcases x with panic | (_ | a)
  · simp [Read.andThen, Read.Panics]
  · simp [Read.andThen, Read.Panics]
  · simp [Read.andThen, Read.Panics]

theorem Read.not_panics_some {α : Type} (a : α) : ¬Read.Panics (.ok (some a)) := by
  rintro ⟨panic, h⟩
  cases h

section

variable {ops : DecimalOps D} (law : ops.Lawful)

include law

theorem decimalStrToMilli_eq_some {s : String} {m : Int64} :
    decimalStrToMilli ops s = .ok (some m) ↔ PriceOf ops s m := by
  unfold decimalStrToMilli PriceOf
  rcases ops.fromStr s with _ | d
  · simp
  · simp only [Option.some.injEq, exists_eq_left']
    by_cases hlarge : TooLarge ops d
    · rw [decimalToMilli_tooLarge law hlarge]
      constructor
      · intro h
        cases h
      · intro h
        exact absurd hlarge (not_tooLarge_of_isMilli h)
    · obtain ⟨result, hread, hok, -⟩ := milliRead_of_not_tooLarge law hlarge
      rw [hread, ← hok]
      rcases result with reason | m'
      · simp
      · simp

theorem decimalStrToMilli_panics {s : String} : (decimalStrToMilli ops s).Panics ↔ Aborts ops s := by
  unfold decimalStrToMilli Aborts Read.Panics
  rcases ops.fromStr s with _ | d
  · simp
  · simp only [Option.some.injEq, exists_eq_left']
    by_cases hlarge : TooLarge ops d
    · rw [decimalToMilli_tooLarge law hlarge]
      exact ⟨fun _ => hlarge, fun _ => ⟨_, rfl⟩⟩
    · obtain ⟨result, hread, -⟩ := milliRead_of_not_tooLarge law hlarge
      rw [hread]
      rcases result with reason | m'
      · simp [hlarge]
      · simp [hlarge]

/-! ## Entries -/

theorem parseKline_eq_some {raw : KlineRaw} {kline : Kline} :
    parseKline ops raw = .ok (some kline) ↔ Reads ops raw kline := by
  unfold parseKline
  rcases htime : parseOpenTime raw.openTime with _ | openTime
  · refine ⟨fun h => (by cases h), fun h => ?_⟩
    rw [parseOpenTime_eq_some.mpr h.openTime] at htime
    exact absurd htime (Option.some_ne_none _)
  · simp only [Read.andThen_eq_some, decimalStrToMilli_eq_some law]
    constructor
    · rintro ⟨opening, hopening, high, hhigh, low, hlow, close, hclose, heq⟩
      have hkline : kline = ⟨openTime, opening, high, low, close⟩ := by
        simpa using heq.symm
      subst hkline
      exact ⟨parseOpenTime_eq_some.mp htime, hopening, hhigh, hlow, hclose⟩
    · intro h
      have heq : kline.openTime = openTime := by
        have h' := parseOpenTime_eq_some.mpr h.openTime
        rw [htime] at h'
        exact (Option.some.inj h').symm
      exact ⟨_, h.opening, _, h.high, _, h.low, _, h.close, by rw [← heq]⟩

theorem parseKline_panics {raw : KlineRaw} : (parseKline ops raw).Panics ↔ AbortsAt ops raw := by
  unfold parseKline AbortsAt KlineRaw.prices
  rcases htime : parseOpenTime raw.openTime with _ | openTime
  · have hnone : ∀ openTime, ¬OpenTimeOf raw.openTime openTime := by
      intro openTime h
      rw [parseOpenTime_eq_some.mpr h] at htime
      exact absurd htime (Option.some_ne_none _)
    constructor
    · rintro ⟨panic, h⟩
      cases h
    · rintro ⟨⟨openTime, h⟩, -⟩
      exact absurd h (hnone openTime)
  · have htimeOf : ∃ openTime, OpenTimeOf raw.openTime openTime := ⟨openTime, parseOpenTime_eq_some.mp htime⟩
    simp only [Read.andThen_panics, decimalStrToMilli_eq_some law, decimalStrToMilli_panics law,
      Read.not_panics_some, htimeOf, AbortsIn, true_and, and_false, exists_false, or_false]
    simp only [← exists_and_right]

/-! ## Lists of entries -/

omit law in
theorem parseKlines_panic {raw : KlineRaw} {rest : List KlineRaw} {panic : Panic}
    (h : parseKline ops raw = .error panic) : parseKlines ops (raw :: rest) = .error panic := by
  simp only [parseKlines, h]

omit law in
theorem parseKlines_skip {raw : KlineRaw} {rest : List KlineRaw} (h : parseKline ops raw = .ok none) :
    parseKlines ops (raw :: rest) = parseKlines ops rest := by
  simp only [parseKlines, h]

omit law in
theorem parseKlines_read {raw : KlineRaw} {rest : List KlineRaw} {kline : Kline}
    (h : parseKline ops raw = .ok (some kline)) :
    parseKlines ops (raw :: rest) = (parseKlines ops rest).map (kline :: ·) := by
  simp only [parseKlines, h]
  rcases parseKlines ops rest with panic | klines
  · rfl
  · rfl

theorem keeps_of_parseKlines {raws : List KlineRaw} {klines : List Kline}
    (h : parseKlines ops raws = .ok klines) : Keeps ops raws klines := by
  induction raws generalizing klines with
  | nil =>
    cases h
    exact .nil
  | cons raw rest ih =>
    rcases hraw : parseKline ops raw with panic | (_ | kline)
    · rw [parseKlines_panic hraw] at h
      cases h
    · rw [parseKlines_skip hraw] at h
      refine .skip (fun kline hread => ?_) (ih h)
      rw [(parseKline_eq_some law).mpr hread] at hraw
      cases hraw
    · rw [parseKlines_read hraw] at h
      rcases hrest : parseKlines ops rest with panic | klines'
      · rw [hrest] at h
        cases h
      · rw [hrest] at h
        cases h
        exact .read ((parseKline_eq_some law).mp hraw) (ih hrest)

theorem parseKlines_ok_iff {raws : List KlineRaw} :
    (∃ klines, parseKlines ops raws = .ok klines) ↔ ∀ raw ∈ raws, ¬AbortsAt ops raw := by
  induction raws with
  | nil => exact ⟨fun _ => by simp, fun _ => ⟨[], rfl⟩⟩
  | cons raw rest ih =>
    rw [List.forall_mem_cons, ← ih, ← parseKline_panics law, Read.Panics]
    rcases hraw : parseKline ops raw with panic | (_ | kline)
    · rw [parseKlines_panic hraw]
      constructor
      · rintro ⟨klines, h⟩
        cases h
      · rintro ⟨hno, -⟩
        exact absurd ⟨panic, rfl⟩ hno
    · simp [parseKlines_skip hraw]
    · rcases hrest : parseKlines ops rest with panic | klines
      · simp [parseKlines_read hraw, hrest, Except.map]
      · simp [parseKlines_read hraw, hrest, Except.map]

theorem klinesRead_iff {raws : List KlineRaw} : KlinesRead ops raws ↔ ∀ raw ∈ raws, ¬AbortsAt ops raw := by
  rw [← parseKlines_ok_iff law]
  constructor
  · rintro ⟨klines, h, -⟩
    exact ⟨klines, h⟩
  · rintro ⟨klines, h⟩
    exact ⟨klines, h, keeps_of_parseKlines law h⟩

/-! ## The reading of klines -/

theorem kline_reading_iff :
    (∀ d, MilliRead ops d ↔ ¬TooLarge ops d) ∧
      (∀ v, decimalToMilli ops (milliToDecimal ops v) = .ok (.ok v)) ∧
      ∀ raws, KlinesRead ops raws ↔ ∀ raw ∈ raws, ¬AbortsAt ops raw :=
  ⟨fun _ => milliRead_iff law, decimalToMilli_milliToDecimal law, fun _ => klinesRead_iff law⟩

end

/-- Reads the decimals of a few texts. -/
def sampleRead : String → Option ExactDecimal
  | "150.125" => some (.ofRat (150125 / 1000))
  | "151.250" => some (.ofRat (151250 / 1000))
  | "79228162514264337593543950335" => some (.ofRat (2 ^ 96 - 1))
  | _ => none

/-- Exact decimals that read the sample texts. -/
def sampleOps : DecimalOps ExactDecimal := exactDecimal sampleRead

/-- An entry with the given open. -/
def sampleKline (opening : String) : KlineRaw := ⟨"0", opening, "150.125", "150.125", "150.125"⟩

theorem sampleKline_reading :
    (∀ d, MilliRead sampleOps d ↔ ¬TooLarge sampleOps d) ∧
      (∀ v, decimalToMilli sampleOps (milliToDecimal sampleOps v) = .ok (.ok v)) ∧
      ∀ raws, KlinesRead sampleOps raws ↔ ∀ raw ∈ raws, ¬AbortsAt sampleOps raw :=
  kline_reading_iff (exactDecimal_lawful sampleRead)

/-- The largest decimal stops the reading of a list that has it as a price. -/
theorem sampleKline_panics :
    parseKlines sampleOps [sampleKline "79228162514264337593543950335"] = .error .multiplicationOverflowed ∧
      ¬KlinesRead sampleOps [sampleKline "79228162514264337593543950335"] := by
  have hpanic : parseKlines sampleOps [sampleKline "79228162514264337593543950335"] =
      .error .multiplicationOverflowed := by decide +kernel
  refine ⟨hpanic, ?_⟩
  rintro ⟨klines, h, -⟩
  rw [hpanic] at h
  cases h

end AutoTrader.Sim
