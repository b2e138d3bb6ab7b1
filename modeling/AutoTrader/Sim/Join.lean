import AutoTrader.Lib.Signed64
import AutoTrader.Sim.Bars
import Mathlib.Data.List.Destutter
import Mathlib.Data.List.Sort

/-!
# Joining bid and ask klines

`joinAndValidate` makes a bar of a bid and an ask kline of one open time, and counts the open times of which it
makes none. `joined` says which bars these are and how many times there are, by how often each side has the time
(`Joined`), whatever the order of the klines.
-/

namespace AutoTrader.Sim

open Lib (toInt_max toInt_min)

/-- The joined bars, with the counts of the times left out. -/
structure JoinOutcome where
  bars : List Bar
  oneSided : Nat
  invalid : Nat
  deriving DecidableEq, Repr

/-- The kline of each open time, and no kline for an open time that is repeated. -/
abbrev KlineMap := Std.TreeMap Int (Option Kline)

/-- The slot of an open time after one more kline of it. -/
def fillSlot (k : Kline) : Option (Option Kline) → Option (Option Kline)
  | some _ => some none
  | none => some (some k)

/-- The klines of one side by their open times. -/
def indexByOpenTime (klines : List Kline) : KlineMap :=
  klines.foldl (fun map k => map.alter k.openTime (fillSlot k)) ∅

/-- The open times of both sides, each once and in order. -/
def joinedTimes (bidMap askMap : KlineMap) : List Int :=
  ((bidMap.keys ++ askMap.keys).insertionSort (· ≤ ·)).destutter (· ≠ ·)

/-- The bar of two klines. -/
def barOf (t : Int) (b a : Kline) : Bar :=
  ⟨t, b.opening, b.high, b.low, b.close, a.opening, a.high, a.low, a.close⟩

/-- The time `t` is joined. -/
def joinAt (bidMap askMap : KlineMap) (out : JoinOutcome) (t : Int) : JoinOutcome :=
  match bidMap[t]?, askMap[t]? with
  | some none, _ => { out with invalid := out.invalid + 1 }
  | _, some none => { out with invalid := out.invalid + 1 }
  | some (some b), some (some a) =>
    if isValidPair b a then { out with bars := out.bars ++ [barOf t b a] }
    else { out with invalid := out.invalid + 1 }
  | _, _ => { out with oneSided := out.oneSided + 1 }

/-- The join of both sides. -/
def joinAndValidate (bid ask : List Kline) : JoinOutcome :=
  let bidMap := indexByOpenTime bid
  let askMap := indexByOpenTime ask
  (joinedTimes bidMap askMap).foldl (joinAt bidMap askMap) ⟨[], 0, 0⟩

/-! ## The klines of an open time -/

/-- The klines of a time. -/
def klinesAt (klines : List Kline) (t : Int) : List Kline := klines.filter (·.openTime = t)

/-- What the map has for an open time with these klines. -/
def slotOf : List Kline → Option (Option Kline)
  | [] => none
  | [k] => some (some k)
  | _ :: _ :: _ => some none

theorem slotOf_concat (ks : List Kline) (k : Kline) : slotOf (ks ++ [k]) = fillSlot k (slotOf ks) := by
  match ks with
  | [] => rfl
  | [_] => rfl
  | _ :: _ :: _ => rfl

theorem slotOf_perm {ks ks' : List Kline} (h : ks.Perm ks') : slotOf ks = slotOf ks' := by
  match ks, ks' with
  | [], ks' => rw [h.nil_eq]
  | [k], ks' => rw [← List.singleton_perm.mp h]
  | _ :: _ :: _, [] => exact absurd h.length_eq (by simp)
  | _ :: _ :: _, [_] => exact absurd h.length_eq (by simp)
  | _ :: _ :: _, _ :: _ :: _ => rfl

theorem slotOf_eq_none {ks : List Kline} : slotOf ks = none ↔ ks = [] := by
  match ks with
  | [] => simp [slotOf]
  | [_] => simp [slotOf]
  | _ :: _ :: _ => simp [slotOf]

theorem getElem?_indexByOpenTime (klines : List Kline) (t : Int) :
    (indexByOpenTime klines)[t]? = slotOf (klinesAt klines t) := by
  induction klines using List.reverseRecOn with
  | nil => simp [indexByOpenTime, klinesAt, slotOf]
  | append_singleton klines k ih =>
    rw [indexByOpenTime, List.foldl_append, ← indexByOpenTime, List.foldl_cons, List.foldl_nil,
      Std.TreeMap.getElem?_alter]
    by_cases hk : k.openTime = t
    · subst hk
      rw [if_pos (by simp), ih, klinesAt, klinesAt, List.filter_append, List.filter_singleton,
        decide_eq_true rfl, Bool.cond_true, slotOf_concat]
    · rw [if_neg (by simp [hk]), ih, klinesAt, klinesAt, List.filter_append, List.filter_singleton,
        decide_eq_false hk, Bool.cond_false, List.append_nil]

theorem mem_klinesAt {klines : List Kline} {t : Int} {k : Kline} :
    k ∈ klinesAt klines t ↔ k ∈ klines ∧ k.openTime = t := by
  simp [klinesAt]

theorem klinesAt_eq_nil {klines : List Kline} {t : Int} :
    klinesAt klines t = [] ↔ t ∉ klines.map (·.openTime) := by
  simp [klinesAt]

/-! ## The joined times -/

theorem mem_keys_indexByOpenTime {klines : List Kline} {t : Int} :
    t ∈ (indexByOpenTime klines).keys ↔ t ∈ klines.map (·.openTime) := by
  rw [Std.TreeMap.mem_keys, Std.TreeMap.mem_iff_isSome_getElem?, getElem?_indexByOpenTime,
    Option.isSome_iff_ne_none, Ne, slotOf_eq_none, klinesAt_eq_nil, not_not]

section
variable (bid ask : List Kline)

/-- The distinct open times, in ascending order. -/
def distinctTimes : List Int := joinedTimes (indexByOpenTime bid) (indexByOpenTime ask)

theorem distinctTimes_eq :
    distinctTimes bid ask =
      (((indexByOpenTime bid).keys ++ (indexByOpenTime ask).keys).insertionSort (· ≤ ·)).dedup :=
  (List.pairwise_insertionSort _ _).destutter_eq_dedup

theorem distinctTimes_ascending : (distinctTimes bid ask).Pairwise (· < ·) := by
  rw [distinctTimes_eq]
  have hsorted := (List.pairwise_insertionSort (· ≤ ·)
    ((indexByOpenTime bid).keys ++ (indexByOpenTime ask).keys)).sublist (List.dedup_sublist _)
  exact (hsorted.and (List.nodup_dedup _)).imp fun ⟨hle, hne⟩ => lt_of_le_of_ne hle hne

theorem mem_distinctTimes {t : Int} :
    t ∈ distinctTimes bid ask ↔ t ∈ (bid ++ ask).map (·.openTime) := by
  rw [distinctTimes_eq, List.mem_dedup, List.mem_insertionSort, List.mem_append, mem_keys_indexByOpenTime,
    mem_keys_indexByOpenTime, List.map_append, List.mem_append]

theorem distinctTimes_perm : (distinctTimes bid ask).Perm ((bid ++ ask).map (·.openTime)).dedup := by
  refine (List.perm_ext_iff_of_nodup ?_ (List.nodup_dedup _)).mpr fun t => ?_
  · exact (distinctTimes_ascending bid ask).imp fun h => ne_of_lt h
  · rw [mem_distinctTimes, List.mem_dedup]

end

theorem distinctTimes_congr {bid bid' ask ask' : List Kline} (hb : bid.Perm bid') (ha : ask.Perm ask') :
    distinctTimes bid ask = distinctTimes bid' ask' := by
  have hperm : (distinctTimes bid ask).Perm (distinctTimes bid' ask') :=
    (distinctTimes_perm bid ask).trans
      ((((hb.append ha).map _).dedup).trans (distinctTimes_perm bid' ask').symm)
  exact hperm.eq_of_pairwise (fun _ _ _ _ h h' => absurd h (lt_asymm h')) (distinctTimes_ascending bid ask)
    (distinctTimes_ascending bid' ask')

/-! ## The bars -/

/-- One side has one kline of the time, the other none. -/
def OneSided (bid ask : List Kline) (t : Int) : Prop :=
  (klinesAt bid t).length = 1 ∧ (klinesAt ask t).length = 0 ∨
    (klinesAt bid t).length = 0 ∧ (klinesAt ask t).length = 1

instance (bid ask : List Kline) (t : Int) : Decidable (OneSided bid ask t) :=
  inferInstanceAs (Decidable (_ ∨ _))

/-- The bar of an open time. -/
def barAt (bid ask : List Kline) (t : Int) : Option Bar :=
  match klinesAt bid t, klinesAt ask t with
  | [b], [a] => if isValidPair b a then some (barOf t b a) else none
  | _, _ => none

theorem bid_barOf {t : Int} {b a : Kline} (h : b.openTime = t) : (barOf t b a).bid = b := by
  subst h
  rfl

theorem ask_barOf {t : Int} {b a : Kline} (h : a.openTime = t) : (barOf t b a).ask = a := by
  subst h
  rfl

theorem barAt_eq_some {bid ask : List Kline} {t : Int} {bar : Bar} :
    barAt bid ask t = some bar ↔
      bar.openTime = t ∧ klinesAt bid t = [bar.bid] ∧ klinesAt ask t = [bar.ask] ∧
        isValidPair bar.bid bar.ask := by
  have hopen {klines : List Kline} {k : Kline} (h : klinesAt klines t = [k]) : k.openTime = t :=
    (mem_klinesAt.mp (h ▸ List.mem_singleton_self k)).2
  constructor
  · intro h
    unfold barAt at h
    split at h
    · rename_i b a hb ha
      obtain ⟨hvalid, hbar⟩ := Option.ite_none_right_eq_some.mp h
      obtain rfl := Option.some.inj hbar
      rw [bid_barOf (hopen hb), ask_barOf (hopen ha)]
      exact ⟨rfl, hb, ha, hvalid⟩
    · exact absurd h.symm (Option.some_ne_none _)
  · rintro ⟨rfl, hb, ha, hvalid⟩
    simp only [barAt, hb, ha]
    exact if_pos hvalid

variable {bid ask : List Kline} {t : Int}

/-- The times that the join has dealt with. -/
def JoinOutcome.total (out : JoinOutcome) : Nat := out.bars.length + out.oneSided + out.invalid

/-- Of an open time comes one bar, or it is counted once. -/
theorem joinAt_step (out : JoinOutcome) (ht : t ∈ (bid ++ ask).map (·.openTime)) :
    let next := joinAt (indexByOpenTime bid) (indexByOpenTime ask) out t
    next.bars = out.bars ++ (barAt bid ask t).toList ∧
      next.oneSided = out.oneSided + (if OneSided bid ask t then 1 else 0) ∧ next.total = out.total + 1 := by
  have hsome : klinesAt bid t = [] → klinesAt ask t ≠ [] := by
    rw [List.map_append, List.mem_append] at ht
    rw [klinesAt_eq_nil, Ne, klinesAt_eq_nil, not_not]
    exact ht.resolve_left
  dsimp only
  unfold joinAt barAt
  rw [getElem?_indexByOpenTime, getElem?_indexByOpenTime]
  match hb : klinesAt bid t, ha : klinesAt ask t with
  | [], [] => exact absurd ha (hsome hb)
  | [], [_] | [], _ :: _ :: _ | [_], [] | [_], _ :: _ :: _ | _ :: _ :: _, _ =>
    simp [slotOf, JoinOutcome.total, OneSided, hb, ha]
    try omega
  | [b], [a] =>
    cases hvalid : isValidPair b a with
    | true => simp [slotOf, JoinOutcome.total, OneSided, hb, ha, hvalid]; omega
    | false => simp [slotOf, JoinOutcome.total, OneSided, hb, ha, hvalid]; omega

/-- The same of a run over open times. -/
theorem foldl_joinAt {ts : List Int} (out : JoinOutcome) (hts : ∀ t ∈ ts, t ∈ (bid ++ ask).map (·.openTime)) :
    let last := ts.foldl (joinAt (indexByOpenTime bid) (indexByOpenTime ask)) out
    last.bars = out.bars ++ ts.filterMap (barAt bid ask) ∧
      last.oneSided = out.oneSided + ts.countP (fun t => OneSided bid ask t) ∧
      last.total = out.total + ts.length := by
  induction ts generalizing out with
  | nil => simp
  | cons t ts ih =>
    obtain ⟨hbars, hone, htotal⟩ := joinAt_step out (hts t List.mem_cons_self)
    obtain ⟨hbars', hone', htotal'⟩ := ih (joinAt (indexByOpenTime bid) (indexByOpenTime ask) out t)
      fun u hu => hts u (List.mem_cons_of_mem t hu)
    refine ⟨?_, ?_, ?_⟩
    · rw [List.foldl_cons, hbars', hbars, List.append_assoc, List.filterMap_cons]
      cases barAt bid ask t <;> simp
    · rw [List.foldl_cons, hone', hone, List.countP_cons]
      simp only [decide_eq_true_eq]
      omega
    · rw [List.foldl_cons, htotal', htotal, List.length_cons]
      omega

/-! ## Valid quotes -/

/-- The prices of a kline fit together. -/
structure Kline.Sound (k : Kline) : Prop where
  positive : 0 < k.opening ∧ 0 < k.high ∧ 0 < k.low ∧ 0 < k.close
  low_le : k.low ≤ k.opening ∧ k.low ≤ k.close
  le_high : k.opening ≤ k.high ∧ k.close ≤ k.high

/-- Both sides of a bar fit, and no ask is below its bid. -/
structure Bar.Sound (b : Bar) : Prop where
  bid : b.bid.Sound
  ask : b.ask.Sound
  bid_le_ask : b.bidOpen ≤ b.askOpen ∧ b.bidHigh ≤ b.askHigh ∧ b.bidLow ≤ b.askLow ∧ b.bidClose ≤ b.askClose

theorem isValidSide_sound {k : Kline} (h : isValidSide k = true) : k.Sound := by
  simp only [isValidSide, Bool.and_eq_true, Bool.not_eq_true', Bool.or_eq_false_iff, decide_eq_false_iff_not,
    Int64.not_le, Int64.not_lt] at h
  obtain ⟨⟨⟨⟨hopen, hhigh⟩, hlow⟩, hclose⟩, hmax, hmin⟩ := h
  rw [Int64.le_iff_toInt_le, toInt_max] at hmax
  rw [Int64.le_iff_toInt_le, toInt_min] at hmin
  refine ⟨⟨hopen, hhigh, hlow, hclose⟩, ?_, ?_⟩
  · rw [Int64.le_iff_toInt_le, Int64.le_iff_toInt_le]
    omega
  · rw [Int64.le_iff_toInt_le, Int64.le_iff_toInt_le]
    omega

theorem isValidPair_sound {b : Bar} (h : isValidPair b.bid b.ask = true) : b.Sound := by
  simp only [isValidPair, Bool.and_eq_true, Bool.not_eq_true', Bool.or_eq_false_iff, decide_eq_false_iff_not,
    Int64.not_lt] at h
  obtain ⟨⟨hbid, hask⟩, ⟨⟨hopen, hhigh⟩, hlow⟩, hclose⟩ := h
  exact ⟨isValidSide_sound hbid, isValidSide_sound hask, hopen, hhigh, hlow, hclose⟩

/-! ## The outcome -/

/-- What a join of these klines is. -/
structure Joined (bid ask : List Kline) (out : JoinOutcome) : Prop where
  ascending : out.bars.Pairwise (·.openTime < ·.openTime)
  mem_bars : ∀ bar, bar ∈ out.bars ↔
    klinesAt bid bar.openTime = [bar.bid] ∧ klinesAt ask bar.openTime = [bar.ask] ∧ isValidPair bar.bid bar.ask
  total : out.bars.length + out.oneSided + out.invalid = ((bid ++ ask).map (·.openTime)).dedup.length
  oneSided : out.oneSided = ((bid ++ ask).map (·.openTime)).dedup.countP fun t => OneSided bid ask t
  perm : ∀ bid' ask', bid.Perm bid' → ask.Perm ask' → joinAndValidate bid' ask' = out
  sound : ∀ bar ∈ out.bars, bar.Sound

theorem joinAndValidate_eq (bid ask : List Kline) :
    joinAndValidate bid ask =
      (distinctTimes bid ask).foldl (joinAt (indexByOpenTime bid) (indexByOpenTime ask)) ⟨[], 0, 0⟩ := rfl

theorem joinAt_congr {bid bid' ask ask' : List Kline} (hb : bid.Perm bid') (ha : ask.Perm ask') :
    joinAt (indexByOpenTime bid) (indexByOpenTime ask) = joinAt (indexByOpenTime bid') (indexByOpenTime ask') := by
  funext out t
  have hbid : (indexByOpenTime bid)[t]? = (indexByOpenTime bid')[t]? := by
    rw [getElem?_indexByOpenTime, getElem?_indexByOpenTime]
    exact slotOf_perm (hb.filter _)
  have hask : (indexByOpenTime ask)[t]? = (indexByOpenTime ask')[t]? := by
    rw [getElem?_indexByOpenTime, getElem?_indexByOpenTime]
    exact slotOf_perm (ha.filter _)
  unfold joinAt
  rw [hbid, hask]

theorem joinAndValidate_perm {bid bid' ask ask' : List Kline} (hb : bid.Perm bid') (ha : ask.Perm ask') :
    joinAndValidate bid ask = joinAndValidate bid' ask' := by
  rw [joinAndValidate_eq, joinAndValidate_eq, distinctTimes_congr hb ha, joinAt_congr hb ha]

theorem barAt_openTime {bid ask : List Kline} {t : Int} {bar : Bar} (h : barAt bid ask t = some bar) :
    bar.openTime = t :=
  (barAt_eq_some.mp h).1

theorem filterMap_barAt_ascending (bid ask : List Kline) {ts : List Int} (hts : ts.Pairwise (· < ·)) :
    (ts.filterMap (barAt bid ask)).Pairwise (·.openTime < ·.openTime) := by
  rw [List.pairwise_filterMap]
  refine hts.imp fun hlt bar hbar bar' hbar' => ?_
  rw [barAt_openTime hbar, barAt_openTime hbar']
  exact hlt

theorem mem_filterMap_barAt {bid ask : List Kline} {bar : Bar} :
    bar ∈ (distinctTimes bid ask).filterMap (barAt bid ask) ↔
      klinesAt bid bar.openTime = [bar.bid] ∧ klinesAt ask bar.openTime = [bar.ask] ∧
        isValidPair bar.bid bar.ask := by
  rw [List.mem_filterMap]
  constructor
  · rintro ⟨t, -, hbar⟩
    obtain ⟨rfl, h⟩ := barAt_eq_some.mp hbar
    exact h
  · intro h
    refine ⟨bar.openTime, ?_, barAt_eq_some.mpr ⟨rfl, h⟩⟩
    have hmem : bar.bid ∈ klinesAt bid bar.openTime := h.1 ▸ List.mem_singleton_self _
    rw [mem_distinctTimes, List.map_append, List.mem_append]
    exact Or.inl (List.mem_map_of_mem (mem_klinesAt.mp hmem).1)

theorem joined (bid ask : List Kline) : Joined bid ask (joinAndValidate bid ask) := by
  obtain ⟨hbars, hone, htotal⟩ :=
    foldl_joinAt ⟨[], 0, 0⟩ fun t (ht : t ∈ distinctTimes bid ask) => (mem_distinctTimes bid ask).mp ht
  rw [← joinAndValidate_eq, List.nil_append] at hbars
  rw [← joinAndValidate_eq, Nat.zero_add] at hone
  rw [← joinAndValidate_eq] at htotal
  have hperm := distinctTimes_perm bid ask
  have hmem (bar : Bar) : bar ∈ (joinAndValidate bid ask).bars ↔ _ := hbars ▸ mem_filterMap_barAt
  exact {
    ascending := hbars ▸ filterMap_barAt_ascending bid ask (distinctTimes_ascending bid ask)
    mem_bars := hmem
    total := by rw [← hperm.length_eq, ← Nat.zero_add (distinctTimes bid ask).length]; exact htotal
    oneSided := hone.trans (hperm.countP_eq _)
    perm := fun _ _ hb ha => (joinAndValidate_perm hb ha).symm
    sound := fun bar hbar => isValidPair_sound ((hmem bar).mp hbar).2.2 }

-- An inconsistent pair at 600, a repeated bid at 900 and an ask alone at 1200.
example :
    joinAndValidate
        [⟨600, 10, 12, 9, 11⟩, ⟨300, 10, 12, 9, 11⟩, ⟨900, 10, 12, 9, 11⟩, ⟨900, 10, 12, 9, 11⟩]
        [⟨300, 11, 13, 10, 12⟩, ⟨600, 9, 13, 10, 12⟩, ⟨1200, 11, 13, 10, 12⟩, ⟨900, 11, 13, 10, 12⟩] =
      ⟨[⟨300, 10, 12, 9, 11, 11, 13, 10, 12⟩], 1, 2⟩ := by
  decide +kernel

end AutoTrader.Sim
