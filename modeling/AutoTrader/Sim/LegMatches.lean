import AutoTrader.Lib.Counting
import AutoTrader.Sim.Eval
import AutoTrader.Sim.Legs

/-!
# Positions during the legs

What `evaluateLeg` counts are the positions at the bars of the leg (`evaluateLeg_eq`). As each labelled bar is in
one leg, the matched bars of all legs are the bars at which the position is the label (`sum_matched`).
-/

namespace AutoTrader.Sim

open Lib

/-! ## One leg -/

/-- The positions at the bars of a leg. -/
def Leg.held (leg : Leg) (positions : List Int) : List Int := (positions.take (leg.b + 1)).drop (leg.a + 1)

/-- The position is on the side of the leg. -/
def Leg.matches (leg : Leg) (p : Int) : Bool := decide (p = leg.direction)

/-- No position is held. -/
def isFlat (p : Int) : Bool := decide (p = 0)

/-- The bars of a leg on which its side was held. -/
def Leg.matchedCount (leg : Leg) (positions : List Int) : Nat := (leg.held positions).countP leg.matches

/-- The bars of a leg on which nothing was held. -/
def Leg.flatCount (leg : Leg) (positions : List Int) : Nat :=
  (leg.held positions).countP fun p => !leg.matches p && isFlat p

/-- The bars of a leg on which the other side was held. -/
def Leg.oppositeCount (leg : Leg) (positions : List Int) : Nat :=
  (leg.held positions).countP fun p => !leg.matches p && !isFlat p

/-- The counts go up by those of the entries seen. -/
structure Counts (e : LegEval) (held : List Int) (idxs : List Nat) (result : LegEval) : Prop where
  leg : result.leg = e.leg
  total : result.total = e.total
  matched : result.matched = e.matched + held.countP e.leg.matches
  flatBars : result.flatBars = (e.flatBars + held.countP fun p => !e.leg.matches p && isFlat p) % 2 ^ 32
  oppositeBars : result.oppositeBars = (e.oppositeBars + held.countP fun p => !e.leg.matches p && !isFlat p) % 2 ^ 32
  firstMatchIdx : ∀ idx, result.firstMatchIdx = some idx → e.firstMatchIdx = some idx ∨ idx ∈ idxs

theorem LegEval.count_counts (e : LegEval) (p : Int) (i : Nat) (hf : e.flatBars < 2 ^ 32)
    (ho : e.oppositeBars < 2 ^ 32) : Counts e [p] [i] (e.count p i) := by
  have hf' : e.flatBars = e.flatBars % 2 ^ 32 := (Nat.mod_eq_of_lt hf).symm
  have ho' : e.oppositeBars = e.oppositeBars % 2 ^ 32 := (Nat.mod_eq_of_lt ho).symm
  unfold LegEval.count
  by_cases hd : p = e.leg.direction
  · have hm : e.leg.matches p = true := decide_eq_true hd
    rw [if_pos hd]
    refine ⟨rfl, rfl, by simp [hm], by simpa [hm] using hf', by simpa [hm] using ho', fun idx h => ?_⟩
    dsimp only at h
    split at h
    · exact .inr (List.mem_singleton.mpr (Option.some.inj h).symm)
    · exact .inl h
  · have hm : e.leg.matches p = false := decide_eq_false hd
    rw [if_neg hd]
    by_cases hz : p = 0
    · have hflat : isFlat p = true := decide_eq_true hz
      rw [if_pos hz]
      exact ⟨rfl, rfl, by simp [hm], by simp [hm, hflat], by simpa [hflat] using ho', fun idx h => .inl h⟩
    · have hflat : isFlat p = false := decide_eq_false hz
      rw [if_neg hz]
      exact ⟨rfl, rfl, by simp [hm], by simpa [hflat] using hf', by simp [hm, hflat], fun idx h => .inl h⟩

theorem foldl_counts (entries : List (Int × Nat)) (e : LegEval) (hf : e.flatBars < 2 ^ 32)
    (ho : e.oppositeBars < 2 ^ 32) :
    Counts e (entries.map Prod.fst) (entries.map Prod.snd)
      (entries.foldl (fun e entry => e.count entry.1 entry.2) e) := by
  induction entries generalizing e with
  | nil =>
    exact ⟨rfl, rfl, rfl, (Nat.mod_eq_of_lt hf).symm, (Nat.mod_eq_of_lt ho).symm, fun idx h => .inl h⟩
  | cons entry entries ih =>
    obtain ⟨p, i⟩ := entry
    have hone := e.count_counts p i hf ho
    have hrest := ih (e.count p i) (by rw [hone.flatBars]; exact Nat.mod_lt _ (by decide))
      (by rw [hone.oppositeBars]; exact Nat.mod_lt _ (by decide))
    have happ (q : Int → Bool) :
        (p :: entries.map Prod.fst).countP q = [p].countP q + (entries.map Prod.fst).countP q := by
      rw [← List.countP_append, List.singleton_append]
    rw [List.map_cons, List.map_cons, List.foldl_cons]
    refine ⟨hrest.leg.trans hone.leg, hrest.total.trans hone.total, ?_, ?_, ?_, fun idx h => ?_⟩
    · rw [hrest.matched, hone.matched, hone.leg, happ]
      omega
    · rw [hrest.flatBars, hone.flatBars, hone.leg, happ]
      omega
    · rw [hrest.oppositeBars, hone.oppositeBars, hone.leg, happ]
      omega
    · rcases hrest.firstMatchIdx idx h with h | h
      · rcases hone.firstMatchIdx idx h with h | h
        · exact .inl h
        · exact .inr (List.mem_cons.mpr (.inl (List.mem_singleton.mp h)))
      · exact .inr (List.mem_cons_of_mem _ h)

/-- What a leg is evaluated to. -/
theorem evaluateLeg_counts (leg : Leg) (positions : List Int) :
    (evaluateLeg leg positions).leg = leg ∧
      (evaluateLeg leg positions).total = leg.b - (leg.a + 1) + 1 ∧
      (evaluateLeg leg positions).matched = leg.matchedCount positions ∧
      (evaluateLeg leg positions).flatBars = leg.flatCount positions % 2 ^ 32 ∧
      (evaluateLeg leg positions).oppositeBars = leg.oppositeCount positions % 2 ^ 32 ∧
      ∀ idx, (evaluateLeg leg positions).firstMatchIdx = some idx → idx < positions.length := by
  have hcounts := foldl_counts ((positions.zipIdx.take (leg.b + 1)).drop (leg.a + 1))
    ⟨leg, 0, leg.b - (leg.a + 1) + 1, 0, 0, none⟩ (Nat.two_pow_pos 32) (Nat.two_pow_pos 32)
  have hfst : ((positions.zipIdx.take (leg.b + 1)).drop (leg.a + 1)).map Prod.fst = leg.held positions := by
    rw [List.map_drop, List.map_take, List.zipIdx_map_fst]
    rfl
  rw [hfst] at hcounts
  refine ⟨hcounts.leg, hcounts.total, ?_, ?_, ?_, fun idx h => ?_⟩
  · exact hcounts.matched.trans (Nat.zero_add _)
  · exact hcounts.flatBars.trans (by rw [Nat.zero_add]; rfl)
  · exact hcounts.oppositeBars.trans (by rw [Nat.zero_add]; rfl)
  · rcases hcounts.firstMatchIdx idx h with h | h
    · exact absurd h.symm (Option.some_ne_none idx)
    · obtain ⟨entry, hmem, rfl⟩ := List.mem_map.mp h
      have hin : entry ∈ positions.zipIdx := List.mem_of_mem_take (List.mem_of_mem_drop hmem)
      exact List.snd_lt_of_mem_zipIdx hin

theorem Leg.length_held (leg : Leg) {positions : List Int} (hb : leg.b < positions.length) :
    (leg.held positions).length = leg.b - leg.a := by
  rw [Leg.held, List.length_drop, List.length_take_of_le hb]
  omega

/-- The counts of a leg are all its bars. -/
theorem Leg.counts_eq (leg : Leg) {positions : List Int} (hb : leg.b < positions.length) :
    leg.matchedCount positions + leg.flatCount positions + leg.oppositeCount positions = leg.b - leg.a := by
  rw [← leg.length_held hb]
  exact countP_three (leg.held positions) leg.matches isFlat

/-! ## All legs -/

/-- The bar is labelled, and the position is the label. -/
def correctAt (labels positions : List Int) (i : Nat) : Bool :=
  labels[i]?.any fun label => decide (label ≠ 0) && positions[i]?.any fun p => decide (p = label)

theorem countCorrect_eq (labels positions : List Int) (idxs : List Nat)
    (hi : ∀ i ∈ idxs, i < labels.length ∧ i < positions.length) :
    countCorrect labels positions idxs = .ok (idxs.countP (correctAt labels positions)) := by
  induction idxs with
  | nil => rfl
  | cons i idxs ih =>
    obtain ⟨hl, hp⟩ := hi i (List.mem_cons_self ..)
    have hrest := ih fun j hj => hi j (List.mem_cons_of_mem _ hj)
    have hlabel : readAt labels i = .ok labels[i] := by
      unfold readAt
      rw [List.getElem?_eq_getElem hl]
    have hposition : readAt positions i = .ok positions[i] := by
      unfold readAt
      rw [List.getElem?_eq_getElem hp]
    have hcorrect : correctAt labels positions i =
        (decide (labels[i] ≠ 0) && decide (positions[i] = labels[i])) := by
      rw [correctAt, List.getElem?_eq_getElem hl, List.getElem?_eq_getElem hp]
      rfl
    have hstep : countCorrect labels positions (i :: idxs) =
        if labels[i] ≠ 0 then
          .ok (if positions[i] = labels[i] then idxs.countP (correctAt labels positions) + 1
            else idxs.countP (correctAt labels positions))
        else .ok (idxs.countP (correctAt labels positions)) := by
      rw [countCorrect, hlabel, hrest, hposition]
      rfl
    rw [hstep, List.countP_cons, hcorrect]
    by_cases hz : labels[i] = 0
    · simp [hz]
    · by_cases heq : positions[i] = labels[i]
      · simp [hz, heq]
      · simp [hz, heq]

/-- The bars at which a leg is matched are the bars it covers with its direction as the position. -/
theorem Leg.matchedCount_eq (leg : Leg) (positions : List Int) :
    leg.matchedCount positions = (List.range positions.length).countP fun i =>
      leg.covers i && positions[i]?.any leg.matches := by
  unfold Leg.matchedCount Leg.held
  rw [countP_slice]
  refine List.countP_congr fun i _ => ?_
  simp only [Leg.covers, Bool.and_eq_true, decide_eq_true_eq, Nat.lt_succ_iff]
  rfl

/-- The matched bars of all legs are the bars at which the position is the label. -/
theorem sum_matched {evalBars : List Bar} {theta : Int} {turns : List Turn} {bm : Benchmark}
    (hz : Zigzag evalBars theta turns bm) {positions : List Int} (hlen : positions.length = evalBars.length) :
    (bm.legs.map fun leg => leg.matchedCount positions).sum =
      (List.range bm.labels.length).countP (correctAt bm.labels positions) := by
  simp only [Leg.matchedCount_eq]
  rw [sum_countP_comm, hlen, ← hz.labelled]
  refine sum_eq_countP _ _ _ fun i hi => ?_
  have hi := List.mem_range.mp hi
  have hp : i < positions.length := by
    rw [hlen, ← hz.labelled]
    exact hi
  have hcount : (bm.legs.countP fun leg => leg.covers i && positions[i]?.any leg.matches) =
      (bm.legs.filter (·.covers i)).countP fun leg => decide (positions[i] = leg.direction) := by
    rw [List.countP_filter, List.getElem?_eq_getElem hp]
    refine List.countP_congr fun leg _ => ?_
    simp [Leg.matches, and_comm]
  rw [hcount, correctAt, List.getElem?_eq_getElem hi, List.getElem?_eq_getElem hp]
  rcases hz.labels i _ (List.getElem?_eq_getElem hi) with ⟨hnone, hzero⟩ | ⟨leg, hone, hlabel⟩
  · rw [hnone, hzero]
    rfl
  · have hmem : leg ∈ bm.legs := by
      have hin : leg ∈ bm.legs.filter (·.covers i) := by rw [hone]; exact List.mem_singleton.mpr rfl
      exact (List.mem_filter.mp hin).1
    have hne := (hz.leg hmem).1
    rw [hone, hlabel]
    simp [hne]

end AutoTrader.Sim
