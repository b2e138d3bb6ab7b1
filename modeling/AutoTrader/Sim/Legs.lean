import AutoTrader.Sim.Benchmark

/-!
# The legs of a benchmark

The turns are swings of the closes, up from a low and down from a high (`Swing`): `extractTurns_zigzag` from the
invariant `Seen` of the extraction. No turn is at the last bar, so that every two consecutive ones have a leg
(`buildLegs_eq`), and the labels are the directions of the legs (`zigzag_legs`).
-/

namespace AutoTrader.Sim

open Lib

/-! ## Swings -/

/-- The doubled middle of a bar's close. -/
def midClose (evalBars : List Bar) (t : Nat) : Int := (evalBars[t]?.map Bar.mid2Close).getD 0

/-- The sequence seen so that the turn is a low. -/
def TurnKind.oriented (kind : TurnKind) (v : Nat → Int) : Nat → Int :=
  match kind with
  | low => v
  | high => fun i => -v i

/-- The other kind. -/
def TurnKind.opposite : TurnKind → TurnKind
  | low => high
  | high => low

/-- From a low to a high, or from a high to a low, there is a rise of `theta`, or a fall. -/
def Swing (v : Nat → Int) (theta : Int) (start «end» : Turn) : Prop :=
  «end».kind = start.kind.opposite ∧ Rise (start.kind.oriented v) theta start.pos «end».pos

theorem TurnKind.oriented_opposite (kind : TurnKind) (v : Nat → Int) :
    kind.opposite.oriented v = fun i => -kind.oriented v i := by
  rcases kind with _ | _
  · rfl
  · funext i
    exact (neg_neg (v i)).symm

/-! ## The invariant of the extraction -/

/-- The last turn is of the kind, and the move from it on is not over at `t`. -/
structure Tracks (v : Nat → Int) (theta : Int) (t : Nat) (kind : TurnKind) (s : Extraction) : Prop where
  last : ∃ turns a, s.turns = turns ++ [⟨a, kind⟩] ∧ Rising (kind.oriented v) theta a s.extremePos t
  chain : s.turns.IsChain (Swing v theta)
  before : ∀ turn ∈ s.turns, turn.pos < t
  extreme : s.extremeVal = v s.extremePos

/-- What the extraction has found in the first `t + 1` bars. -/
def Seen (v : Nat → Int) (theta : Int) (t : Nat) (s : Extraction) : Prop :=
  match s.direction with
  | none => s.turns = [] ∧ s.hiVal = v s.hiPos ∧ s.loVal = v s.loPos ∧ Calm v theta s.loPos s.hiPos t
  | some .up => Tracks v theta t .low s
  | some .down => Tracks v theta t .high s

section

variable {v : Nat → Int} {theta : Int} {t : Nat} {kind : TurnKind} {s : Extraction}

theorem Tracks.higher (h : Tracks v theta t kind s) (htheta : 0 < theta)
    (hv : kind.oriented v s.extremePos < kind.oriented v (t + 1)) :
    Tracks v theta (t + 1) kind { s with extremeVal := v (t + 1), extremePos := t + 1 } := by
  obtain ⟨turns, a, hturns, hrising⟩ := h.last
  exact ⟨⟨turns, a, hturns, hrising.higher htheta hv⟩, h.chain,
    fun turn htr => Nat.lt_succ_of_lt (h.before turn htr), rfl⟩

theorem Tracks.next (h : Tracks v theta t kind s)
    (hle : kind.oriented v (t + 1) ≤ kind.oriented v s.extremePos)
    (hlt : kind.oriented v s.extremePos - kind.oriented v (t + 1) < theta) : Tracks v theta (t + 1) kind s := by
  obtain ⟨turns, a, hturns, hrising⟩ := h.last
  exact ⟨⟨turns, a, hturns, hrising.next hle hlt⟩, h.chain,
    fun turn htr => Nat.lt_succ_of_lt (h.before turn htr), h.extreme⟩

/-- A counter-move makes the extreme a turn. -/
theorem Tracks.turn (h : Tracks v theta t kind s) (htheta : 0 < theta) (direction : LegDirection)
    (hge : theta ≤ kind.oriented v s.extremePos - kind.oriented v (t + 1)) :
    Tracks v theta (t + 1) kind.opposite (s.push ⟨s.extremePos, kind.opposite⟩ direction (t + 1) (v (t + 1))) := by
  obtain ⟨turns, a, hturns, hrising⟩ := h.last
  refine ⟨⟨s.turns, s.extremePos, rfl, ?_⟩, ?_, fun turn htr => ?_, rfl⟩
  · rw [TurnKind.oriented_opposite]
    exact hrising.turn htheta hge
  · refine List.isChain_append.mpr ⟨h.chain, .singleton _, fun x hx y hy => ?_⟩
    rw [hturns, List.getLast?_concat, Option.mem_some_iff] at hx
    rw [List.head?_cons, Option.mem_some_iff] at hy
    rw [← hx, ← hy]
    exact ⟨rfl, hrising.rise⟩
  · rcases List.mem_append.mp htr with htr | htr
    · exact Nat.lt_succ_of_lt (h.before turn htr)
    · rw [List.mem_singleton.mp htr]
      exact Nat.lt_succ_of_le hrising.le

/-- The first turn, and the rise from it. -/
theorem Tracks.first (kind : TurnKind) {a : Nat} (hrising : Rising (kind.oriented v) theta a (t + 1) (t + 1))
    (hturns : s.turns = [])
    (direction : LegDirection) :
    Tracks v theta (t + 1) kind (s.push ⟨a, kind⟩ direction (t + 1) (v (t + 1))) := by
  have hone : (s.push ⟨a, kind⟩ direction (t + 1) (v (t + 1))).turns = [⟨a, kind⟩] := by
    show s.turns ++ [_] = _
    rw [hturns]
    rfl
  refine ⟨⟨[], a, hone, hrising⟩, ?_, fun turn htr => ?_, rfl⟩
  · rw [hone]
    exact .singleton _
  · rw [hone] at htr
    rw [List.mem_singleton.mp htr]
    exact hrising.rise.lt

/-! The highest and the lowest close with the next one. -/

theorem widen_eq (s : Extraction) (t : Nat) (c : Int) :
    s.widen t c = { s with
      hiVal := if s.hiVal < c then c else s.hiVal
      hiPos := if s.hiVal < c then t else s.hiPos
      loVal := if c < s.loVal then c else s.loVal
      loPos := if c < s.loVal then t else s.loPos } := by
  by_cases hhi : s.hiVal < c
  · by_cases hlo : c < s.loVal
    · simp [Extraction.widen, strictlyExceedsSoTiesKeepEarlierPosition, hhi, hlo]
    · simp [Extraction.widen, strictlyExceedsSoTiesKeepEarlierPosition, hhi, hlo]
  · by_cases hlo : c < s.loVal
    · simp [Extraction.widen, strictlyExceedsSoTiesKeepEarlierPosition, hhi, hlo]
    · simp [Extraction.widen, strictlyExceedsSoTiesKeepEarlierPosition, hhi, hlo]

/-- The first turn is found, or all closes are still within less than `theta`. -/
theorem Seen.step_calm (htheta : 0 < theta) (hd : s.direction = none) (h : Seen v theta t s) :
    Seen v theta (t + 1) (s.step theta (t + 1) (v (t + 1))) := by
  obtain ⟨hturns, hhi, hlo, hcalm⟩ : s.turns = [] ∧ s.hiVal = v s.hiPos ∧ s.loVal = v s.loPos ∧
      Calm v theta s.loPos s.hiPos t := by
    simpa only [Seen, hd] using h
  have hstep : s.step theta (t + 1) (v (t + 1)) =
      if theta ≤ v (t + 1) - (s.widen (t + 1) (v (t + 1))).loVal then
        (s.widen (t + 1) (v (t + 1))).push ⟨(s.widen (t + 1) (v (t + 1))).loPos, .low⟩ .up (t + 1) (v (t + 1))
      else if theta ≤ (s.widen (t + 1) (v (t + 1))).hiVal - v (t + 1) then
        (s.widen (t + 1) (v (t + 1))).push ⟨(s.widen (t + 1) (v (t + 1))).hiPos, .high⟩ .down (t + 1) (v (t + 1))
      else s.widen (t + 1) (v (t + 1)) := by
    simp only [Extraction.step, hd]
  rw [hstep, widen_eq]
  dsimp only
  by_cases hup : theta ≤ v (t + 1) - (if v (t + 1) < s.loVal then v (t + 1) else s.loVal)
  · have hnot : ¬v (t + 1) < s.loVal := by
      intro hlt
      rw [if_pos hlt] at hup
      omega
    rw [if_pos hup]
    simp only [if_neg hnot]
    rw [if_neg hnot, hlo] at hup
    show Tracks v theta (t + 1) .low _
    refine Tracks.first .low ?_ ?_ .up
    · exact hcalm.rise htheta hup
    · exact hturns
  · rw [if_neg hup]
    by_cases hdown : theta ≤ (if s.hiVal < v (t + 1) then v (t + 1) else s.hiVal) - v (t + 1)
    · have hnot : ¬s.hiVal < v (t + 1) := by
        intro hlt
        rw [if_pos hlt] at hdown
        omega
      rw [if_pos hdown]
      simp only [if_neg hnot]
      rw [if_neg hnot, hhi] at hdown
      show Tracks v theta (t + 1) .high _
      refine Tracks.first .high ?_ ?_ .down
      · refine hcalm.neg.rise htheta ?_
        show theta ≤ -v (t + 1) - -v s.hiPos
        omega
      · exact hturns
    · rw [if_neg hdown]
      show Seen v theta (t + 1) _
      unfold Seen
      rw [hd]
      refine ⟨hturns, ?_, ?_, hcalm.next ?_ ?_ ?_ ?_ ?_ ?_ ?_ ?_⟩
      all_goals dsimp only
      all_goals split_ifs at *
      all_goals omega

/-- A move goes on, to a new extreme or not, or turns. -/
theorem Seen.step_moving (htheta : 0 < theta) {direction : LegDirection} (hd : s.direction = some direction)
    (h : Seen v theta t s) : Seen v theta (t + 1) (s.step theta (t + 1) (v (t + 1))) := by
  rcases direction with _ | _
  · have htracks : Tracks v theta t .low s := by simpa only [Seen, hd] using h
    have hext := htracks.extreme
    simp only [Extraction.step, hd, strictlyExceedsSoTiesKeepEarlierPosition, if_true, decide_eq_true_eq]
    by_cases hhigh : s.extremeVal < v (t + 1)
    · rw [if_pos hhigh]
      rw [hext] at hhigh
      simpa only [Seen, hd] using htracks.higher htheta hhigh
    · rw [if_neg hhigh]
      by_cases hturn : theta ≤ s.extremeVal - v (t + 1)
      · rw [if_pos hturn]
        rw [hext] at hturn
        exact htracks.turn htheta .down hturn
      · rw [if_neg hturn]
        rw [hext] at hhigh hturn
        simpa only [Seen, hd] using htracks.next (not_lt.mp hhigh) (not_le.mp hturn)
  · have htracks : Tracks v theta t .high s := by simpa only [Seen, hd] using h
    have hext := htracks.extreme
    simp only [Extraction.step, hd, strictlyExceedsSoTiesKeepEarlierPosition, Bool.false_eq_true, if_false,
      decide_eq_true_eq]
    by_cases hlow : v (t + 1) < s.extremeVal
    · rw [if_pos hlow]
      rw [hext] at hlow
      simpa only [Seen, hd] using htracks.higher htheta (neg_lt_neg hlow)
    · rw [if_neg hlow]
      by_cases hturn : theta ≤ v (t + 1) - s.extremeVal
      · rw [if_pos hturn]
        rw [hext] at hturn
        refine htracks.turn htheta .up ?_
        show theta ≤ -v s.extremePos - -v (t + 1)
        omega
      · rw [if_neg hturn]
        rw [hext] at hlow hturn
        have hnext : -v s.extremePos - -v (t + 1) < theta := by omega
        simpa only [Seen, hd] using htracks.next (neg_le_neg (not_lt.mp hlow)) hnext

end

/-! ## All turns -/

theorem extractFrom_seen {v : Nat → Int} {theta : Int} (htheta : 0 < theta) (bars : List Bar) (t : Nat)
    (s : Extraction) (hv : ∀ i bar, bars[i]? = some bar → bar.mid2Close = v (t + 1 + i)) (h : Seen v theta t s) :
    Seen v theta (t + bars.length) (extractFrom theta bars (t + 1) s) := by
  induction bars generalizing t s with
  | nil => exact h
  | cons bar bars ih =>
    have hbar : bar.mid2Close = v (t + 1) := hv 0 bar rfl
    have hstep : Seen v theta (t + 1) (s.step theta (t + 1) bar.mid2Close) := by
      rw [hbar]
      rcases hd : s.direction with _ | direction
      · exact h.step_calm htheta hd
      · exact h.step_moving htheta hd
    rw [List.length_cons, ← Nat.add_assoc, Nat.add_right_comm]
    refine ih (t + 1) _ (fun i bar' hbar' => ?_) hstep
    rw [hv (i + 1) bar' hbar']
    congr 1
    omega

theorem Seen.turns {v : Nat → Int} {theta : Int} {t : Nat} {s : Extraction} (h : Seen v theta t s) :
    s.turns.IsChain (Swing v theta) ∧ ∀ turn ∈ s.turns, turn.pos < t := by
  rcases hd : s.direction with _ | _ | _
  · have hcalm : s.turns = [] := by
      simp only [Seen, hd] at h
      exact h.1
    rw [hcalm]
    exact ⟨.nil, fun turn htr => absurd htr List.not_mem_nil⟩
  · have htracks : Tracks v theta t .low s := by simpa only [Seen, hd] using h
    exact ⟨htracks.chain, htracks.before⟩
  · have htracks : Tracks v theta t .high s := by simpa only [Seen, hd] using h
    exact ⟨htracks.chain, htracks.before⟩

/-- Consecutive turns are swings, and the last bar is none. -/
theorem extractTurns_zigzag (evalBars : List Bar) {theta : Int} (htheta : 0 < theta) :
    (extractTurns evalBars theta).IsChain (Swing (midClose evalBars) theta) ∧
      ∀ turn ∈ extractTurns evalBars theta, turn.pos + 1 < evalBars.length := by
  rcases evalBars with _ | ⟨first, rest⟩
  · exact ⟨.nil, fun turn htr => absurd htr List.not_mem_nil⟩
  · have hinit : Seen (midClose (first :: rest)) theta 0 (.init first.mid2Close) :=
      ⟨rfl, rfl, rfl, Calm.init _ htheta⟩
    have hseen := extractFrom_seen htheta rest 0 _ (fun i bar hbar => ?_) hinit
    · obtain ⟨hchain, hbefore⟩ := hseen.turns
      refine ⟨hchain, fun turn htr => ?_⟩
      have hlt := hbefore turn htr
      rw [List.length_cons]
      omega
    · rw [midClose, Nat.zero_add, Nat.add_comm 1 i, List.getElem?_cons_succ, hbar]
      rfl

/-! ## The legs between the turns -/

/-- The bars of a leg are those after its start up to its end. -/
def Leg.covers (leg : Leg) (i : Nat) : Bool := decide (leg.a < i) && decide (i ≤ leg.b)

/-- The legs between consecutive turns. -/
def legsOf (evalBars : List Bar) : List Turn → List Leg
  | start :: «end» :: rest => (legBetween evalBars start «end»).toList ++ legsOf evalBars («end» :: rest)
  | _ => []

theorem legBetween_eq_some {evalBars : List Bar} {start «end» : Turn} (ha : start.pos + 1 < evalBars.length)
    (hb : «end».pos + 1 < evalBars.length) :
    ∃ leg, legBetween evalBars start «end» = some leg ∧ leg.a = start.pos ∧ leg.b = «end».pos ∧
      leg.direction = start.kind.direction := by
  have hkind : start.kind.direction = 1 ∨ start.kind.direction = -1 := by
    rcases start.kind with _ | _
    · exact .inl rfl
    · exact .inr rfl
  unfold legBetween
  dsimp only
  rw [List.getElem?_eq_getElem (Nat.lt_of_succ_lt ha), List.getElem?_eq_getElem (Nat.lt_of_succ_lt hb),
    List.getElem?_eq_getElem ha, List.getElem?_eq_getElem hb]
  rcases hkind with hk | hk
  · exact ⟨_, if_pos hk, rfl, rfl, hk.symm⟩
  · exact ⟨_, if_neg (by rw [hk]; decide), rfl, rfl, hk.symm⟩

/-- No pair of turns is left out, and no bar is read that does not exist. -/
theorem buildLegsFrom_eq (evalBars : List Bar) (turns : List Turn)
    (hturns : ∀ turn ∈ turns, turn.pos + 1 < evalBars.length) (legs : List Leg) (labels : List Int) :
    buildLegsFrom evalBars turns legs labels =
      some (legs ++ legsOf evalBars turns,
        (legsOf evalBars turns).foldl (fun labels leg => labelLeg leg labels) labels) := by
  induction turns generalizing legs labels with
  | nil => simp [buildLegsFrom, legsOf]
  | cons start rest ih =>
    rcases rest with _ | ⟨«end», rest⟩
    · simp [buildLegsFrom, legsOf]
    · have ha := hturns start (List.mem_cons_self ..)
      have hb := hturns «end» (List.mem_cons_of_mem _ (List.mem_cons_self ..))
      obtain ⟨leg, hleg, -⟩ := legBetween_eq_some ha hb
      have hin : excludesACandidateWaveWhoseBPlus1BarDoesNotExist «end».pos evalBars.length = false :=
        decide_eq_false (not_le.mpr hb)
      rw [buildLegsFrom, hin, hleg, legsOf, hleg]
      simp only [Bool.false_eq_true, if_false]
      rw [ih fun turn htr => hturns turn (List.mem_cons_of_mem _ htr)]
      simp [Option.toList]

theorem legsOf_spec (evalBars : List Bar) (turns : List Turn)
    (hturns : ∀ turn ∈ turns, turn.pos + 1 < evalBars.length) :
    (legsOf evalBars turns).length = turns.length - 1 ∧
      ∀ (k : Nat) (start «end» : Turn), turns[k]? = some start → turns[k + 1]? = some «end» →
        ∃ leg, (legsOf evalBars turns)[k]? = some leg ∧ leg.a = start.pos ∧ leg.b = «end».pos ∧
          leg.direction = start.kind.direction := by
  induction turns with
  | nil => exact ⟨rfl, fun k start «end» h _ => by simp at h⟩
  | cons first rest ih =>
    rcases rest with _ | ⟨second, rest⟩
    · exact ⟨rfl, fun k start «end» _ h => by simp at h⟩
    · have ha := hturns first (List.mem_cons_self ..)
      have hb := hturns second (List.mem_cons_of_mem _ (List.mem_cons_self ..))
      obtain ⟨leg, hleg, hspec⟩ := legBetween_eq_some ha hb
      obtain ⟨hlen, hrest⟩ := ih fun turn htr => hturns turn (List.mem_cons_of_mem _ htr)
      have hcons : legsOf evalBars (first :: second :: rest) = leg :: legsOf evalBars (second :: rest) := by
        rw [legsOf, hleg]
        rfl
      rw [hcons]
      refine ⟨by simp only [List.length_cons, hlen]; omega, fun k start «end» hstart hend => ?_⟩
      rcases k with _ | k
      · obtain rfl : first = start := Option.some.inj hstart
        obtain rfl : second = «end» := Option.some.inj hend
        exact ⟨leg, rfl, hspec⟩
      · exact hrest k start «end» hstart hend

/-- Legs begin after their first turn, and each begins where or after those before it end. -/
theorem legsOf_ordered (evalBars : List Bar) (turns : List Turn)
    (hturns : ∀ turn ∈ turns, turn.pos + 1 < evalBars.length)
    (hchain : turns.IsChain fun start «end» => start.pos < «end».pos) :
    ((legsOf evalBars turns).Pairwise fun x y => x.b ≤ y.a) ∧
      ∀ first, turns.head? = some first → ∀ leg ∈ legsOf evalBars turns, first.pos ≤ leg.a := by
  induction turns with
  | nil => exact ⟨.nil, fun first h => absurd h.symm (Option.some_ne_none first)⟩
  | cons first rest ih =>
    rcases rest with _ | ⟨second, rest⟩
    · exact ⟨.nil, fun _ _ leg hleg => absurd hleg List.not_mem_nil⟩
    · have ha := hturns first (List.mem_cons_self ..)
      have hb := hturns second (List.mem_cons_of_mem _ (List.mem_cons_self ..))
      obtain ⟨leg, hleg, hla, hlb, -⟩ := legBetween_eq_some ha hb
      obtain ⟨hlt, hchain⟩ := List.isChain_cons_cons.mp hchain
      obtain ⟨hord, hfirst⟩ := ih (fun turn htr => hturns turn (List.mem_cons_of_mem _ htr)) hchain
      have hcons : legsOf evalBars (first :: second :: rest) = leg :: legsOf evalBars (second :: rest) := by
        rw [legsOf, hleg]
        rfl
      rw [hcons]
      refine ⟨List.pairwise_cons.mpr ⟨fun y hy => ?_, hord⟩, fun first' hf y hy => ?_⟩
      · rw [hlb]
        exact hfirst second rfl y hy
      · obtain rfl : first = first' := Option.some.inj hf
        rcases List.mem_cons.mp hy with rfl | hy
        · exact hla.ge
        · exact hlt.le.trans (hfirst second rfl y hy)

/-! ## Labels -/

theorem length_labels (legs : List Leg) (labels : List Int) :
    (legs.foldl (fun labels leg => labelLeg leg labels) labels).length = labels.length := by
  induction legs generalizing labels with
  | nil => rfl
  | cons leg legs ih => rw [List.foldl_cons, ih, labelLeg, List.length_mapIdx]

theorem getElem?_labelLeg (leg : Leg) (labels : List Int) (i : Nat) :
    (labelLeg leg labels)[i]? = labels[i]?.map fun label => if leg.covers i then leg.direction else label := by
  rw [labelLeg, List.getElem?_mapIdx]
  congr 1
  funext label
  by_cases h : leg.a + 1 ≤ i ∧ i < leg.b + 1
  · have hcov : leg.covers i = true := by
      simp only [Leg.covers, Bool.and_eq_true, decide_eq_true_eq]
      omega
    rw [if_pos h, if_pos hcov]
  · have hcov : ¬leg.covers i = true := by
      simp only [Leg.covers, Bool.and_eq_true, decide_eq_true_eq]
      omega
    rw [if_neg h, if_neg hcov]

/-- A label is the direction of a leg that covers the bar, and stays if there is none. -/
theorem label_cases (legs : List Leg) (labels : List Int) {i : Nat} {label : Int}
    (h : (legs.foldl (fun labels leg => labelLeg leg labels) labels)[i]? = some label) :
    (legs.filter (·.covers i) = [] ∧ labels[i]? = some label) ∨
      ∃ leg ∈ legs, leg.covers i = true ∧ label = leg.direction := by
  induction legs generalizing labels with
  | nil => exact .inl ⟨rfl, h⟩
  | cons leg legs ih =>
    rw [List.foldl_cons] at h
    rcases ih _ h with ⟨hnone, hlabel⟩ | ⟨leg', hmem, hcov, heq⟩
    · rw [getElem?_labelLeg] at hlabel
      obtain ⟨before, hbefore, hlabel⟩ := Option.map_eq_some_iff.mp hlabel
      by_cases hcov : leg.covers i = true
      · rw [if_pos hcov] at hlabel
        exact .inr ⟨leg, List.mem_cons_self .., hcov, hlabel.symm⟩
      · rw [if_neg hcov] at hlabel
        refine .inl ⟨?_, hlabel ▸ hbefore⟩
        rw [List.filter_cons, if_neg hcov]
        exact hnone
    · exact .inr ⟨leg', List.mem_cons_of_mem _ hmem, hcov, heq⟩

/-- Of legs that follow each other, at most one covers a bar. -/
theorem covering_unique {legs : List Leg} (hord : legs.Pairwise fun x y => x.b ≤ y.a) {leg : Leg} {i : Nat}
    (hmem : leg ∈ legs) (hcov : leg.covers i = true) : legs.filter (·.covers i) = [leg] := by
  have hpair := hord.filter (·.covers i)
  have hin : leg ∈ legs.filter (·.covers i) := List.mem_filter.mpr ⟨hmem, hcov⟩
  have hall : ∀ x ∈ legs.filter (·.covers i), x.a < i ∧ i ≤ x.b := by
    intro x hx
    have hx := (List.mem_filter.mp hx).2
    simpa only [Leg.covers, Bool.and_eq_true, decide_eq_true_eq] using hx
  rcases hf : legs.filter (·.covers i) with _ | ⟨x, _ | ⟨y, rest⟩⟩
  · rw [hf] at hin
    exact absurd hin List.not_mem_nil
  · rw [hf] at hin
    rw [List.mem_singleton.mp hin]
    exact hf
  · rw [hf] at hpair hall
    have hxy := List.rel_of_pairwise_cons hpair (List.mem_cons_self ..)
    have hx := hall x (List.mem_cons_self ..)
    have hy := hall y (List.mem_cons_of_mem _ (List.mem_cons_self ..))
    omega

/-! ## The benchmark -/

/-- What the turns, the legs and the labels of a benchmark are. -/
structure Zigzag (evalBars : List Bar) (theta : Int) (turns : List Turn) (benchmark : Benchmark) : Prop where
  swings : ∀ (k : Nat) (start «end» : Turn), turns[k]? = some start → turns[k + 1]? = some «end» →
    Swing (midClose evalBars) theta start «end»
  included : ∀ turn ∈ turns, excludesACandidateWaveWhoseBPlus1BarDoesNotExist turn.pos evalBars.length = false
  one_leg_each : benchmark.legs.length = turns.length - 1
  legs : ∀ (k : Nat) (start «end» : Turn), turns[k]? = some start → turns[k + 1]? = some «end» →
    ∃ leg, benchmark.legs[k]? = some leg ∧ leg.a = start.pos ∧ leg.b = «end».pos ∧
      leg.direction = start.kind.direction
  joined : ∀ (k : Nat) (leg next : Leg), benchmark.legs[k]? = some leg → benchmark.legs[k + 1]? = some next →
    leg.b = next.a
  labelled : benchmark.labels.length = evalBars.length
  labels : ∀ (i : Nat) (label : Int), benchmark.labels[i]? = some label →
    (benchmark.legs.filter (·.covers i) = [] ∧ label = 0) ∨
      ∃ leg, benchmark.legs.filter (·.covers i) = [leg] ∧ label = leg.direction

theorem theta_pos {thetaPips : Int64} (h : 1 ≤ thetaPips.toInt) :
    0 < convertThetaPipsToMid2SaturatingSoAnOverflowingThetaYieldsNoLegs thetaPips := by
  unfold convertThetaPipsToMid2SaturatingSoAnOverflowingThetaYieldsNoLegs pipMid2
  omega

theorem buildLegs_zigzag {evalBars : List Bar} {theta : Int} (htheta : 0 < theta) {legs : List Leg}
    {labels : List Int} (h : buildLegs evalBars (extractTurns evalBars theta) = some (legs, labels))
    (thetaPips idealMilli realizableMilli : Int64) :
    Zigzag evalBars theta (extractTurns evalBars theta) ⟨thetaPips, legs, idealMilli, realizableMilli, labels⟩ := by
  obtain ⟨hchain, hturns⟩ := extractTurns_zigzag evalBars htheta
  rw [buildLegs, buildLegsFrom_eq evalBars _ hturns, List.nil_append, Option.some.injEq, Prod.mk.injEq] at h
  obtain ⟨rfl, rfl⟩ := h
  obtain ⟨hlen, hspec⟩ := legsOf_spec evalBars _ hturns
  obtain ⟨hord, -⟩ := legsOf_ordered evalBars _ hturns (hchain.imp fun _ _ hs => hs.2.lt)
  refine ⟨fun k start «end» hstart hend => ?_, fun turn htr => decide_eq_false (not_le.mpr (hturns turn htr)), hlen,
    hspec, fun k leg next hleg hnext => ?_, ?_, fun i label hlabel => ?_⟩
  · obtain ⟨hk, rfl⟩ := List.getElem?_eq_some_iff.mp hend
    obtain ⟨hk', rfl⟩ := List.getElem?_eq_some_iff.mp hstart
    exact List.isChain_iff_getElem.mp hchain k hk
  · have hk : k + 1 < (legsOf evalBars (extractTurns evalBars theta)).length :=
      (List.getElem?_eq_some_iff.mp hnext).1
    rw [hlen] at hk
    have hget : ∀ j, j < k + 3 → (extractTurns evalBars theta)[j]? =
        some ((extractTurns evalBars theta)[j]?.getD ⟨0, .low⟩) := by
      intro j hj
      rw [List.getElem?_eq_getElem (by omega)]
      rfl
    obtain ⟨leg', hleg', -, hb, -⟩ := hspec k _ _ (hget k (by omega)) (hget (k + 1) (by omega))
    obtain ⟨next', hnext', ha, -⟩ := hspec (k + 1) _ _ (hget (k + 1) (by omega)) (hget (k + 2) (by omega))
    obtain rfl : leg' = leg := Option.some.inj (hleg'.symm.trans hleg)
    obtain rfl : next' = next := Option.some.inj (hnext'.symm.trans hnext)
    exact hb.trans ha.symm
  · rw [length_labels, List.length_replicate]
  · rcases label_cases _ _ hlabel with ⟨hnone, hzero⟩ | ⟨leg, hmem, hcov, heq⟩
    · exact .inl ⟨hnone, (List.eq_of_mem_replicate (List.mem_of_getElem? hzero))⟩
    · exact .inr ⟨leg, covering_unique hord hmem hcov, heq⟩

theorem exists_compute (evalBars : List Bar) {thetaPips : Int64} (h : 1 ≤ thetaPips.toInt) :
    ∃ benchmark, compute evalBars thetaPips = some benchmark := by
  unfold compute buildLegs
  dsimp only
  rw [buildLegsFrom_eq evalBars _ (extractTurns_zigzag evalBars (theta_pos h)).2]
  exact ⟨_, rfl⟩

theorem zigzag_of_compute {evalBars : List Bar} {thetaPips : Int64} {benchmark : Benchmark}
    (h : 1 ≤ thetaPips.toInt) (hc : compute evalBars thetaPips = some benchmark) :
    Zigzag evalBars (convertThetaPipsToMid2SaturatingSoAnOverflowingThetaYieldsNoLegs thetaPips)
      (extractTurns evalBars (convertThetaPipsToMid2SaturatingSoAnOverflowingThetaYieldsNoLegs thetaPips))
      benchmark := by
  obtain ⟨⟨legs, labels⟩, hbuild, hbenchmark⟩ := Option.bind_eq_some_iff.mp hc
  rw [← Option.some.inj hbenchmark]
  exact buildLegs_zigzag (theta_pos h) hbuild _ _ _

/-- The benchmark of any bars: its turns zig-zag, and its legs and labels are those between them. -/
theorem zigzag_legs (evalBars : List Bar) (thetaPips : Int64) (h : 1 ≤ thetaPips.toInt) :
    ∃ benchmark, compute evalBars thetaPips = some benchmark ∧
      Zigzag evalBars (convertThetaPipsToMid2SaturatingSoAnOverflowingThetaYieldsNoLegs thetaPips)
        (extractTurns evalBars (convertThetaPipsToMid2SaturatingSoAnOverflowingThetaYieldsNoLegs thetaPips))
        benchmark := by
  obtain ⟨benchmark, hc⟩ := exists_compute evalBars h
  exact ⟨benchmark, hc, zigzag_of_compute h hc⟩

/-- A leg goes up or down, forwards, and ends before the last bar. -/
theorem Zigzag.leg {evalBars : List Bar} {theta : Int} {turns : List Turn} {benchmark : Benchmark}
    (h : Zigzag evalBars theta turns benchmark) {leg : Leg} (hmem : leg ∈ benchmark.legs) :
    leg.direction ≠ 0 ∧ leg.a < leg.b ∧ leg.b + 1 < evalBars.length := by
  obtain ⟨k, hk, rfl⟩ := List.getElem_of_mem hmem
  have hlt : k + 1 < turns.length := by
    have hlen := h.one_leg_each
    omega
  have hstart := List.getElem?_eq_getElem (Nat.lt_of_succ_lt hlt)
  have hend := List.getElem?_eq_getElem hlt
  obtain ⟨leg, hleg, ha, hb, hd⟩ := h.legs k _ _ hstart hend
  obtain rfl : benchmark.legs[k] = leg := Option.some.inj ((List.getElem?_eq_getElem hk).symm.trans hleg)
  refine ⟨?_, ?_, ?_⟩
  · rw [hd]
    rcases turns[k].kind with _ | _
    · decide
    · decide
  · rw [ha, hb]
    exact (h.swings k _ _ hstart hend).2.lt
  · rw [hb]
    exact not_le.mp (of_decide_eq_false (h.included _ (List.getElem_mem hlt)))

theorem Zigzag.starts {evalBars : List Bar} {theta : Int} {turns : List Turn} {benchmark : Benchmark}
    (h : Zigzag evalBars theta turns benchmark) : benchmark.legs.Pairwise fun x y => x.a < y.a := by
  have htrans : IsTrans Leg fun x y => x.a < y.a := ⟨fun _ _ _ hxy hyz => lt_trans hxy hyz⟩
  refine List.isChain_iff_pairwise.mp (List.isChain_iff_getElem.mpr fun k hk => ?_)
  have hleg := h.leg (List.getElem_mem (Nat.lt_of_succ_lt hk))
  have hjoin := h.joined k _ _ (List.getElem?_eq_getElem (Nat.lt_of_succ_lt hk)) (List.getElem?_eq_getElem hk)
  omega

/-- Closes of 10, 11, 13 and 12 pips with a swing of one pip. -/
def sampleCloses : List Bar := [.flat 0 100 100, .flat 300 110 110, .flat 600 130 130, .flat 900 120 120]

theorem sampleCloses_zigzag : ∃ benchmark, compute sampleCloses 1 = some benchmark ∧
    Zigzag sampleCloses 20 [⟨0, .low⟩, ⟨2, .high⟩] benchmark :=
  zigzag_legs sampleCloses 1 (by decide)

end AutoTrader.Sim
