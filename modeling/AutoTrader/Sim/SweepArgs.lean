import AutoTrader.Sim.SweepDefault

/-!
# The grid of a sweep and the arguments of a run

The grid of a spec list is told by counting (`candidateCount`, `paramValueAt`) and once more by the checks on
the arguments of a run (`resolveOneParam`). `InGrid` are the parameter sets that the counting gives: each is
`combinationAt` of exactly one index (`inGrid_iff`) and resolves to itself (`InGrid.resolves`), and where all
parameters are integers whatever the checks accept is one of them (`inGrid_of_resolves`).
-/

namespace AutoTrader.Sim

open List (Forall₂)

/-! ## One parameter -/

/-- The values that the counting gives. -/
def ParamSpec.Counts (spec : ParamSpec) (v : ParamValue) : Prop :=
  ∃ k < candidateCount spec, v = paramValueAt spec k

theorem Json.asI64_toInt (n : Int64) : (Json.integer n.toInt).asI64 = some n := by
  simp only [asI64]
  rw [if_pos ⟨n.le_toInt, n.toInt_lt⟩, Int64.ofInt_toInt]

namespace ParamSpec.Valid

variable {spec : ParamSpec} {v : ParamValue}

theorem valueAt_inj (h : spec.Valid) (hc : candidateCount spec ≤ 2 ^ 63) {j k : Nat} (hj : j < candidateCount spec)
    (hk : k < candidateCount spec) (he : paramValueAt spec j = paramValueAt spec k) : j = k := by
  rcases hkind : spec.kind with _ | _
  · obtain ⟨n, hn, hvalue, -⟩ := h.valueAt_int hkind hc hj
    obtain ⟨m, hm, hvalue', -⟩ := h.valueAt_int hkind hc hk
    obtain ⟨-, -, hstep⟩ := h.int hkind
    have hnm : n = m := ParamValue.int.inj (hn.symm.trans (he.trans hm))
    have hmul : (j : Int) * (toI64 spec.step).toInt = k * (toI64 spec.step).toInt := by
      rw [hnm] at hvalue
      omega
    exact_mod_cast Int.eq_of_mul_eq_mul_right hstep.ne' hmul
  · obtain ⟨-, -, hstep, -⟩ := h.float hkind
    simp only [paramValueAt, hkind, ParamValue.float.injEq, add_right_inj] at he
    exact_mod_cast mul_right_cancel₀ hstep.ne' he

/-- What the counting gives is accepted as it is. -/
theorem resolve_json (h : spec.Valid) (hc : candidateCount spec ≤ 2 ^ 63) (hv : spec.Counts v) :
    resolveOneParam spec v.json = .ok v := by
  obtain ⟨k, hk, rfl⟩ := hv
  rcases hkind : spec.kind with _ | _
  · obtain ⟨n, hn, hvalue, hmax⟩ := h.valueAt_int hkind hc hk
    obtain ⟨-, -, hstep⟩ := h.int hkind
    have hnonneg : 0 ≤ (k : Int) * (toI64 spec.step).toInt := Int.mul_nonneg (by omega) hstep.le
    have hgrid : isOnIntegerGrid n (toI64 spec.min) (toI64 spec.step) = true := by
      rw [isOnIntegerGrid_iff, hvalue, add_sub_cancel_left]
      exact dvd_mul_left _ _
    rw [hn]
    simp only [resolveOneParam, hkind, ParamValue.json, Json.asI64_toInt, hgrid]
    rw [if_neg, if_neg (by simp)]
    rw [Int64.lt_iff_toInt_lt, Int64.lt_iff_toInt_lt]
    omega
  · obtain ⟨-, -, hstep, -⟩ := h.float hkind
    have hmax := h.valueAt_float hkind hc hk
    have hnonneg : 0 ≤ (k : Rat) * spec.step := mul_nonneg (Nat.cast_nonneg k) hstep.le
    have hgrid : isOnFloatGrid (spec.min + k * spec.step) spec.min spec.step = true := by
      have hdiv : (spec.min + k * spec.step - spec.min) / spec.step = ((k : Int) : Rat) := by
        rw [add_sub_cancel_left, mul_div_assoc, div_self hstep.ne', mul_one, Int.cast_natCast]
      simp only [isOnFloatGrid, decide_eq_true_eq]
      rw [hdiv, roundF64_intCast]
      refine ⟨by omega, ?_⟩
      rw [Int.cast_natCast, sub_self, abs_zero]
      exact floatGridTolerance_pos.le
    simp only [resolveOneParam, paramValueAt, hkind, ParamValue.json, Json.asF64, hgrid]
    rw [if_neg, if_neg (by simp)]
    rw [not_or, not_lt, not_lt]
    exact ⟨by linarith [floatGridTolerance_pos], hmax⟩

/-- An integer within the range and on the grid is given by the counting. -/
theorem counts_of_grid (h : spec.Valid) (hk : spec.kind = .int) (hc : candidateCount spec ≤ 2 ^ 63) {n : Int64}
    (hmin : (toI64 spec.min).toInt ≤ n.toInt) (hmax : n.toInt ≤ (toI64 spec.max).toInt)
    (hgrid : isOnIntegerGrid n (toI64 spec.min) (toI64 spec.step) = true) : spec.Counts (.int n) := by
  obtain ⟨-, -, hstep⟩ := h.int hk
  have hcount := h.candidateCount_int hk hc
  obtain ⟨q, hq⟩ := isOnIntegerGrid_iff.mp hgrid
  rw [mul_comm] at hq
  have hq0 : 0 ≤ q := nonneg_of_mul_nonneg_left (by omega : 0 ≤ q * (toI64 spec.step).toInt) hstep
  have hqmax : q ≤ ((toI64 spec.max).toInt - (toI64 spec.min).toInt) / (toI64 spec.step).toInt :=
    (Int.le_ediv_iff_mul_le hstep).mpr (by omega)
  have hlt : q.toNat < candidateCount spec := by omega
  obtain ⟨m, hm, hvalue, -⟩ := h.valueAt_int hk hc hlt
  refine ⟨q.toNat, hlt, ?_⟩
  rw [hm, ParamValue.int.injEq, ← Int64.toInt_inj, hvalue, Int.toNat_of_nonneg hq0]
  omega

theorem counts_of_resolve (h : spec.Valid) (hk : spec.kind = .int) (hc : candidateCount spec ≤ 2 ^ 63) {json : Json}
    (hr : resolveOneParam spec json = .ok v) : spec.Counts v := by
  obtain ⟨-, -, hstep⟩ := h.int hk
  simp only [resolveOneParam, hk] at hr
  split at hr
  · cases hr
  · rename_i n _
    split at hr
    · cases hr
    rename_i hrange
    split at hr
    · cases hr
    rename_i hgrid
    obtain rfl := Except.ok.inj hr
    rw [Int64.lt_iff_toInt_lt, Int64.lt_iff_toInt_lt] at hrange
    have hne : toI64 spec.step ≠ 0 := fun hz => by
      rw [hz] at hstep
      exact absurd hstep (by decide)
    exact h.counts_of_grid hk hc (by omega) (by omega) (by simpa [hne] using hgrid)

theorem counts_default (h : spec.Valid) (hk : spec.kind = .int) (hc : candidateCount spec ≤ 2 ^ 63)
    (hgrid : spec.DefaultOnGrid) : spec.Counts (resolveDefault spec) := by
  obtain ⟨hmin, hmax, -⟩ := h.int hk
  rw [h.resolveDefault_int hk]
  exact h.counts_of_grid hk hc hmin hmax (hgrid hk)

/-- Small integers are not rounded, so the default stays on the grid. -/
theorem defaultOnGrid (h : spec.Valid) (hsmall : spec.kind = .int →
    |spec.min| < 2 ^ 53 ∧ |spec.max| < 2 ^ 53 ∧ |spec.step| < 2 ^ 53 ∧ |spec.default| < 2 ^ 53) :
    spec.DefaultOnGrid := by
  intro hk
  obtain ⟨h1, -, h3, h4⟩ := hsmall hk
  simp only [Valid, hk] at h
  obtain ⟨min, max, step, default, -, -, -, hgrid, hmin, -, hstep, hdefault⟩ := h
  rw [hmin] at h1
  rw [hstep] at h3
  rw [hdefault] at h4
  rw [hmin, hstep, hdefault, isOnIntegerGrid_iff, roundTrip_of_lt h1, roundTrip_of_lt h3, roundTrip_of_lt h4]
  exact isOnIntegerGrid_iff.mp hgrid

end ParamSpec.Valid

/-! ## Parameter sets -/

/-- The parameter sets that the counting gives. -/
def InGrid (specs : List ParamSpec) (ps : ParamSet) : Prop :=
  Forall₂ (fun spec p => p.1 = spec.name ∧ spec.Counts p.2) specs ps

/-- A parameter set by the places of its values. -/
def placed (specs : List ParamSpec) (ks : List Nat) : ParamSet :=
  (specs.zip ks).map fun p => (p.1.name, paramValueAt p.1 p.2)

variable {specs : List ParamSpec} {ps : ParamSet} {ks js : List Nat} {total : Nat}

theorem inGrid_iff_placed :
    InGrid specs ps ↔ ∃ ks, Forall₂ (· < ·) ks (specs.map candidateCount) ∧ placed specs ks = ps := by
  constructor
  · intro h
    induction h with
    | nil => exact ⟨[], .nil, rfl⟩
    | @cons spec p specs ps hp _ ih =>
      obtain ⟨ks, hks, hplaced⟩ := ih
      obtain ⟨hname, k, hk, hvalue⟩ := hp
      exact ⟨k :: ks, .cons hk hks, List.cons_eq_cons.mpr ⟨Prod.ext hname.symm hvalue.symm, hplaced⟩⟩
  · rintro ⟨ks, hks, rfl⟩
    induction specs generalizing ks with
    | nil => exact .nil
    | cons spec specs ih =>
      obtain ⟨k, ks', hk, hks', rfl⟩ := List.forall₂_cons_right_iff.mp hks
      exact .cons ⟨rfl, k, hk, rfl⟩ (ih ks' hks')

theorem placed_inj (hv : ∀ spec ∈ specs, spec.Valid) (hc : ∀ spec ∈ specs, candidateCount spec ≤ 2 ^ 63)
    (hj : Forall₂ (· < ·) js (specs.map candidateCount)) (hk : Forall₂ (· < ·) ks (specs.map candidateCount))
    (h : placed specs js = placed specs ks) : js = ks := by
  induction specs generalizing js ks with
  | nil =>
    rw [List.forall₂_nil_right_iff.mp hj, List.forall₂_nil_right_iff.mp hk]
  | cons spec specs ih =>
    obtain ⟨j, js', hj', hjs, rfl⟩ := List.forall₂_cons_right_iff.mp hj
    obtain ⟨k, ks', hk', hks, rfl⟩ := List.forall₂_cons_right_iff.mp hk
    rw [List.forall_mem_cons] at hv hc
    obtain ⟨hhead, htail⟩ := List.cons_eq_cons.mp h
    have hplace : j = k := hv.1.valueAt_inj hc.1 hj' hk' (Prod.ext_iff.mp hhead).2
    rw [hplace, ih hv.2 hc.2 hjs hks htail]

theorem digits_lt_counts (specs : List ParamSpec) (i : Nat) :
    Forall₂ (· < ·) (Lib.Radix.digits (specs.map candidateCount) i).1 (specs.map candidateCount) :=
  Lib.Radix.digits_lt (List.forall_mem_map.mpr fun spec _ => candidateCount_pos spec) i

theorem combinationAt_inGrid (specs : List ParamSpec) (i : Nat) : InGrid specs (combinationAt specs i) :=
  inGrid_iff_placed.mpr ⟨_, digits_lt_counts specs i, rfl⟩

theorem combinationAt_inj (hv : ∀ spec ∈ specs, spec.Valid) (ht : totalCombinations specs = .ok total) {i j : Nat}
    (hi : i < total) (hj : j < total) (h : combinationAt specs i = combinationAt specs j) : i = j := by
  obtain ⟨rfl, hc⟩ := totalCombinations_ok ht
  exact Lib.Radix.digits_inj hi hj (placed_inj hv hc (digits_lt_counts specs i) (digits_lt_counts specs j) h)

/-- The grid is counted without repetition. -/
theorem inGrid_iff (hv : ∀ spec ∈ specs, spec.Valid) (ht : totalCombinations specs = .ok total) :
    InGrid specs ps ↔ ∃! i, i < total ∧ combinationAt specs i = ps := by
  constructor
  · intro h
    obtain ⟨ks, hks, rfl⟩ := inGrid_iff_placed.mp h
    obtain ⟨rfl, -⟩ := totalCombinations_ok ht
    have hplaced : combinationAt specs (Lib.Radix.number (specs.map candidateCount) ks) = placed specs ks := by
      unfold combinationAt
      rw [Lib.Radix.digits_number hks]
      rfl
    refine ⟨_, ⟨Lib.Radix.number_lt hks, hplaced⟩, fun j hj => ?_⟩
    exact combinationAt_inj hv ht hj.1 (Lib.Radix.number_lt hks) (hj.2.trans hplaced.symm)
  · rintro ⟨i, ⟨-, rfl⟩, -⟩
    exact combinationAt_inGrid specs i

/-! ## Resolving -/

theorem lookup_of_mem {α β : Type} [BEq α] [LawfulBEq α] {l : List (α × β)} (hn : (l.map Prod.fst).Nodup)
    {a : α} {b : β}
    (h : (a, b) ∈ l) : l.lookup a = some b := by
  induction l with
  | nil => exact absurd h List.not_mem_nil
  | cons p l ih =>
    obtain ⟨a', b'⟩ := p
    rw [List.map_cons, List.nodup_cons] at hn
    rcases List.mem_cons.mp h with heq | hmem
    · obtain ⟨rfl, rfl⟩ := Prod.mk.inj heq
      exact List.lookup_cons_self
    · have hkey : a ∈ l.map Prod.fst := List.mem_map.mpr ⟨(a, b), hmem, rfl⟩
      have hne : a ≠ a' := fun he => hn.1 (he ▸ hkey)
      rw [List.lookup_cons, beq_false_of_ne hne]
      exact ih hn.2 hmem

theorem InGrid.names (h : InGrid specs ps) : ps.map Prod.fst = specs.map ParamSpec.name := by
  induction h with
  | nil => rfl
  | cons hp _ ih => rw [List.map_cons, List.map_cons, hp.1, ih]

theorem paramsJson_names (ps : ParamSet) : (paramsJson ps).map Prod.fst = ps.map Prod.fst := by
  unfold paramsJson
  rw [List.map_map]
  rfl

/-- A parameter set of the grid, rendered as JSON, resolves to itself. -/
theorem InGrid.resolves (h : InGrid specs ps) (hv : ∀ spec ∈ specs, spec.Valid)
    (hc : ∀ spec ∈ specs, candidateCount spec ≤ 2 ^ 63) (hn : (specs.map ParamSpec.name).Nodup) :
    resolveParams specs (paramsJson ps) = .ok ps := by
  have hnames : (paramsJson ps).map Prod.fst = specs.map ParamSpec.name := (paramsJson_names ps).trans h.names
  unfold resolveParams
  rw [Lib.bind_eq_ok]
  refine ⟨(), Lib.forM_eq_ok.mpr fun e he => ?_, Lib.mapM_eq_ok.mpr (List.forall₂_iff_zip.mpr ⟨h.length_eq, ?_⟩)⟩
  · have hmem : e.1 ∈ specs.map ParamSpec.name := hnames ▸ List.mem_map_of_mem he
    rw [if_pos (List.contains_iff_mem.mpr hmem)]
    rfl
  · intro spec p hp
    obtain ⟨hspec, hmem⟩ := List.of_mem_zip hp
    obtain ⟨hname, hcounts⟩ := List.forall₂_zip h hp
    have hlookup : (paramsJson ps).lookup spec.name = some p.2.json := by
      refine lookup_of_mem (hnames ▸ hn) ?_
      rw [← hname]
      exact List.mem_map_of_mem (f := fun p : String × ParamValue => (p.1, p.2.json)) hmem
    simp only [hlookup, resolveGiven, (hv spec hspec).resolve_json (hc spec hspec) hcounts]
    exact congrArg Except.ok (Prod.ext hname.symm rfl)

/-- Where all parameters are integers, only the grid is accepted. -/
theorem inGrid_of_resolves (hv : ∀ spec ∈ specs, spec.Valid) (hc : ∀ spec ∈ specs, candidateCount spec ≤ 2 ^ 63)
    (hgrid : ∀ spec ∈ specs, spec.DefaultOnGrid) (hint : ∀ spec ∈ specs, spec.kind = .int)
    {given : List (String × Json)} (h : resolveParams specs given = .ok ps) : InGrid specs ps := by
  obtain ⟨_, -, h⟩ := Lib.bind_eq_ok.mp h
  have hall := List.forall₂_iff_zip.mp (Lib.mapM_eq_ok.mp h)
  refine List.forall₂_iff_zip.mpr ⟨hall.1, fun {spec p} hp => ?_⟩
  have hspec := (List.of_mem_zip hp).1
  obtain ⟨v, hvalue, hpair⟩ := Lib.bind_eq_ok.mp (hall.2 hp)
  obtain rfl := Except.ok.inj hpair
  refine ⟨rfl, ?_⟩
  rcases hgiven : given.lookup spec.name with _ | json
  · rw [hgiven] at hvalue
    obtain rfl := Except.ok.inj hvalue
    exact (hv spec hspec).counts_default (hint spec hspec) (hc spec hspec) (hgrid spec hspec)
  · rw [hgiven] at hvalue
    exact (hv spec hspec).counts_of_resolve (hint spec hspec) (hc spec hspec) hvalue

theorem grid_and_arguments_agree {map : ParamMap} (h : parseParamSpecs map = .ok specs)
    (ht : totalCombinations specs = .ok total)
    (hsmall : ∀ spec ∈ specs, spec.kind = .int →
      |spec.min| < 2 ^ 53 ∧ |spec.max| < 2 ^ 53 ∧ |spec.step| < 2 ^ 53 ∧ |spec.default| < 2 ^ 53) :
    (∀ i j, i < total → j < total → combinationAt specs i = combinationAt specs j → i = j) ∧
    (∀ i, resolveParams specs (paramsJson (combinationAt specs i)) = .ok (combinationAt specs i)) ∧
    ((∀ spec ∈ specs, spec.kind = .int) → ∀ given ps, resolveParams specs given = .ok ps →
      ∃! i, i < total ∧ combinationAt specs i = ps) := by
  obtain ⟨hv, hnames⟩ := parseParamSpecs_ok h
  obtain ⟨-, hc⟩ := totalCombinations_ok ht
  have hn : (specs.map ParamSpec.name).Nodup := List.pairwise_map.mpr (hnames.imp fun hab => hab.ne)
  refine ⟨fun i j hi hj => combinationAt_inj hv ht hi hj, fun i => ?_, fun hint given ps hr => ?_⟩
  · exact (combinationAt_inGrid specs i).resolves hv hc hn
  · have hgrid : ∀ spec ∈ specs, spec.DefaultOnGrid := fun spec hs => (hv spec hs).defaultOnGrid (hsmall spec hs)
    exact (inGrid_iff hv ht).mp (inGrid_of_resolves hv hc hgrid hint hr)

/-- A strategy with one integer parameter. -/
def sampleLengths : ParamMap where
  entries := [("length", .map [("min", .int 5), ("max", .int 22), ("step", .int 5), ("default", .int 10)])]
  nodup := by decide

/-- A strategy with an integer and a float parameter, and one with an integer alone. -/
theorem sampleSpecs_agree :
    (∀ i j, i < 16 → j < 16 → combinationAt sampleSpecs i = combinationAt sampleSpecs j → i = j) ∧
    (∀ i, resolveParams sampleSpecs (paramsJson (combinationAt sampleSpecs i)) = .ok (combinationAt sampleSpecs i)) ∧
    ∀ given ps, resolveParams [⟨"length", .int, 5, 22, 5, 10⟩] given = .ok ps →
      ∃! i, i < 4 ∧ combinationAt [⟨"length", .int, 5, 22, 5, 10⟩] i = ps := by
  obtain ⟨hinjective, hresolved, -⟩ := @grid_and_arguments_agree sampleSpecs 16 sampleParams (by decide +kernel)
    (by decide +kernel) (by decide +kernel)
  exact ⟨hinjective, hresolved, (@grid_and_arguments_agree _ 4 sampleLengths (by decide +kernel) (by decide +kernel)
    (by decide +kernel)).2.2 (by decide)⟩

end AutoTrader.Sim
