import AutoTrader.Sim.SweepDefault

/-!
# The combinations that a sweep runs

`selectIndices` takes the index of the defaults first and then all other indices, or a sample of them if there
are more than may be run. The sample is one of a range that is one shorter, and what it draws from the index of
the defaults on is moved up by one (`skipOver`), so no index is drawn twice (`selected`).
-/

namespace AutoTrader.Sim

/-- An index among all but one. -/
def skipOver (defaultIdx j : Nat) : Nat := if j < defaultIdx then j else j + 1

/-- The indices to run; `sample seed len k` is what the generator of that seed draws. -/
def selectIndices (sample : Nat → Nat → Nat → List Nat) (specs : List ParamSpec) (maxRuns seed : Nat) :
    Except SimError (List Nat) := do
  let total ← totalCombinations specs
  let defaultIdx ← defaultIndex specs
  if maxRuns = 0 then return []
  if total ≤ maxRuns then
    return defaultIdx :: (List.range total).filter fun i => i ≠ defaultIdx
  let poolLen := total - 1
  let take := maxRuns - 1
  if 2 ^ 64 ≤ poolLen then
    throw (.other [
      .lit ("invalid platform: total_combinations is capped at 2^63, which must fit in usize on our " ++
        "64-bit targets, but converting "),
      .arg (toString poolLen), .lit " to usize failed: ", .arg "out of range integral type conversion attempted"])
  let sampled := sample seed poolLen take
  return defaultIdx :: sampled.map (skipOver defaultIdx)

/-- What a sample of `k` indices below `len` is: that many of them, none twice. -/
def Samples (sample : Nat → Nat → Nat → List Nat) : Prop :=
  ∀ seed len k, k ≤ len →
    (sample seed len k).Nodup ∧ (sample seed len k).length = k ∧ ∀ j ∈ sample seed len k, j < len

variable {d j i n : Nat}

theorem skipOver_inj (h : skipOver d i = skipOver d j) : i = j := by
  unfold skipOver at h
  split at h <;> split at h <;> omega

theorem skipOver_ne (d j : Nat) : skipOver d j ≠ d := by
  unfold skipOver
  split <;> omega

theorem skipOver_lt (hj : j < n - 1) : skipOver d j < n := by
  unfold skipOver
  split <;> omega

/-- The index of the defaults before the others. -/
theorem nodup_all (d n : Nat) : (d :: (List.range n).filter fun i => i ≠ d).Nodup := by
  refine List.nodup_cons.mpr ⟨fun hd => ?_, List.nodup_range.filter _⟩
  simp at hd

theorem mem_all (hd : d < n) : i ∈ d :: (List.range n).filter (fun i => i ≠ d) ↔ i < n := by
  rw [List.mem_cons, List.mem_filter, List.mem_range, decide_eq_true_eq]
  omega

theorem length_all (hd : d < n) : (d :: (List.range n).filter fun i => i ≠ d).length = n := by
  have hperm : (d :: (List.range n).filter fun i => i ≠ d).Perm (List.range n) :=
    (List.perm_ext_iff_of_nodup (nodup_all d n) List.nodup_range).mpr fun i => by
      rw [mem_all hd, List.mem_range]
  rw [hperm.length_eq, List.length_range]

/-- The index of the defaults before a sample of the others. -/
theorem nodup_sampled {l : List Nat} (h : l.Nodup) (d : Nat) : (d :: l.map (skipOver d)).Nodup := by
  refine List.nodup_cons.mpr ⟨fun hd => ?_, h.map fun i j => skipOver_inj⟩
  obtain ⟨j, -, hj⟩ := List.mem_map.mp hd
  exact skipOver_ne d j hj

theorem sampled_lt {l : List Nat} (h : ∀ j ∈ l, j < n - 1) (hd : d < n) : ∀ i ∈ d :: l.map (skipOver d), i < n := by
  rw [List.forall_mem_cons, List.forall_mem_map]
  exact ⟨hd, fun j hj => skipOver_lt (h j hj)⟩

theorem selected {sample : Nat → Nat → Nat → List Nat} (hs : Samples sample) {map : ParamMap}
    {specs : List ParamSpec} {total : Nat} (h : parseParamSpecs map = .ok specs)
    (ht : totalCombinations specs = .ok total) (maxRuns seed : Nat) :
    ∃ l, selectIndices sample specs maxRuns seed = .ok l ∧ l.Nodup ∧ l.length = min total maxRuns ∧
      (∀ i ∈ l, i < total) ∧
      (1 ≤ maxRuns → ∃ d, defaultIndex specs = .ok d ∧ l.head? = some d) ∧
      (total ≤ maxRuns → ∀ i, i ∈ l ↔ i < total) := by
  obtain ⟨d, hd, hlt, -⟩ := defaultIndex_spec (parseParamSpecs_ok h).1 ht
  have hmax : total ≤ maxTotalCombinations := (foldlM_countSpec (by decide) ht).2
  unfold maxTotalCombinations at hmax
  simp only [selectIndices, ht, hd]
  rcases Nat.eq_zero_or_pos maxRuns with rfl | hpos
  · exact ⟨[], rfl, List.nodup_nil, by simp, by simp, by omega, by omega⟩
  rcases Nat.lt_or_ge maxRuns total with hfew | hall
  · obtain ⟨hnodup, hlength, hbelow⟩ := hs seed (total - 1) (maxRuns - 1) (by omega)
    refine ⟨d :: (sample seed (total - 1) (maxRuns - 1)).map (skipOver d), ?_, nodup_sampled hnodup d, ?_,
      sampled_lt hbelow hlt, fun _ => ⟨d, rfl, rfl⟩, by omega⟩
    · simp [bind, Except.bind, pure, Except.pure, show maxRuns ≠ 0 by omega, show ¬total ≤ maxRuns by omega]
      omega
    · rw [List.length_cons, List.length_map, hlength]
      omega
  · refine ⟨d :: (List.range total).filter fun i => i ≠ d, ?_, nodup_all d total, ?_,
      fun i hi => (mem_all hlt).mp hi, fun _ => ⟨d, rfl, rfl⟩, fun _ i => mem_all hlt⟩
    · simp [bind, Except.bind, pure, Except.pure, show maxRuns ≠ 0 by omega, hall]
    · rw [length_all hlt]
      omega

theorem samples_range : Samples fun _ _ k => List.range k := fun _ _ _ hk =>
  ⟨List.nodup_range, List.length_range, fun _ hj => (List.mem_range.mp hj).trans_le hk⟩

/-- Five runs of 16 combinations: the default and four that are drawn. -/
theorem sampleSpecs_selected :
    ∃ l, selectIndices (fun _ _ k => List.range k) sampleSpecs 5 0 = .ok l ∧ l.Nodup ∧ l.length = min 16 5 ∧
      (∀ i ∈ l, i < 16) ∧ (1 ≤ 5 → ∃ d, defaultIndex sampleSpecs = .ok d ∧ l.head? = some d) ∧
      (16 ≤ 5 → ∀ i, i ∈ l ↔ i < 16) :=
  @selected _ samples_range sampleParams _ _ (by decide +kernel) (by decide +kernel) 5 0

end AutoTrader.Sim
