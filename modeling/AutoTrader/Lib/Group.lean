import Mathlib.Data.List.Nodup
import Mathlib.Tactic.Basic

/-!
# Grouping by a key

`groupBy key vs` puts every value of a list into the bucket of its key, one after the other, as a map with
an entry for each key would. A bucket holds the values of its key in their order (`mem_groupBy`). The
buckets themselves come in the order of their first values.
-/

namespace Lib

variable {K V : Type} [DecidableEq K] {key : V → K}

/-- The buckets with one more value, at the end of the bucket of its key. -/
def addToBucket (key : V → K) (v : V) : List (K × List V) → List (K × List V)
  | [] => [(key v, [v])]
  | (k, bucket) :: buckets =>
    if k = key v then (k, bucket ++ [v]) :: buckets else (k, bucket) :: addToBucket key v buckets

/-- The values by their keys, in the order of the first of each. -/
def groupBy (key : V → K) (vs : List V) : List (K × List V) :=
  vs.foldl (fun buckets v => addToBucket key v buckets) []

/-- What the buckets hold of a list of values: one bucket for each key, with the values of that key. -/
structure Grouped (key : V → K) (vs : List V) (buckets : List (K × List V)) : Prop where
  nodup : (buckets.map Prod.fst).Nodup
  keys : ∀ k, k ∈ buckets.map Prod.fst ↔ k ∈ vs.map key
  bucket : ∀ k bucket, (k, bucket) ∈ buckets → bucket = vs.filter fun v => key v = k

theorem map_fst_addToBucket (key : V → K) (v : V) : ∀ buckets : List (K × List V),
    (addToBucket key v buckets).map Prod.fst =
      if key v ∈ buckets.map Prod.fst then buckets.map Prod.fst else buckets.map Prod.fst ++ [key v]
  | [] => by simp [addToBucket]
  | (k, bucket) :: buckets => by
    have ih := map_fst_addToBucket key v buckets
    simp only [addToBucket]
    by_cases hk : k = key v
    · simp [hk]
    · have hne : ¬ key v = k := fun h => hk h.symm
      simp only [hk, ↓reduceIte, List.map_cons, ih, List.mem_cons, hne, false_or]
      split <;> rfl

theorem mem_addToBucket {v : V} {k : K} {b : List V} : ∀ {buckets : List (K × List V)},
    (buckets.map Prod.fst).Nodup → (k, b) ∈ addToBucket key v buckets →
      (∃ old, (k, old) ∈ buckets ∧ b = if key v = k then old ++ [v] else old) ∨
        key v = k ∧ k ∉ buckets.map Prod.fst ∧ b = [v]
  | [], _, h => by
    simp only [addToBucket, List.mem_singleton, Prod.mk.injEq] at h
    exact .inr ⟨h.1.symm, by simp, h.2⟩
  | (k', b') :: buckets, hn, h => by
    simp only [List.map_cons, List.nodup_cons] at hn
    simp only [addToBucket] at h
    by_cases hk : k' = key v
    · rw [if_pos hk] at h
      rcases List.mem_cons.mp h with heq | h
      · obtain ⟨rfl, rfl⟩ := Prod.mk.inj heq
        exact .inl ⟨b', List.mem_cons_self, by rw [if_pos hk.symm]⟩
      · refine .inl ⟨b, List.mem_cons_of_mem _ h, ?_⟩
        rw [if_neg fun hv => hn.1 ?_]
        rw [hk, hv]
        exact List.mem_map_of_mem h
    · rw [if_neg hk] at h
      rcases List.mem_cons.mp h with heq | h
      · obtain ⟨rfl, rfl⟩ := Prod.mk.inj heq
        exact .inl ⟨b, List.mem_cons_self, by rw [if_neg (Ne.symm hk)]⟩
      · rcases mem_addToBucket hn.2 h with ⟨old, ho, hb⟩ | ⟨hv, hnew, hb⟩
        · exact .inl ⟨old, List.mem_cons_of_mem _ ho, hb⟩
        · refine .inr ⟨hv, ?_, hb⟩
          rw [List.map_cons, List.mem_cons, not_or]
          exact ⟨fun h => hk (h.symm.trans hv.symm), hnew⟩

theorem Grouped.add {vs : List V} {buckets : List (K × List V)} (h : Grouped key vs buckets) (v : V) :
    Grouped key (vs ++ [v]) (addToBucket key v buckets) := by
  have hfst := map_fst_addToBucket key v buckets
  refine ⟨?_, fun k => ?_, fun k b hb => ?_⟩
  · rw [hfst]
    split
    · exact h.nodup
    · rename_i hnew
      refine List.nodup_append.mpr ⟨h.nodup, List.nodup_singleton _, fun a ha b hb => ?_⟩
      rw [List.mem_singleton.mp hb]
      exact fun hab => hnew (hab ▸ ha)
  · rw [hfst, List.map_append, List.mem_append, ← h.keys k]
    split
    · rename_i hold
      refine ⟨Or.inl, fun hk => hk.elim id fun hk => ?_⟩
      rw [List.mem_singleton.mp hk]
      exact hold
    · rw [List.mem_append]
      rfl
  · rw [List.filter_append]
    rcases mem_addToBucket h.nodup hb with ⟨old, ho, rfl⟩ | ⟨hv, hnew, rfl⟩
    · rw [h.bucket k old ho]
      by_cases hv : key v = k
      · simp [hv]
      · simp [hv]
    · have hnone : vs.filter (fun v => key v = k) = [] := by
        refine List.filter_eq_nil_iff.mpr fun u hu huk => hnew ((h.keys k).mpr ?_)
        rw [← of_decide_eq_true huk]
        exact List.mem_map_of_mem hu
      simp [hnone, hv]

theorem grouped_groupBy (vs : List V) : Grouped key vs (groupBy key vs) := by
  have fold : ∀ (us done : List V) (buckets : List (K × List V)), Grouped key done buckets →
      Grouped key (done ++ us) (us.foldl (fun buckets v => addToBucket key v buckets) buckets) := by
    intro us
    induction us with
    | nil =>
      intro done buckets h
      rwa [List.append_nil]
    | cons u us ih =>
      intro done buckets h
      rw [List.append_cons]
      exact ih _ _ (h.add u)
  exact fold vs [] [] ⟨List.nodup_nil, by simp, by simp⟩

/-- A bucket holds the values of its key, in their order. -/
theorem mem_groupBy {vs : List V} {k : K} {b : List V} (h : (k, b) ∈ groupBy key vs) :
    b = vs.filter fun v => key v = k :=
  (grouped_groupBy vs).bucket k b h

/-- There is a bucket for each key that has values. -/
theorem mem_groupBy_iff {vs : List V} {k : K} {b : List V} :
    (k, b) ∈ groupBy key vs ↔ b = vs.filter (fun v => key v = k) ∧ b ≠ [] := by
  have hgrouped : Grouped key vs (groupBy key vs) := grouped_groupBy vs
  constructor
  · intro h
    have hb := mem_groupBy h
    refine ⟨hb, ?_⟩
    obtain ⟨v, hv, hk⟩ := List.mem_map.mp ((hgrouped.keys k).mp (List.mem_map_of_mem h))
    rw [hb]
    exact List.ne_nil_of_mem (List.mem_filter.mpr ⟨hv, decide_eq_true hk⟩)
  · rintro ⟨rfl, hne⟩
    obtain ⟨v, hv⟩ := List.exists_mem_of_ne_nil _ hne
    rw [List.mem_filter, decide_eq_true_eq] at hv
    have hk : k ∈ (groupBy key vs).map Prod.fst := (hgrouped.keys k).mpr (List.mem_map.mpr ⟨v, hv⟩)
    obtain ⟨⟨k', b⟩, hb, rfl⟩ := List.mem_map.mp hk
    rw [← mem_groupBy hb]
    exact hb

/-- The bucket of a key. -/
theorem lookup_groupBy (vs : List V) (k : K) : (groupBy key vs).lookup k =
    if vs.filter (fun v => key v = k) = [] then none else some (vs.filter fun v => key v = k) := by
  rcases hb : (groupBy key vs).lookup k with _ | b
  · rw [List.lookup_eq_none_iff] at hb
    split
    · rfl
    · rename_i hne
      have hnot := hb _ (mem_groupBy_iff.mpr ⟨rfl, hne⟩)
      simp at hnot
  · obtain ⟨before, after, hsplit, -⟩ := List.lookup_eq_some_iff.mp hb
    have hmem : (k, b) ∈ groupBy key vs := by
      rw [hsplit]
      exact List.mem_append_right _ List.mem_cons_self
    obtain ⟨rfl, hne⟩ := mem_groupBy_iff.mp hmem
    rw [if_neg hne]

end Lib
