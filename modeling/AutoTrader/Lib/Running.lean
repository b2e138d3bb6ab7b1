import Mathlib.Algebra.BigOperators.Group.List.Basic
import Mathlib.Data.List.Nodup
import Mathlib.Order.Lattice

/-!
# Running totals

`running acc rows` gives every row of a list the total so far. Where the keys of the rows ascend, the total at
a key is `acc` with all amounts up to that key (`mem_running`), and `sum_fibres` says that the amounts of the
values of a list, added up key by key, are the amounts of those whose key is among the keys.
-/

namespace Lib

variable {κ M V : Type} [AddCommMonoid M]

/-- The total up to each row, after `acc`. -/
def running (acc : M) : List (κ × M) → List (κ × M)
  | [] => []
  | (k, x) :: rows => (k, acc + x) :: running (acc + x) rows

@[simp] theorem map_fst_running (acc : M) (rows : List (κ × M)) :
    (running acc rows).map Prod.fst = rows.map Prod.fst := by
  induction rows generalizing acc with
  | nil => rfl
  | cons row rows ih => simp only [running, List.map_cons, ih]

/-- The last total is the one over all rows. -/
theorem getLast?_running (acc : M) (rows : List (κ × M)) :
    (running acc rows).getLast?.map Prod.snd = if rows = [] then none else some (acc + (rows.map Prod.snd).sum) := by
  induction rows generalizing acc with
  | nil => rfl
  | cons row rows ih =>
    obtain ⟨k, x⟩ := row
    rcases rows with _ | ⟨row, rows⟩
    · simp [running]
    · have hcons : running acc ((k, x) :: row :: rows) = (k, acc + x) :: running (acc + x) (row :: rows) := rfl
      have hne : running (acc + x) (row :: rows) ≠ [] := by
        obtain ⟨k', x'⟩ := row
        exact List.cons_ne_nil _ _
      rw [hcons, List.getLast?_cons_of_ne_nil hne, ih (acc + x)]
      simp only [reduceCtorEq, ↓reduceIte, List.map_cons, List.sum_cons, add_assoc]

section

variable [LinearOrder κ]

/-- The total at a key is over the rows up to that key. -/
theorem mem_running {acc : M} {rows : List (κ × M)} (h : (rows.map Prod.fst).Pairwise (· < ·)) {k : κ} {b : M}
    (hb : (k, b) ∈ running acc rows) : b = acc + ((rows.filter fun row => row.1 ≤ k).map Prod.snd).sum := by
  induction rows generalizing acc with
  | nil => cases hb
  | cons row rows ih =>
    obtain ⟨k', x⟩ := row
    rw [List.map_cons, List.pairwise_cons] at h
    rcases List.mem_cons.mp hb with heq | hb
    · obtain ⟨rfl, rfl⟩ := Prod.mk.inj heq
      have hnone : (rows.filter fun row => row.1 ≤ k) = [] := by
        refine List.filter_eq_nil_iff.mpr fun row hr => ?_
        simpa using h.1 row.1 (List.mem_map_of_mem hr)
      simp [hnone]
    · have hk : k' < k := by
        refine h.1 k ?_
        rw [← map_fst_running (acc + x) rows]
        exact List.mem_map_of_mem hb
      rw [ih h.2 hb]
      simp [hk.le, add_assoc]

end

/-- The amounts of the values, added up key by key. -/
theorem sum_fibres [DecidableEq κ] (key : V → κ) (amount : V → M) (vs : List V) {ks : List κ} (hks : ks.Nodup) :
    (ks.map fun k => ((vs.filter fun v => key v = k).map amount).sum).sum =
      ((vs.filter fun v => key v ∈ ks).map amount).sum := by
  induction ks with
  | nil => simp
  | cons k ks ih =>
    obtain ⟨hk, hks⟩ := List.nodup_cons.mp hks
    rw [List.map_cons, List.sum_cons, ih hks]
    clear ih
    induction vs with
    | nil => simp
    | cons v vs ih =>
      by_cases hv : key v = k
      · have hnot : key v ∉ ks := by rwa [hv]
        simp only [hv, hk, List.filter_cons, List.mem_cons, decide_true, or_false, ↓reduceIte, List.map_cons,
          List.sum_cons, decide_false, Bool.false_eq_true, add_assoc] at ih ⊢
        rw [ih]
      · simp only [hv, List.filter_cons, List.mem_cons, false_or, decide_false, Bool.false_eq_true, ↓reduceIte] at ih ⊢
        by_cases hmem : key v ∈ ks
        · simp only [hmem, decide_true, ↓reduceIte, List.map_cons, List.sum_cons]
          rw [← ih, add_left_comm]
        · simp only [hmem, decide_false, Bool.false_eq_true, ↓reduceIte]
          exact ih

/-! ## Consecutive numbers -/

/-- The numbers from the first up to the last. -/
def numbers (first last : Int) : List Int := (List.range (last - first + 1).toNat).map fun i : Nat => first + i

theorem mem_numbers {first last n : Int} : n ∈ numbers first last ↔ first ≤ n ∧ n ≤ last := by
  simp only [numbers, List.mem_map, List.mem_range]
  constructor
  · rintro ⟨i, hi, rfl⟩
    omega
  · rintro ⟨hfirst, hlast⟩
    exact ⟨(n - first).toNat, by omega, by omega⟩

theorem pairwise_numbers (first last : Int) : (numbers first last).Pairwise (· < ·) := by
  refine List.pairwise_map.mpr (List.pairwise_lt_range.imp fun {i j} hij => ?_)
  omega

theorem getLast?_numbers {first last : Int} (h : first ≤ last) : (numbers first last).getLast? = some last := by
  have hlength : (last - first + 1).toNat = (last - first).toNat + 1 := by omega
  rw [numbers, hlength, List.range_succ, List.map_append, List.map_singleton, List.getLast?_concat]
  congr 1
  omega

end Lib
