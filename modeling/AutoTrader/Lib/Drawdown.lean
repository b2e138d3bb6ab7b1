import Mathlib.Algebra.BigOperators.Group.List.Lemmas
import Mathlib.Algebra.Order.Group.Defs
import Mathlib.Data.List.Induction
import Mathlib.Order.Bounds.Basic
import Mathlib.Tactic.Abel

/-!
# Drawdowns

A list of changes takes a level up and down. The falls of the list are the differences between a level and a later one,
the level before the first change included. `Running` is one pass over the changes that keeps the peak so far, and
`worstFall_isGreatest` says that it finds the greatest fall, whatever the level it starts from.
-/

namespace Lib

variable {α β : Type} [AddCommGroup α] [AddCommGroup β]

/-- What the first `k` changes add up to. -/
def level (xs : List α) (k : Nat) : α := (xs.take k).sum

/-- Every fall from a level to a later one. -/
def falls (xs : List α) : Set α := {d | ∃ i j, i ≤ j ∧ j ≤ xs.length ∧ level xs i - level xs j = d}

/-- The levels from a start on. -/
def levels (start : α) (xs : List α) : Set α := {l | ∃ i ≤ xs.length, start + level xs i = l}

@[simp] theorem level_zero (xs : List α) : level xs 0 = 0 := by
  simp [level]

theorem level_append {xs : List α} {k : Nat} (h : k ≤ xs.length) (ys : List α) : level (xs ++ ys) k = level xs k := by
  rw [level, List.take_append_of_le_length h, level]

theorem level_concat (xs : List α) (x : α) : level (xs ++ [x]) (xs.length + 1) = xs.sum + x := by
  simp [level, List.take_of_length_le]

theorem falls_append {xs : List α} {d : α} (h : d ∈ falls xs) (ys : List α) : d ∈ falls (xs ++ ys) := by
  obtain ⟨i, j, hij, hj, hd⟩ := h
  refine ⟨i, j, hij, by simp only [List.length_append]; omega, ?_⟩
  rw [level_append (hij.trans hj), level_append hj, hd]

theorem zero_mem_falls (xs : List α) : (0 : α) ∈ falls xs := ⟨0, 0, le_refl 0, Nat.zero_le _, sub_self _⟩

theorem level_map (f : α →+ β) (xs : List α) (k : Nat) : level (xs.map f) k = f (level xs k) := by
  rw [level, ← List.map_take, level, map_list_sum]

/-- The levels of one change more. -/
theorem levels_concat (b : α) (xs : List α) (x : α) : levels b (xs ++ [x]) = insert (b + xs.sum + x) (levels b xs) := by
  ext l
  constructor
  · rintro ⟨i, hi, rfl⟩
    rcases Nat.lt_or_ge xs.length i with hlt | hle
    · obtain rfl : i = xs.length + 1 := by
        simp only [List.length_append, List.length_singleton] at hi
        omega
      exact .inl (by rw [level_concat, add_assoc])
    · exact .inr ⟨i, hle, by rw [level_append hle]⟩
  · rintro (rfl | ⟨i, hi, rfl⟩)
    · exact ⟨xs.length + 1, by simp, by rw [level_concat, add_assoc]⟩
    · exact ⟨i, by simp only [List.length_append, List.length_singleton]; omega, by rw [level_append hi]⟩

section Map

variable [LinearOrder α] [LinearOrder β]

/-- The greatest fall keeps its place under a monotone map. -/
theorem isGreatest_falls_map {f : α →+ β} (hf : Monotone f) {xs : List α} {m : α} (h : IsGreatest (falls xs) m) :
    IsGreatest (falls (xs.map f)) (f m) := by
  obtain ⟨⟨i, j, hij, hj, hm⟩, hle⟩ := h
  refine ⟨⟨i, j, hij, by simpa using hj, ?_⟩, ?_⟩
  · rw [level_map, level_map, ← map_sub, hm]
  · rintro d ⟨i, j, hij, hj, rfl⟩
    rw [level_map, level_map, ← map_sub]
    exact hf (hle ⟨i, j, hij, by simpa using hj, rfl⟩)

end Map

/-! ## One pass -/

variable [LinearOrder α]

/-- The state of a drawdown loop. -/
structure Running (α : Type) where
  peak : α
  now : α
  worst : α

namespace Running

/-- The state before the first change. -/
def start (b : α) : Running α := ⟨b, b, 0⟩

/-- The state after one more change. -/
def next (r : Running α) (x : α) : Running α :=
  ⟨max r.peak (r.now + x), r.now + x, max r.worst (max r.peak (r.now + x) - (r.now + x))⟩

/-- What a pass knows after the changes. -/
structure Tracks (b : α) (xs : List α) (r : Running α) : Prop where
  now : r.now = b + xs.sum
  peak : IsGreatest (levels b xs) r.peak
  worst : IsGreatest (falls xs) r.worst

theorem tracks_start (b : α) : Tracks b [] (start b) := by
  refine ⟨by simp [start], ⟨⟨0, le_refl 0, by simp [start]⟩, ?_⟩, ⟨zero_mem_falls [], ?_⟩⟩
  · rintro l ⟨i, hi, rfl⟩
    obtain rfl : i = 0 := by simpa using hi
    simp [start]
  · rintro d ⟨i, j, hij, hj, rfl⟩
    obtain rfl : j = 0 := by simpa using hj
    obtain rfl : i = 0 := by omega
    simp [start]

variable {b : α} {xs : List α} {r : Running α}

variable [IsOrderedAddMonoid α]

theorem Tracks.next (h : Tracks b xs r) (x : α) : Tracks b (xs ++ [x]) (r.next x) := by
  have hnow : r.now + x = b + xs.sum + x := by rw [h.now]
  have hpeak : IsGreatest (levels b (xs ++ [x])) (max r.peak (r.now + x)) := by
    rw [levels_concat, ← hnow, max_comm]
    exact h.peak.insert (r.now + x)
  refine ⟨by simp [Running.next, h.now, add_assoc], hpeak, ?_, ?_⟩
  · -- the worst fall so far, or the one from the peak to the new level
    rcases max_choice r.worst (max r.peak (r.now + x) - (r.now + x)) with hmax | hmax
    · show max r.worst _ ∈ _
      rw [hmax]
      exact falls_append h.worst.1 [x]
    · obtain ⟨i, hi, hl⟩ := hpeak.1
      refine ⟨i, xs.length + 1, by simpa using hi, by simp, ?_⟩
      show _ = max r.worst _
      rw [hmax, ← hl, level_concat, hnow]
      abel
  · rintro d ⟨i, j, hij, hj, rfl⟩
    rcases Nat.lt_or_ge xs.length j with hlt | hle
    · obtain rfl : j = xs.length + 1 := by
        simp only [List.length_append, List.length_singleton] at hj
        omega
      have hi : b + level (xs ++ [x]) i ≤ max r.peak (r.now + x) := hpeak.2 ⟨i, by simpa using hij, rfl⟩
      refine le_trans ?_ (le_max_right _ _)
      rw [le_sub_iff_add_le, level_concat]
      refine le_trans (le_of_eq ?_) hi
      rw [hnow]
      abel
    · rw [level_append (hij.trans hle), level_append hle]
      exact le_max_of_le_left (h.worst.2 ⟨i, j, hij, hle, rfl⟩)

theorem tracks_run (b : α) (xs : List α) : Tracks b xs (xs.foldl Running.next (start b)) := by
  induction xs using List.reverseRecOn with
  | nil => exact tracks_start b
  | append_singleton xs x ih =>
    rw [List.foldl_concat]
    exact ih.next x

end Running

/-- What the loop returns. -/
def worstFall (b : α) (xs : List α) : α := (xs.foldl Running.next (Running.start b)).worst

theorem worstFall_isGreatest [IsOrderedAddMonoid α] (b : α) (xs : List α) : IsGreatest (falls xs) (worstFall b xs) :=
  (Running.tracks_run b xs).worst

end Lib
