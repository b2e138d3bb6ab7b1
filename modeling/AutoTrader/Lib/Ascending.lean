import Mathlib.Data.List.Basic
import Mathlib.Data.List.Pairwise

/-!
# Ascending records

Records of one key come in ascending order: each that follows another has a later time. Then no two of them have the
same key and time (`Ascending.filter_eq_singleton`). `ascending_append` and `ascending_of_keys` build such lists.
-/

namespace Lib

variable {α κ τ : Type} [LT τ] {key : α → κ} {time : α → τ}

/-- Of two records with the same key the second has a later time. -/
def Ascending (key : α → κ) (time : α → τ) (xs : List α) : Prop :=
  xs.Pairwise fun x y => key x = key y → time x < time y

theorem ascending_nil : Ascending key time [] := .nil

theorem ascending_append {xs ys : List α} (hxs : Ascending key time xs) (hys : Ascending key time ys)
    (hlt : ∀ x ∈ xs, ∀ y ∈ ys, time x < time y) : Ascending key time (xs ++ ys) :=
  List.pairwise_append.mpr ⟨hxs, hys, fun x hx y hy _ => hlt x hx y hy⟩

/-- Records of different keys are ascending whatever their times are. -/
theorem ascending_of_keys {xs : List α} (h : xs.Pairwise fun x y => key x ≠ key y) : Ascending key time xs :=
  h.imp fun hne heq => absurd heq hne

section

variable [DecidableEq κ] [DecidableEq τ] {xs : List α} (hirrefl : ∀ t : τ, ¬t < t)

include hirrefl

/-- Among ascending records the one with a key and a time is alone. -/
theorem Ascending.filter_eq_singleton (h : Ascending key time xs) {x : α} (hx : x ∈ xs) :
    xs.filter (fun y => key y = key x ∧ time y = time x) = [x] := by
  have hmem : x ∈ xs.filter fun y => key y = key x ∧ time y = time x := List.mem_filter.mpr ⟨hx, by simp⟩
  have hsame : ∀ y ∈ xs.filter fun y => key y = key x ∧ time y = time x, key y = key x ∧ time y = time x :=
    fun y hy => by simpa using (List.mem_filter.mp hy).2
  have hpairwise := List.Pairwise.filter (fun y => key y = key x ∧ time y = time x) h
  generalize xs.filter (fun y => key y = key x ∧ time y = time x) = l at *
  rcases l with _ | ⟨y, _ | ⟨z, l⟩⟩
  · exact absurd hmem List.not_mem_nil
  · exact congrArg (fun c => [c]) (List.mem_singleton.mp hmem).symm
  · have hy := hsame y (by simp)
    have hz := hsame z (by simp)
    have hlt := (List.pairwise_cons.mp hpairwise).1 z (by simp) (hy.1.trans hz.1.symm)
    rw [hy.2, hz.2] at hlt
    exact absurd hlt (hirrefl _)

theorem Ascending.length_filter_le (h : Ascending key time xs) (k : κ) (t : τ) :
    (xs.filter fun y => key y = k ∧ time y = t).length ≤ 1 := by
  rcases hl : xs.filter (fun y => key y = k ∧ time y = t) with _ | ⟨x, l⟩
  · exact Nat.zero_le 1
  · have hx : x ∈ xs.filter fun y => key y = k ∧ time y = t := hl ▸ List.mem_cons_self
    obtain ⟨hmem, hsame⟩ := List.mem_filter.mp hx
    obtain ⟨rfl, rfl⟩ : key x = k ∧ time x = t := by simpa using hsame
    rw [← hl, h.filter_eq_singleton hirrefl hmem]
    exact Nat.le_refl 1

end

end Lib
