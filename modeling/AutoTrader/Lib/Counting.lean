import Mathlib.Data.List.Basic
import Mathlib.Algebra.Ring.Nat

/-!
# Counting in lists

Counts over a slice of a list are counts over its indices (`countP_slice`), and counting pairs by their first or by
their second part gives the same (`sum_countP_comm`).
-/

namespace Lib

variable {α β : Type}

theorem countP_slice (l : List α) (p : α → Bool) (s k : Nat) :
    ((l.take k).drop s).countP p =
      (List.range l.length).countP fun i => decide (s ≤ i) && decide (i < k) && l[i]?.any p := by
  induction l generalizing s k with
  | nil => simp
  | cons x l ih =>
    rw [List.length_cons, List.range_succ_eq_map, List.countP_cons, List.countP_map]
    rcases k with _ | k
    · simp
    · have hshift : ∀ s', (fun i => decide (s' ≤ i) && decide (i < k) && l[i]?.any p) =
          (fun i => decide (s' + 1 ≤ i) && decide (i < k + 1) && (x :: l)[i]?.any p) ∘ Nat.succ := by
        intro s'
        funext i
        simp
      rcases s with _ | s
      · have hzero : (fun i => decide (0 ≤ i) && decide (i < k) && l[i]?.any p) =
            (fun i => decide (0 ≤ i) && decide (i < k + 1) && (x :: l)[i]?.any p) ∘ Nat.succ := by
          funext i
          simp
        have hl := ih 0 k
        rw [List.drop_zero] at hl
        rw [List.take_succ_cons, List.drop_zero, List.countP_cons, hl, hzero]
        simp
      · rw [List.take_succ_cons, List.drop_succ_cons, ih s k, hshift s]
        simp

/-- Every element is of one of three kinds. -/
theorem countP_three (l : List α) (p q : α → Bool) :
    l.countP p + l.countP (fun a => !p a && q a) + l.countP (fun a => !p a && !q a) = l.length := by
  induction l with
  | nil => rfl
  | cons a l ih =>
    simp only [List.countP_cons, List.length_cons]
    rcases p a with _ | _
    · rcases q a with _ | _
      · simp only [Bool.not_false, Bool.and_false, Bool.and_true, Bool.false_eq_true, if_false, if_true]
        omega
      · simp only [Bool.not_false, Bool.not_true, Bool.and_false, Bool.and_true, Bool.false_eq_true, if_false, if_true]
        omega
    · simp only [Bool.not_true, Bool.false_and, Bool.false_eq_true, if_false, if_true]
      omega

/-- The predicate holds for one of the elements, or for none. -/
theorem sum_eq_countP (l : List α) (f : α → Nat) (p : α → Bool) (h : ∀ a ∈ l, f a = if p a then 1 else 0) :
    (l.map f).sum = l.countP p := by
  induction l with
  | nil => rfl
  | cons a l ih =>
    rw [List.map_cons, List.sum_cons, List.countP_cons, h a (List.mem_cons_self ..),
      ih fun b hb => h b (List.mem_cons_of_mem _ hb), Nat.add_comm]

theorem sum_map_add (l : List α) (f g : α → Nat) :
    (l.map fun a => f a + g a).sum = (l.map f).sum + (l.map g).sum := by
  induction l with
  | nil => rfl
  | cons a l ih =>
    simp only [List.map_cons, List.sum_cons, ih]
    omega

theorem sum_countP_comm (l : List α) (m : List β) (p : α → β → Bool) :
    (l.map fun a => m.countP (p a)).sum = (m.map fun b => l.countP fun a => p a b).sum := by
  induction l with
  | nil => simp
  | cons a l ih =>
    simp only [List.map_cons, List.sum_cons, List.countP_cons, sum_map_add, ih]
    rw [sum_eq_countP m (fun b => if p a b = true then 1 else 0) (p a) fun b _ => rfl, Nat.add_comm]

end Lib
