import Mathlib.Data.List.Infix
import Mathlib.Data.List.TakeWhile

/-!
# Where a sorted list turns

A list on which `p` turns false once (`Turns p l`) is cut in two at `partitionPoint p l`: before it are the
elements with `p` (`take_partitionPoint`), and they are those below the point (`lt_partitionPoint_iff`).
-/

namespace Lib

variable {α : Type} {p : α → Bool} {l : List α}

/-- The number of elements before the first one without `p`. -/
def partitionPoint (p : α → Bool) (l : List α) : Nat := (l.takeWhile p).length

/-- What comes before an element with `p` has it too. -/
def Turns (p : α → Bool) (l : List α) : Prop := l.Pairwise fun a b => p b → p a

theorem Turns.takeWhile (h : Turns p l) : l.takeWhile p = l.filter p := by
  induction l with
  | nil => rfl
  | cons a l ih =>
    obtain ⟨hhead, htail⟩ := List.pairwise_cons.mp h
    rcases ha : p a with _ | _
    · rw [List.takeWhile_cons_of_neg (by simp [ha]), List.filter_cons_of_neg (by simp [ha]), eq_comm,
        List.filter_eq_nil_iff]
      intro b hb hpb
      rw [hhead b hb hpb] at ha
      cases ha
    · rw [List.takeWhile_cons_of_pos ha, List.filter_cons_of_pos ha, ih htail]

/-- The elements with `p`, and then those without. -/
theorem Turns.append (h : Turns p l) : l.filter p ++ l.filter (fun a => !p a) = l := by
  induction l with
  | nil => rfl
  | cons a l ih =>
    obtain ⟨hhead, htail⟩ := List.pairwise_cons.mp h
    rcases ha : p a with _ | _
    · have hnone : ∀ b ∈ l, ¬p b := fun b hb hpb => by
        rw [hhead b hb hpb] at ha
        cases ha
      rw [List.filter_cons_of_neg (by simp [ha]), List.filter_eq_nil_iff.mpr hnone, List.nil_append,
        List.filter_eq_self]
      intro b hb
      rcases List.mem_cons.mp hb with rfl | hb
      · simp [ha]
      · simpa using hnone b hb
    · rw [List.filter_cons_of_pos ha, List.filter_cons_of_neg (by simp [ha]), List.cons_append, ih htail]

theorem partitionPoint_eq (h : Turns p l) : partitionPoint p l = (l.filter p).length := by
  rw [partitionPoint, h.takeWhile]

theorem partitionPoint_le (p : α → Bool) (l : List α) : partitionPoint p l ≤ l.length :=
  (List.takeWhile_prefix p).length_le

theorem take_partitionPoint (h : Turns p l) : l.take (partitionPoint p l) = l.filter p := by
  rw [← h.takeWhile]
  exact (List.prefix_iff_eq_take.mp (List.takeWhile_prefix p)).symm

/-- An element before the point has `p`. -/
theorem lt_partitionPoint_iff (h : Turns p l) {i : Nat} :
    i < partitionPoint p l ↔ ∃ a, l[i]? = some a ∧ p a = true := by
  induction l generalizing i with
  | nil => simp [partitionPoint]
  | cons a l ih =>
    obtain ⟨hhead, htail⟩ := List.pairwise_cons.mp h
    have ih := @ih htail
    unfold partitionPoint at ih ⊢
    rcases ha : p a with _ | _
    · rw [List.takeWhile_cons_of_neg (by simp [ha])]
      refine ⟨fun hi => absurd hi (Nat.not_lt_zero i), ?_⟩
      rintro ⟨b, hb, hpb⟩
      rcases i with _ | i
      · obtain rfl : a = b := by simpa using hb
        rw [ha] at hpb
        cases hpb
      · rw [hhead b (List.mem_of_getElem? hb) hpb] at ha
        cases ha
    · rw [List.takeWhile_cons_of_pos ha, List.length_cons]
      rcases i with _ | i
      · simp [ha]
      · rw [Nat.succ_lt_succ_iff, ih, List.getElem?_cons_succ]

/-- Elements with `p`, and then a list that begins with one without. -/
theorem partitionPoint_append {m : List α} (hl : ∀ a ∈ l, p a = true) (hm : ∀ a ∈ m.head?, p a = false) :
    partitionPoint p (l ++ m) = l.length := by
  unfold partitionPoint
  rw [List.takeWhile_append_of_pos hl]
  rcases m with _ | ⟨a, m⟩
  · rw [List.takeWhile_nil, List.append_nil]
  · rw [List.takeWhile_cons_of_neg (by simp [hm a rfl]), List.append_nil]

/-- The first elements are known to have `p`. -/
theorem partitionPoint_drop {n : Nat} (hn : n ≤ l.length) (hl : ∀ a ∈ l.take n, p a = true) :
    partitionPoint p l = n + partitionPoint p (l.drop n) := by
  have hsplit : partitionPoint p (l.take n ++ l.drop n) = n + partitionPoint p (l.drop n) := by
    unfold partitionPoint
    rw [List.takeWhile_append_of_pos hl, List.length_append, List.length_take, Nat.min_eq_left hn]
  rwa [List.take_append_drop] at hsplit

end Lib
