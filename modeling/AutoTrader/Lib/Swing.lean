import Mathlib.Algebra.Order.Ring.Defs
import Mathlib.Tactic.Linarith

/-!
# Swings of a sequence

`Rise v theta a b` says that a sequence moves up from `a` to `b` by at least `theta`, with no move down of as much
on the way; a fall is a rise of the negated sequence. The rest is what an observer of the sequence knows after the
first values: that there was no such move so far (`Calm`), or that it is in a rise whose end is not certain
(`Rising`). The next value keeps the observer there (`Calm.next`, `Rising.higher`, `Rising.next`) or shows a rise
(`Calm.rise`) or a turn (`Rising.turn`).
-/

namespace Lib

variable {α : Type} [CommRing α] [LinearOrder α]

/-- The end of the rise is the earliest of its highest values. -/
structure Rise (v : Nat → α) (theta : α) (a b : Nat) : Prop where
  lt : a < b
  reach : v a + theta ≤ v b
  above : ∀ i, a ≤ i → i ≤ b → v a ≤ v i
  below : ∀ i, a ≤ i → i < b → v i < v b
  counter : ∀ i j, a ≤ i → i ≤ j → j ≤ b → v i - v j < theta

/-- The rise to `e` is not over at `t`. -/
structure Rising (v : Nat → α) (theta : α) (a e t : Nat) : Prop where
  rise : Rise v theta a e
  le : e ≤ t
  since : ∀ i, e ≤ i → i ≤ t → v i ≤ v e ∧ v e - v i < theta

/-- Between the lowest and the highest of the values up to `t` there is less than `theta`. -/
structure Calm (v : Nat → α) (theta : α) (lo hi t : Nat) : Prop where
  lo_le : lo ≤ t
  hi_le : hi ≤ t
  above : ∀ i, i ≤ t → v lo ≤ v i
  below : ∀ i, i ≤ t → v i ≤ v hi
  narrow : v hi - v lo < theta

section

variable {v : Nat → α} {theta : α} {a e t : Nat}

theorem Rising.le_top (h : Rising v theta a e t) {i : Nat} (ha : a ≤ i) (hi : i ≤ t) : v i ≤ v e := by
  rcases Nat.lt_or_ge i e with hlt | hge
  · exact (h.rise.below i ha hlt).le
  · exact (h.since i hge hi).1

/-- A value below the end, but not by `theta`. -/
theorem Rising.next (h : Rising v theta a e t) (hle : v (t + 1) ≤ v e) (hlt : v e - v (t + 1) < theta) :
    Rising v theta a e (t + 1) := by
  refine ⟨h.rise, Nat.le_succ_of_le h.le, fun i hge hi => ?_⟩
  rcases Nat.lt_succ_iff_lt_or_eq.mp (Nat.lt_succ_of_le hi) with hi | rfl
  · exact h.since i hge (Nat.le_of_lt_succ hi)
  · exact ⟨hle, hlt⟩

variable [IsStrictOrderedRing α]

theorem Rising.bottom_le (h : Rising v theta a e t) {i : Nat} (ha : a ≤ i) (hi : i ≤ t) : v a ≤ v i := by
  rcases Nat.lt_or_ge i e with hlt | hge
  · exact h.rise.above i ha hlt.le
  · have hreach := h.rise.reach
    have hsince := (h.since i hge hi).2
    linarith

theorem Rising.counter (h : Rising v theta a e t) {i j : Nat} (ha : a ≤ i) (hij : i ≤ j) (hj : j ≤ t) :
    v i - v j < theta := by
  rcases Nat.lt_or_ge j e with hlt | hge
  · exact h.rise.counter i j ha hij hlt.le
  · have htop := h.le_top ha (hij.trans hj)
    have hsince := (h.since j hge hj).2
    linarith

/-- A higher value is the new end. -/
theorem Rising.higher (h : Rising v theta a e t) (htheta : 0 < theta) (hv : v e < v (t + 1)) :
    Rising v theta a (t + 1) (t + 1) := by
  have hreach := h.rise.reach
  refine ⟨⟨?_, by linarith, fun i ha hi => ?_, fun i ha hi => ?_, fun i j ha hij hj => ?_⟩, le_refl _,
    fun i hge hi => ?_⟩
  · exact Nat.lt_succ_of_lt (h.rise.lt.trans_le h.le)
  · rcases Nat.lt_succ_iff_lt_or_eq.mp (Nat.lt_succ_of_le hi) with hlt | rfl
    · exact h.bottom_le ha (Nat.le_of_lt_succ hlt)
    · linarith
  · exact (h.le_top ha (Nat.le_of_lt_succ hi)).trans_lt hv
  · rcases Nat.lt_succ_iff_lt_or_eq.mp (Nat.lt_succ_of_le hj) with hlt | rfl
    · exact h.counter ha hij (Nat.le_of_lt_succ hlt)
    · rcases Nat.lt_succ_iff_lt_or_eq.mp (Nat.lt_succ_of_le hij) with hlt | rfl
      · have htop := h.le_top ha (Nat.le_of_lt_succ hlt)
        linarith
      · rwa [sub_self]
  · obtain rfl := Nat.le_antisymm hi hge
    exact ⟨le_refl _, by rwa [sub_self]⟩

/-- A value below the end by `theta` begins a fall there. -/
theorem Rising.turn (h : Rising v theta a e t) (htheta : 0 < theta) (hge : theta ≤ v e - v (t + 1)) :
    Rising (fun i => -v i) theta e (t + 1) (t + 1) := by
  have hlast : ∀ i, e ≤ i → i < t + 1 → v i ≤ v e ∧ v e - v i < theta :=
    fun i he hi => h.since i he (Nat.le_of_lt_succ hi)
  have htop : ∀ i, e ≤ i → i ≤ t + 1 → v i ≤ v e := by
    intro i he hi
    rcases Nat.lt_succ_iff_lt_or_eq.mp (Nat.lt_succ_of_le hi) with hlt | rfl
    · exact (hlast i he hlt).1
    · linarith
  refine ⟨⟨?_, by linarith, fun i he hi => ?_, fun i he hi => ?_, fun i j he hij hj => ?_⟩, le_refl _,
    fun i hge hi => ?_⟩
  · exact Nat.lt_succ_of_le h.le
  · exact neg_le_neg (htop i he hi)
  · have hi := (hlast i he hi).2
    linarith
  · have hj' := htop j (he.trans hij) hj
    rcases Nat.lt_succ_iff_lt_or_eq.mp (Nat.lt_succ_of_le (hij.trans hj)) with hlt | rfl
    · have hi := (hlast i he hlt).2
      linarith
    · obtain rfl := Nat.le_antisymm hj hij
      rwa [sub_self]
  · obtain rfl := Nat.le_antisymm hi hge
    exact ⟨le_refl _, by rwa [sub_self]⟩

end

/-! ## Before the first swing -/

section

variable {v : Nat → α} {theta : α} {lo hi t : Nat}

theorem Calm.init (v : Nat → α) {theta : α} (htheta : 0 < theta) : Calm v theta 0 0 0 where
  lo_le := le_refl 0
  hi_le := le_refl 0
  above := fun i hi => by rw [Nat.le_zero.mp hi]
  below := fun i hi => by rw [Nat.le_zero.mp hi]
  narrow := by rwa [sub_self]

/-- The lowest and the highest value are those of before, or the next one. -/
theorem Calm.next (h : Calm v theta lo hi t) {lo' hi' : Nat} (hlo : lo' = lo ∨ lo' = t + 1)
    (hlo₁ : v lo' ≤ v lo) (hlo₂ : v lo' ≤ v (t + 1)) (hhi : hi' = hi ∨ hi' = t + 1) (hhi₁ : v hi ≤ v hi')
    (hhi₂ : v (t + 1) ≤ v hi') (hup : v (t + 1) - v lo' < theta) (hdown : v hi' - v (t + 1) < theta) :
    Calm v theta lo' hi' (t + 1) := by
  have hlo_le := h.lo_le
  have hhi_le := h.hi_le
  refine ⟨by omega, by omega, fun i hi => ?_, fun i hi => ?_, ?_⟩
  · rcases Nat.lt_succ_iff_lt_or_eq.mp (Nat.lt_succ_of_le hi) with hlt | rfl
    · exact hlo₁.trans (h.above i (Nat.le_of_lt_succ hlt))
    · exact hlo₂
  · rcases Nat.lt_succ_iff_lt_or_eq.mp (Nat.lt_succ_of_le hi) with hlt | rfl
    · exact (h.below i (Nat.le_of_lt_succ hlt)).trans hhi₁
    · exact hhi₂
  · rcases hlo with rfl | rfl
    · rcases hhi with rfl | rfl
      · exact h.narrow
      · exact hup
    · exact hdown

variable [IsStrictOrderedRing α]

theorem Calm.neg (h : Calm v theta lo hi t) : Calm (fun i => -v i) theta hi lo t where
  lo_le := h.hi_le
  hi_le := h.lo_le
  above := fun i hi => neg_le_neg (h.below i hi)
  below := fun i hi => neg_le_neg (h.above i hi)
  narrow := by
    have hn := h.narrow
    linarith

/-- A value above the lowest one by `theta` shows a rise. -/
theorem Calm.rise (h : Calm v theta lo hi t) (htheta : 0 < theta) (hge : theta ≤ v (t + 1) - v lo) :
    Rising v theta lo (t + 1) (t + 1) := by
  have hn := h.narrow
  have htop : ∀ i, i < t + 1 → v i < v (t + 1) := by
    intro i hi
    have hb := h.below i (Nat.le_of_lt_succ hi)
    linarith
  refine ⟨⟨Nat.lt_succ_of_le h.lo_le, by linarith, fun i _ hi => ?_, fun i _ hi => htop i hi,
    fun i j _ hij hj => ?_⟩, le_refl _, fun i hge hi => ?_⟩
  · rcases Nat.lt_succ_iff_lt_or_eq.mp (Nat.lt_succ_of_le hi) with hlt | rfl
    · exact h.above i (Nat.le_of_lt_succ hlt)
    · linarith
  · rcases Nat.lt_succ_iff_lt_or_eq.mp (Nat.lt_succ_of_le hj) with hlt | rfl
    · have hi := h.below i (Nat.le_of_lt_succ (hij.trans_lt hlt))
      have hj := h.above j (Nat.le_of_lt_succ hlt)
      linarith
    · rcases Nat.lt_succ_iff_lt_or_eq.mp (Nat.lt_succ_of_le hij) with hlt | rfl
      · have hi := htop i hlt
        linarith
      · rwa [sub_self]
  · obtain rfl := Nat.le_antisymm hi hge
    exact ⟨le_refl _, by rwa [sub_self]⟩

end

end Lib
