import Mathlib.Data.List.DropRight

/-!
# The monotone deque

A deque of indices gives the best element of a sliding window at its front. `moveDeque` pops what the new index
beats off the back, pushes it, and pops what has left the window off the front. `FrontBest` is kept by it
(`FrontBest.move`), whatever order decides which index is beaten, and makes the front the best
(`FrontBest.front`).
-/

namespace Lib

/-- The deque after index `i`: what `i` beats leaves at the back, what is out of the window at the
front. -/
def moveDeque (beaten : Nat → Nat → Bool) (period : Nat) (dq : List Nat) (i : Nat) : List Nat :=
  ((dq.rdropWhile fun back => beaten back i) ++ [i]).dropWhile fun front => decide (front + period ≤ i)

variable {beaten : Nat → Nat → Bool} {period lo hi i k : Nat} {dq : List Nat}

theorem mem_of_mem_moveDeque (h : k ∈ moveDeque beaten period dq i) : k ∈ dq ∨ k = i := by
  rcases List.mem_append.mp ((List.dropWhile_sublist _).mem h) with h | h
  · exact .inl ((List.rdropWhile_prefix _ _).subset h)
  · exact .inr (List.mem_singleton.mp h)

/-- Of the indices from `lo` on and below `hi`, those that no later one beats. -/
structure FrontBest (beaten : Nat → Nat → Bool) (lo hi : Nat) (dq : List Nat) : Prop where
  sorted : dq.Pairwise fun a b => a < b ∧ beaten b a = true
  inWindow : ∀ k ∈ dq, lo ≤ k ∧ k < hi
  covers : ∀ k, lo ≤ k → k < hi → ∃ d ∈ dq, k ≤ d ∧ beaten k d = true

theorem FrontBest.nil : FrontBest beaten 0 0 [] :=
  ⟨List.Pairwise.nil, by simp, fun k _ hk => absurd hk (Nat.not_lt_zero k)⟩

theorem mem_rdropWhile_or {α : Type} {p : α → Bool} {l : List α} {a : α} (h : a ∈ l) :
    a ∈ l.rdropWhile p ∨ p a = true := by
  induction l using List.reverseRecOn with
  | nil => cases h
  | append_singleton l x ih =>
    rw [List.rdropWhile_concat]
    rcases List.mem_append.mp h with h | h
    · by_cases hx : p x = true
      · rw [if_pos hx]
        exact ih h
      · rw [if_neg hx]
        exact .inl (List.mem_append_left _ h)
    · obtain rfl := List.mem_singleton.mp h
      by_cases hx : p a = true
      · exact .inr hx
      · rw [if_neg hx]
        exact .inl (List.mem_append_right _ (List.mem_singleton_self a))

theorem mem_dropWhile_of_not {α : Type} {p : α → Bool} {l : List α} {a : α} (h : a ∈ l) (hp : p a = false) :
    a ∈ l.dropWhile p := by
  rw [← List.takeWhile_append_dropWhile (p := p) (l := l)] at h
  rcases List.mem_append.mp h with h | h
  · rw [List.mem_takeWhile_imp h] at hp
    cases hp
  · exact h

theorem FrontBest.expire (h : FrontBest beaten lo hi dq) {lo' : Nat} {p : Nat → Bool}
    (hp : ∀ k, p k = true ↔ k < lo') (hlo : lo ≤ lo') : FrontBest beaten lo' hi (dq.dropWhile p) := by
  have hsorted := h.sorted.sublist (List.dropWhile_sublist p)
  refine ⟨hsorted, fun d hd => ?_, fun d hd hd' => ?_⟩
  · refine ⟨?_, (h.inWindow d ((List.dropWhile_sublist p).mem hd)).2⟩
    rcases hrest : dq.dropWhile p with _ | ⟨front, rest⟩
    · rw [hrest] at hd
      cases hd
    · have hfront : ¬p front = true := by
        have hne : dq.dropWhile p ≠ [] := by
          rw [hrest]
          exact List.cons_ne_nil front rest
        have hhead := List.head_dropWhile_not p hne
        simpa [hrest] using hhead
      rw [hp] at hfront
      rw [hrest] at hd hsorted
      rcases List.mem_cons.mp hd with rfl | hd
      · omega
      · have hlt := ((List.pairwise_cons.mp hsorted).1 d hd).1
        omega
  · obtain ⟨e, he, hde, hbeaten⟩ := h.covers d (by omega) hd'
    have hkept : p e = false := by
      rw [← Bool.not_eq_true, hp]
      omega
    exact ⟨e, mem_dropWhile_of_not he hkept, hde, hbeaten⟩

section

variable (trans : ∀ a b c, beaten a b = true → beaten b c = true → beaten a c = true)
  (total : ∀ a b, beaten a b = true ∨ beaten b a = true)

include trans

/-- The front is the best of the window. -/
theorem FrontBest.front (h : FrontBest beaten lo hi dq) (hne : lo < hi) :
    ∃ front, dq.head? = some front ∧ lo ≤ front ∧ front < hi ∧
      ∀ k, lo ≤ k → k < hi → beaten k front = true := by
  rcases dq with _ | ⟨front, rest⟩
  · obtain ⟨d, hd, -⟩ := h.covers lo (Nat.le_refl lo) hne
    cases hd
  · obtain ⟨hlo, hhi⟩ := h.inWindow front List.mem_cons_self
    refine ⟨front, rfl, hlo, hhi, fun k hk hk' => ?_⟩
    obtain ⟨d, hd, -, hbeaten⟩ := h.covers k hk hk'
    rcases List.mem_cons.mp hd with rfl | hd
    · exact hbeaten
    · exact trans k d front hbeaten ((List.pairwise_cons.mp h.sorted).1 d hd).2

include total

/-- What is left at the back beats the new index. -/
theorem beaten_of_mem_rdropWhile (hs : dq.Pairwise fun a b => a < b ∧ beaten b a = true)
    (hk : k ∈ dq.rdropWhile fun back => beaten back i) : beaten i k = true := by
  induction dq using List.reverseRecOn with
  | nil => simp at hk
  | append_singleton dq x ih =>
    obtain ⟨hs', -, hlast⟩ := List.pairwise_append.mp hs
    rw [List.rdropWhile_concat] at hk
    by_cases hx : beaten x i = true
    · rw [if_pos hx] at hk
      exact ih hs' hk
    · rw [if_neg hx] at hk
      have hix : beaten i x = true := (total i x).resolve_right hx
      rcases List.mem_append.mp hk with hk | hk
      · exact trans i x k hix (hlast k hk x (List.mem_singleton_self x)).2
      · rw [List.mem_singleton.mp hk]
        exact hix

theorem FrontBest.push (h : FrontBest beaten lo i dq) (hlo : lo ≤ i) :
    FrontBest beaten lo (i + 1) ((dq.rdropWhile fun back => beaten back i) ++ [i]) := by
  have hsub : ∀ d ∈ dq.rdropWhile fun back => beaten back i, d ∈ dq := fun d hd =>
    (List.rdropWhile_prefix _ _).subset hd
  have hrefl : beaten i i = true := by
    rcases total i i with hii | hii
    · exact hii
    · exact hii
  refine ⟨?_, fun d hd => ?_, fun d hd hd' => ?_⟩
  · rw [List.pairwise_append]
    refine ⟨h.sorted.sublist (List.rdropWhile_prefix _ _).sublist, List.pairwise_singleton _ _, fun a ha b hb => ?_⟩
    rw [List.mem_singleton.mp hb]
    exact ⟨(h.inWindow a (hsub a ha)).2, beaten_of_mem_rdropWhile trans total h.sorted ha⟩
  · rcases List.mem_append.mp hd with hd | hd
    · obtain ⟨hl, hr⟩ := h.inWindow d (hsub d hd)
      exact ⟨hl, by omega⟩
    · rw [List.mem_singleton.mp hd]
      exact ⟨hlo, Nat.lt_succ_self i⟩
  · rcases Nat.lt_or_ge d i with hlt | hge
    · obtain ⟨e, he, hde, hbeaten⟩ := h.covers d hd hlt
      rcases mem_rdropWhile_or (p := fun back => beaten back i) he with hkept | hpopped
      · exact ⟨e, List.mem_append_left _ hkept, hde, hbeaten⟩
      · exact ⟨i, List.mem_append_right _ (List.mem_singleton_self i), by omega, trans d e i hbeaten hpopped⟩
    · obtain rfl : d = i := by omega
      exact ⟨d, List.mem_append_right _ (List.mem_singleton_self d), Nat.le_refl d, hrefl⟩

/-- The window moves on to index `i`. -/
theorem FrontBest.move (h : FrontBest beaten (i - period) i dq) (hperiod : 1 ≤ period) :
    FrontBest beaten (i + 1 - period) (i + 1) (moveDeque beaten period dq i) := by
  refine (h.push trans total (by omega)).expire (fun k => ?_) (by omega)
  rw [decide_eq_true_eq]
  omega

end

end Lib
