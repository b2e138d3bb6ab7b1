import Mathlib.Data.List.Basic
import Mathlib.Data.List.Induction

/-!
# The newest of some records

`keepNewer` keeps one record, and replaces it by a later one. Whatever the order the records come in, it ends with one
that none is later than (`newest_foldl`), and with the same one where no two have the same time (`Newest.unique`).
-/

namespace Lib

variable {α τ : Type} [LT τ] {time : α → τ} {stored : Option α} {offered : α → Prop}

/-- The stored record makes room for a later one. -/
def keepNewer [DecidableLT τ] (time : α → τ) (stored : Option α) (x : α) : Option α :=
  if stored.all (time · < time x) then some x else stored

/-- What is stored is one of the records that are offered, and none is later. -/
def Newest (time : α → τ) (stored : Option α) (offered : α → Prop) : Prop :=
  (stored = none ∧ ∀ x, ¬offered x) ∨ ∃ x, stored = some x ∧ offered x ∧ ∀ y, offered y → ¬time x < time y

theorem keepNewer_some [DecidableLT τ] {x y : α} :
    keepNewer time (some x) y = if time x < time y then some y else some x := by
  simp [keepNewer]

/-- The stored time does not decrease. -/
theorem exists_keepNewer [DecidableLT τ] {x y : α} (hirrefl : ∀ t : τ, ¬t < t) (hasymm : ∀ s t : τ, s < t → ¬t < s) :
    ∃ z, keepNewer time (some x) y = some z ∧ ¬time z < time x := by
  rw [keepNewer_some]
  by_cases hlt : time x < time y
  · exact ⟨y, if_pos hlt, hasymm _ _ hlt⟩
  · exact ⟨x, if_neg hlt, hirrefl _⟩

/-- Two that are stored of the same records are the same, if records of different times are in order. -/
theorem Newest.unique {stored' : Option α} (h : Newest time stored offered) (h' : Newest time stored' offered)
    (htotal : ∀ x y, offered x → offered y → x ≠ y → time x < time y ∨ time y < time x) : stored = stored' := by
  rcases h with ⟨hnone, hno⟩ | ⟨x, hsome, hx, hmax⟩ <;> rcases h' with ⟨hnone', hno'⟩ | ⟨y, hsome', hy, hmax'⟩
  · exact hnone.trans hnone'.symm
  · exact absurd hy (hno y)
  · exact absurd hx (hno' x)
  · have hsame : x = y := by
      by_contra hne
      exact (htotal x y hx hy hne).elim (hmax y hy) (hmax' x hx)
    rw [hsome, hsome', hsame]

section

variable [DecidableLT τ] (hirrefl : ∀ t : τ, ¬t < t) (htrans : ∀ r s t : τ, r < s → s < t → r < t)

include hirrefl htrans

theorem Newest.keepNewer (h : Newest time stored offered) (x : α) :
    Newest time (Lib.keepNewer time stored x) fun y => offered y ∨ y = x := by
  rcases h with ⟨rfl, hno⟩ | ⟨z, rfl, hz, hmax⟩
  · refine .inr ⟨x, rfl, .inr rfl, fun y hy => ?_⟩
    rcases hy with hy | rfl
    · exact absurd hy (hno y)
    · exact hirrefl _
  · rw [keepNewer_some]
    by_cases hlt : time z < time x
    · rw [if_pos hlt]
      refine .inr ⟨x, rfl, .inr rfl, fun y hy => ?_⟩
      rcases hy with hy | rfl
      · exact fun hxy => hmax y hy (htrans _ _ _ hlt hxy)
      · exact hirrefl _
    · rw [if_neg hlt]
      refine .inr ⟨z, rfl, .inl hz, fun y hy => ?_⟩
      rcases hy with hy | rfl
      · exact hmax y hy
      · exact hlt

/-- After any list of records the newest of them is stored. -/
theorem newest_foldl (xs : List α) : Newest time (xs.foldl (Lib.keepNewer time) none) (· ∈ xs) := by
  induction xs using List.reverseRecOn with
  | nil => exact .inl ⟨rfl, fun x => List.not_mem_nil⟩
  | append_singleton xs x ih =>
    rw [List.foldl_append, List.foldl_cons, List.foldl_nil]
    simpa using ih.keepNewer hirrefl htrans x

end

end Lib
