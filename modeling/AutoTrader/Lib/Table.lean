import Mathlib.Algebra.BigOperators.Group.List.Basic
import Mathlib.Algebra.Group.Basic
import Mathlib.Data.List.Nodup
import Mathlib.Tactic.Abel

/-!
# Tables with a primary key

A `Table key` is a list of rows no two of which have the same key. `find?` reads a row by its key,
`insert` fails on a key that is there, `set v` puts `v` in the place of the row of its key, and `upsert`
does the one or the other, so no write builds an invalid table. `find?_set` and `sum_set` are what a
write does to the rows read after it and to a sum over all rows.
-/

namespace Lib

variable {K V M : Type}

/-- A table: its rows have different keys. -/
structure Table (key : V → K) where
  rows : List V
  nodup : (rows.map key).Nodup

namespace Table

variable {key : V → K}

/-- The empty table. -/
def empty : Table key := ⟨[], List.nodup_nil⟩

section Sum

variable [AddCommGroup M]

/-- The sum of `g` over the rows. -/
def sum (t : Table key) (g : V → M) : M := (t.rows.map g).sum

@[simp] theorem sum_empty (g : V → M) : (empty : Table key).sum g = 0 := rfl

theorem sum_add (t : Table key) (g g' : V → M) : (t.sum fun v => g v + g' v) = t.sum g + t.sum g' := by
  simp [sum, List.sum_map_add]

theorem sum_congr {t : Table key} {g g' : V → M} (h : ∀ v ∈ t.rows, g v = g' v) : t.sum g = t.sum g' := by
  simp only [sum]
  rw [List.map_congr_left h]

theorem sum_filter (t : Table key) (p : V → Bool) (g : V → M) :
    ((t.rows.filter p).map g).sum = t.sum fun v => if p v then g v else 0 := by
  simp only [sum]
  induction t.rows with
  | nil => rfl
  | cons v vs ih =>
    rw [List.filter_cons, List.map_cons, List.sum_cons]
    cases hv : p v with
    | true => simp only [↓reduceIte, List.map_cons, List.sum_cons, ih]
    | false => simp only [Bool.false_eq_true, ↓reduceIte, zero_add, ih]

/-- The sum of the values that are there. -/
theorem sum_filterMap (f : V → Option M) (l : List V) : (l.filterMap f).sum = (l.map fun v => (f v).getD 0).sum := by
  induction l with
  | nil => rfl
  | cons v vs ih => cases hv : f v <;> simp [hv, ih]

end Sum

variable [DecidableEq K]

/-- The row of a key. -/
def find? (t : Table key) (k : K) : Option V := t.rows.find? fun v => key v = k

/-- The table with one more row; `none` if its key is there already. -/
def insert (t : Table key) (v : V) : Option (Table key) :=
  if h : key v ∈ t.rows.map key then none
  else some ⟨v :: t.rows, by simpa only [List.map_cons, List.nodup_cons] using ⟨h, t.nodup⟩⟩

theorem map_key_set (t : Table key) (v : V) :
    (t.rows.map fun u => if key u = key v then v else u).map key = t.rows.map key := by
  rw [List.map_map]
  refine List.map_congr_left fun u _ => ?_
  simp only [Function.comp]
  split
  · rename_i h; exact h.symm
  · rfl

/-- The table with `v` in place of the row of its key. -/
def set (t : Table key) (v : V) : Table key :=
  ⟨t.rows.map fun u => if key u = key v then v else u, by rw [map_key_set]; exact t.nodup⟩

theorem find?_some_key {t : Table key} {k : K} {v : V} (h : t.find? k = some v) : key v = k := by
  simpa using List.find?_some h

theorem find?_mem {t : Table key} {k : K} {v : V} (h : t.find? k = some v) : v ∈ t.rows :=
  List.mem_of_find?_eq_some h

theorem find?_eq_none {t : Table key} {k : K} : t.find? k = none ↔ k ∉ t.rows.map key := by
  simp [find?]

theorem mem_iff_find? {t : Table key} {v : V} : v ∈ t.rows ↔ t.find? (key v) = some v := by
  refine ⟨fun h => ?_, find?_mem⟩
  obtain ⟨rows, nodup⟩ := t
  simp only [find?] at *
  induction rows with
  | nil => cases h
  | cons u us ih =>
    simp only [List.map_cons, List.nodup_cons] at nodup
    rcases List.mem_cons.mp h with rfl | h
    · simp
    · have hne : key u ≠ key v := fun e => nodup.1 (e ▸ List.mem_map_of_mem h)
      rw [List.find?_cons_of_neg (by simpa using hne)]
      exact ih nodup.2 h

theorem find?_set {t : Table key} {v w : V} (h : t.find? (key v) = some w) (k : K) :
    (t.set v).find? k = if k = key v then some v else t.find? k := by
  obtain ⟨rows, nodup⟩ := t
  simp only [find?, set] at *
  clear nodup
  induction rows with
  | nil => cases h
  | cons u us ih =>
    by_cases hu : key u = key v
    · by_cases hk : k = key v
      · simp [hu, hk]
      · have hk' : ¬ key v = k := fun e => hk e.symm
        simp only [hk, ↓reduceIte, List.map_cons, hu, List.find?_cons, hk', decide_false]
        clear ih h hu
        induction us with
        | nil => rfl
        | cons x xs ih =>
          by_cases hx : key x = key v
          · simp [hx, hk', ih]
          · simp only [List.map_cons, hx, ↓reduceIte, List.find?_cons, ih]
    · rw [List.find?_cons_of_neg (by simpa using hu)] at h
      simp only [List.map_cons, hu, ↓reduceIte, List.find?_cons, ih h]
      by_cases hk : key u = k
      · simp [hk, show ¬ k = key v from hk ▸ hu]
      · simp [hk]

theorem find?_insert {t t' : Table key} {v : V} (h : t.insert v = some t') (k : K) :
    t'.find? k = if k = key v then some v else t.find? k := by
  simp only [insert] at h
  split at h
  · cases h
  · simp only [Option.some.injEq] at h
    subst h
    by_cases hk : k = key v
    · simp [find?, hk]
    · simp [find?, hk, show ¬ key v = k from fun e => hk e.symm]

theorem insert_fresh {t t' : Table key} {v : V} (h : t.insert v = some t') : t.find? (key v) = none := by
  simp only [insert] at h
  split at h
  · cases h
  · rename_i hn; exact find?_eq_none.mpr hn

theorem rows_insert {t t' : Table key} {v : V} (h : t.insert v = some t') : t'.rows = v :: t.rows := by
  simp only [insert] at h
  split at h
  · cases h
  · simp only [Option.some.injEq] at h; rw [← h]

/-- `INSERT … ON CONFLICT DO UPDATE`: the row `v`, or `f` of the row that has its key already. -/
def upsert (t : Table key) (v : V) (f : V → V) : Table key :=
  match t.insert v with
  | some t' => t'
  | none =>
    match t.find? (key v) with
    | some w => t.set (f w)
    | none => t

theorem insert_eq_none {t : Table key} {v : V} : t.insert v = none ↔ ∃ w, t.find? (key v) = some w := by
  simp only [insert]
  split
  · rename_i h
    refine iff_of_true rfl (Option.ne_none_iff_exists'.mp fun hn => ?_)
    exact find?_eq_none.mp hn h
  · rename_i h
    refine iff_of_false (by simp) ?_
    rintro ⟨w, hw⟩
    rw [find?_eq_none.mpr h] at hw
    cases hw

theorem find?_upsert (t : Table key) (v : V) {f : V → V} (hf : ∀ w, key (f w) = key w) (k : K) :
    (t.upsert v f).find? k = if k = key v then some (((t.find? (key v)).map f).getD v) else t.find? k := by
  simp only [upsert]
  split
  · rename_i t' ht
    rw [find?_insert ht, insert_fresh ht]
    rfl
  · rename_i ht
    obtain ⟨w, hw⟩ := insert_eq_none.mp ht
    have hkey : key (f w) = key v := (hf w).trans (find?_some_key hw)
    simp only [hw]
    rw [find?_set (w := w) (by rw [hkey]; exact hw), hkey]
    rfl

theorem upsert_of_none {t : Table key} {v : V} (f : V → V) (h : t.find? (key v) = none) :
    t.insert v = some (t.upsert v f) := by
  rcases hi : t.insert v with _ | t'
  · obtain ⟨w, hw⟩ := insert_eq_none.mp hi
    rw [h] at hw
    cases hw
  · simp [upsert, hi]

theorem upsert_of_some {t : Table key} {v w : V} (f : V → V) (h : t.find? (key v) = some w) :
    t.upsert v f = t.set (f w) := by
  simp [upsert, insert_eq_none.mpr ⟨w, h⟩, h]

/-- `DELETE` of the rows that do not satisfy `p`. -/
def filter (t : Table key) (p : V → Bool) : Table key := ⟨t.rows.filter p, (List.filter_sublist.map key).nodup t.nodup⟩

theorem find?_filter {t : Table key} {p : V → Bool} {q : K → Bool} (hp : ∀ v, p v = q (key v)) (k : K) :
    (t.filter p).find? k = if q k then t.find? k else none := by
  simp only [find?, filter, List.find?_filter]
  split
  · rename_i hq
    congr 1
    funext v
    by_cases hk : key v = k
    · simp [hp, hk, hq]
    · simp [hk]
  · rename_i hq
    refine List.find?_eq_none.mpr fun v _ => ?_
    by_cases hk : key v = k
    · simp [hp, hk, hq]
    · simp [hk]

/-- The table without the row of a key. -/
def erase (t : Table key) (k : K) : Table key := t.filter fun v => key v ≠ k

theorem mem_erase {t : Table key} {k : K} {v : V} : v ∈ (t.erase k).rows ↔ v ∈ t.rows ∧ key v ≠ k := by
  simp [erase, filter]

theorem find?_erase (t : Table key) (k j : K) : (t.erase k).find? j = if j = k then none else t.find? j := by
  rw [erase, find?_filter (q := fun j => j ≠ k) fun _ => rfl]
  simp

theorem length_erase_lt {t : Table key} {v : V} (h : v ∈ t.rows) : (t.erase (key v)).rows.length < t.rows.length :=
  List.length_filter_lt_length_iff_exists.mpr ⟨v, h, by simp⟩

theorem mem_set {t : Table key} {v u : V} (h : u ∈ (t.set v).rows) : u = v ∨ u ∈ t.rows ∧ key u ≠ key v := by
  obtain ⟨w, hw, rfl⟩ := List.mem_map.mp h
  split
  · exact .inl rfl
  · rename_i hne
    exact .inr ⟨hw, hne⟩

/-- The table with more rows; `none` if a key is there twice then. -/
def append (t : Table key) (vs : List V) : Option (Table key) :=
  if h : ((vs ++ t.rows).map key).Nodup then some ⟨vs ++ t.rows, h⟩ else none

theorem find?_append {t t' : Table key} {vs : List V} (h : t.append vs = some t') (k : K) :
    t'.find? k = (vs.find? fun v => key v = k).or (t.find? k) := by
  simp only [append] at h
  split at h
  · rw [← Option.some.inj h]
    simp only [find?, List.find?_append]
  · cases h

/-- What a write does to the rows that `f` selects, where the row before it was not selected. -/
theorem filterMap_set_perm {M : Type} {t : Table key} {v w : V} (f : V → Option M)
    (h : t.find? (key v) = some w) (hw : f w = none) :
    ((t.set v).rows.filterMap f).Perm ((f v).toList ++ t.rows.filterMap f) := by
  obtain ⟨rows, nodup⟩ := t
  simp only [find?, set] at *
  induction rows with
  | nil => cases h
  | cons u us ih =>
    simp only [List.map_cons, List.nodup_cons] at nodup
    by_cases hu : key u = key v
    · obtain rfl : u = w := by simpa [hu] using h
      have hus : us.map (fun u => if key u = key v then v else u) = us := by
        refine (List.map_congr_left fun x hx => ?_).trans (List.map_id us)
        simp only [id, ite_eq_right_iff]
        exact fun e => absurd (hu.trans e.symm ▸ List.mem_map_of_mem hx) nodup.1
      simp only [List.map_cons, hu, ↓reduceIte, hus, List.filterMap_cons, hw]
      cases f v <;> exact List.Perm.refl _
    · rw [List.find?_cons_of_neg (by simpa using hu)] at h
      simp only [List.map_cons, hu, ↓reduceIte, List.filterMap_cons]
      cases f u with
      | none => exact ih nodup.2 h
      | some m => exact ((ih nodup.2 h).cons m).trans List.perm_middle.symm

/-! ## Sums after a write -/

section Sum

variable [AddCommGroup M]

theorem sum_insert {t t' : Table key} {v : V} (g : V → M) (h : t.insert v = some t') :
    t'.sum g = g v + t.sum g := by
  simp [sum, rows_insert h]

theorem sum_set {t : Table key} {v w : V} (g : V → M) (h : t.find? (key v) = some w) :
    (t.set v).sum g = t.sum g - g w + g v := by
  obtain ⟨rows, nodup⟩ := t
  simp only [find?, set, sum] at *
  induction rows with
  | nil => cases h
  | cons u us ih =>
    simp only [List.map_cons, List.nodup_cons] at nodup
    by_cases hu : key u = key v
    · have hw : u = w := by simpa [hu] using h
      have hus : us.map (fun u => if key u = key v then v else u) = us := by
        refine (List.map_congr_left fun x hx => ?_).trans (List.map_id us)
        simp only [id, ite_eq_right_iff]
        exact fun e => absurd (hu.trans e.symm ▸ List.mem_map_of_mem hx) nodup.1
      simp only [List.map_cons, hu, ↓reduceIte, List.sum_cons, hus, ← hw]
      abel
    · rw [List.find?_cons_of_neg (by simpa using hu)] at h
      simp only [List.map_cons, hu, ↓reduceIte, List.sum_cons, ih nodup.2 h]
      abel

theorem sum_erase {t : Table key} {w : V} (g : V → M) (h : w ∈ t.rows) :
    (t.erase (key w)).sum g = t.sum g - g w := by
  obtain ⟨rows, nodup⟩ := t
  simp only [erase, filter, sum] at *
  induction rows with
  | nil => cases h
  | cons u us ih =>
    simp only [List.map_cons, List.nodup_cons] at nodup
    rcases List.mem_cons.mp h with rfl | hw
    · have hus : us.filter (fun v => key v ≠ key w) = us :=
        List.filter_eq_self.mpr fun v hv =>
          decide_eq_true fun e => nodup.1 (e ▸ List.mem_map_of_mem hv)
      rw [List.filter_cons_of_neg (by simp), hus, List.map_cons, List.sum_cons]
      abel
    · have hu : key u ≠ key w := fun e => nodup.1 (e ▸ List.mem_map_of_mem hw)
      rw [List.filter_cons_of_pos (by simpa using hu), List.map_cons, List.map_cons, List.sum_cons, List.sum_cons,
        ih nodup.2 hw]
      abel

end Sum

end Table

end Lib
