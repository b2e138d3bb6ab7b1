import Mathlib.Data.List.Basic
import Mathlib.Data.List.Infix
import Mathlib.Data.List.Nodup

/-!
# Lifetimes

A log of entries with a key each, of which some end the life of their key and the others begin it. In an orderly log
every key begins once at most, and ends once at most and after it has begun. A log stays orderly with an entry more
that begins a fresh key (`Orderly.begin`), or ends one that is alive (`Orderly.finish`).
-/

namespace Lib

variable {α κ : Type}

/-- Each key begins at most once, and ends at most once and after it has begun. -/
structure Orderly (key : α → κ) (ends : α → Prop) [DecidablePred ends] (log : List α) : Prop where
  begunOnce : ((log.filter fun a => ¬ends a).map key).Nodup
  endedOnce : ((log.filter fun a => ends a).map key).Nodup
  endedAfter : ∀ before a, before ++ [a] <+: log → ends a → ∃ b ∈ before, ¬ends b ∧ key b = key a

/-- The key has begun and not ended. -/
structure Alive (key : α → κ) (ends : α → Prop) (log : List α) (k : κ) : Prop where
  begun : ∃ b ∈ log, ¬ends b ∧ key b = k
  notEnded : ∀ a ∈ log, ends a → key a ≠ k

variable {key : α → κ} {ends : α → Prop} {log : List α} {a : α}

theorem Alive.append {k : κ} (h : Alive key ends log k) {added : List α} (hadded : ∀ a ∈ added, ends a → key a ≠ k) :
    Alive key ends (log ++ added) k := by
  obtain ⟨b, hb, hbegins, hk⟩ := h.begun
  refine ⟨⟨b, List.mem_append_left added hb, hbegins, hk⟩, fun a ha => ?_⟩
  rcases List.mem_append.mp ha with ha | ha
  · exact h.notEnded a ha
  · exact hadded a ha

/-- A key that no entry of the log has is alive when it begins. -/
theorem alive_begin (ha : ¬ends a) (hfresh : ∀ b ∈ log, key b ≠ key a) :
    Alive key ends (log ++ [a]) (key a) := by
  refine ⟨⟨a, by simp, ha, rfl⟩, fun e he hends => ?_⟩
  rcases List.mem_append.mp he with he | he
  · exact hfresh e he
  · rw [List.mem_singleton.mp he] at hends
    exact absurd hends ha

variable [DecidablePred ends]

theorem orderly_nil : Orderly key ends ([] : List α) := by
  refine ⟨List.nodup_nil, List.nodup_nil, fun before a h => ?_⟩
  simpa using h.length_le

theorem Orderly.begin (h : Orderly key ends log) (ha : ¬ends a) (hfresh : ∀ b ∈ log, key b ≠ key a) :
    Orderly key ends (log ++ [a]) := by
  refine ⟨?_, ?_, fun before e hpre hends => ?_⟩
  · rw [List.filter_append, List.map_append, List.nodup_append']
    refine ⟨h.begunOnce, by simp [ha], ?_⟩
    rw [List.filter_cons_of_pos (by simpa using ha), List.filter_nil, List.map_singleton, List.disjoint_singleton]
    intro hk
    obtain ⟨b, hb, heq⟩ := List.mem_map.mp hk
    exact hfresh b (List.mem_filter.mp hb).1 heq
  · rw [List.filter_append, List.filter_cons_of_neg (by simpa using ha), List.filter_nil, List.append_nil]
    exact h.endedOnce
  · rcases List.prefix_concat_iff.mp hpre with heq | hpre
    · rw [(List.append_inj' heq rfl).2 |> List.singleton_inj.mp] at hends
      exact absurd hends ha
    · exact h.endedAfter before e hpre hends

theorem Orderly.finish (h : Orderly key ends log) (ha : ends a) (halive : Alive key ends log (key a)) :
    Orderly key ends (log ++ [a]) := by
  refine ⟨?_, ?_, fun before e hpre hends => ?_⟩
  · rw [List.filter_append, List.filter_cons_of_neg (by simpa using ha), List.filter_nil, List.append_nil]
    exact h.begunOnce
  · rw [List.filter_append, List.map_append, List.nodup_append']
    refine ⟨h.endedOnce, by simp [ha], ?_⟩
    rw [List.filter_cons_of_pos (by simpa using ha), List.filter_nil, List.map_singleton, List.disjoint_singleton]
    intro hk
    obtain ⟨b, hb, heq⟩ := List.mem_map.mp hk
    obtain ⟨hb, hends⟩ := List.mem_filter.mp hb
    exact halive.notEnded b hb (by simpa using hends) heq
  · rcases List.prefix_concat_iff.mp hpre with heq | hpre
    · obtain ⟨rfl, hlast⟩ := List.append_inj' heq rfl
      rw [List.singleton_inj.mp hlast]
      exact halive.begun
    · exact h.endedAfter before e hpre hends

end Lib
