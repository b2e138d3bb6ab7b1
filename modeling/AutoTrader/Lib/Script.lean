import AutoTrader.Lib.Threads
import Mathlib.Data.List.Basic

/-!
# Threads that make a list of calls

A thread whose program keeps to the protocol `script` makes the calls of a list one after the other, whatever it is
answered. `History.made` are the calls of a run in the order they came in: those of one thread are the first of its
list (`Valid.madeBy_append`), all of them once it has ended (`Valid.madeBy_of_done`). Where the answers do not matter
to the world, it is what these calls made of it (`Valid.world_eq`).
-/

namespace Lib

variable {I : Iface} {σ μ α : Type}

/-- The phase is the list of calls that are left to make. -/
def script (I : Iface) : Protocol I (List I.Call) where
  allowed p c := p.head? = some c
  next p _ _ := p.tail

namespace History

/-- The calls of a run in their order, each with the thread that made it. -/
def made : History I σ μ α → List (Nat × I.Call)
  | start _ => []
  | step h (.call i c _) _ => h.made ++ [(i, c)]
  | step h (.move _) _ => h.made

/-- The calls of one thread. -/
def madeBy (h : History I σ μ α) (i : Nat) : List I.Call := (h.made.filter fun m => m.1 = i).map Prod.snd

variable {S : Sys I σ μ} {c₀ : Config I σ α} {h : History I σ μ α}

theorem mem_calls_iff {c : I.Call} : c ∈ h.made.map Prod.snd ↔ ∃ i, (i, c) ∈ h.made := by
  simp

theorem mem_made_iff {c : I.Call} : (∃ i, (i, c) ∈ h.made) ↔ ∃ i, c ∈ h.madeBy i := by
  simp [madeBy]

theorem madeBy_call (i j : Nat) (c : I.Call) (r : I.Ret c) (next : Config I σ α) :
    (step h (.call i c r) next).madeBy j = if i = j then h.madeBy j ++ [c] else h.madeBy j := by
  unfold madeBy
  rw [made, List.filter_append, List.map_append]
  by_cases hij : i = j
  · rw [if_pos hij]
    simp [hij]
  · rw [if_neg hij]
    simp [hij]

section

variable {calls : Nat → List I.Call} (h₀ : ∀ i, Prog.Meets (script I) (calls i) (c₀.thread i) fun p _ => p = [])

include h₀

/-- What a thread has made and what it has left is its list. -/
theorem Valid.madeBy_append (i : Nat) :
    ∀ {h : History I σ μ α}, h.Valid S c₀ → h.madeBy i ++ h.phases (script I) calls i = calls i
  | .start _, _ => rfl
  | .step h (.call j c r) next, hv => by
    have ih := Valid.madeBy_append i hv.1
    rw [madeBy_call]
    by_cases hij : j = i
    · subst hij
      have hhead : (h.phases (script I) calls j).head? = some c := hv.1.allowed (h₀ j) hv.2
      rw [if_pos rfl, phases_call]
      show h.madeBy j ++ [c] ++ (h.phases (script I) calls j).tail = calls j
      rw [List.append_assoc, List.singleton_append, List.cons_head?_tail hhead, ih]
    · rw [if_neg hij, phases_call_ne _ _ _ _ fun heq => hij heq.symm, ih]
  | .step _ (.move _) _, hv => by
    have ih := Valid.madeBy_append i hv.1
    exact ih

theorem Valid.madeBy_of_done (hv : h.Valid S c₀) {i : Nat} {a : α} (hdone : h.last.thread i = .done a) :
    h.madeBy i = calls i := by
  have hmeets := hv.meets (h₀ i)
  rw [hdone] at hmeets
  rw [← hv.madeBy_append h₀ i, show h.phases (script I) calls i = [] from hmeets, List.append_nil]

theorem Valid.mem_of_made (hv : h.Valid S c₀) {i : Nat} {c : I.Call} (hc : c ∈ h.madeBy i) : c ∈ calls i := by
  rw [← hv.madeBy_append h₀ i]
  exact List.mem_append_left _ hc

end

/-- The world after a run is what the calls made of it one after the other. -/
theorem Valid.world_eq {S : Sys I σ Empty} {c₀ : Config I σ α} {effect : σ → I.Call → σ}
    (heffect : ∀ i w c r w', S.respond i w c r w' → w' = effect w c) :
    ∀ {h : History I σ Empty α}, h.Valid S c₀ → h.world = (h.made.map Prod.snd).foldl effect c₀.world
  | .start c, hv => by
    rw [show c = c₀ from hv]
    rfl
  | .step h (.call i c r) next, hv => by
    rw [made, List.map_append, List.foldl_append, ← hv.1.world_eq heffect]
    exact heffect i _ c r _ hv.2.1

end History

end Lib
