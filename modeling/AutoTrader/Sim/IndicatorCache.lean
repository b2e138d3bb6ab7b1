import AutoTrader.Lib.Table
import AutoTrader.Lib.Threads
import AutoTrader.Sim.Types
import Mathlib.Algebra.Order.BigOperators.Group.List
import Mathlib.Algebra.Order.Group.Int
import Mathlib.Data.List.MinMax
import Mathlib.Logic.Relation

/-!
# The indicator cache

Threads that want a series claim a slot for its key under the mutex, fill the slot without it, and register
the size of the series under the mutex again, where entries are evicted until the sizes fit the budget. A
slot lives on when its entry is evicted, and its key may have another slot by the time it is registered.
`cache_sound` says what holds of every run all the same.
-/

namespace AutoTrader.Sim

open Lib (Config History Label Prog Protocol Step Sys)
open Lib.Prog (Meets perform)

variable {F : Type}

/-! ## The bookkeeping -/

/-- An entry of the cache's map. -/
structure CacheEntry where
  key : IndicatorKey
  slot : Nat
  bytes : Nat
  lastUsed : Nat
  deriving DecidableEq, Repr

/-- The map with its accounted bytes and its clock. -/
structure CacheInner where
  map : Lib.Table CacheEntry.key
  usedBytes : Nat
  clock : Nat

/-- The bookkeeping under the mutex, and what every slot was filled with so far. A slot is known by the
number of its allocation. -/
structure Cache (F : Type) where
  inner : CacheInner
  slots : Nat → Option (IndicatorSeries F)
  nextSlot : Nat

/-- The empty cache. -/
def Cache.new : Cache F where
  inner := { map := Lib.Table.empty, usedBytes := 0, clock := 0 }
  slots _ := none
  nextSlot := 0

/-- What a claim finds: a computed series, or a slot to fill. -/
inductive SlotClaim (F : Type) where
  | hit (series : IndicatorSeries F)
  | miss (slot : Nat)

/-- The entry that a claim makes of its key. -/
def Cache.freshEntry (w : Cache F) (key : IndicatorKey) : CacheEntry :=
  { key, slot := w.nextSlot, bytes := 0, lastUsed := w.inner.clock + 1 }

/-- The entry, used now. -/
def CacheEntry.used (now : Nat) (e : CacheEntry) : CacheEntry := { e with lastUsed := now }

/-- A claim: the entry of the key is made or marked as used. -/
def Cache.claim (w : Cache F) (key : IndicatorKey) : SlotClaim F × Cache F :=
  let now := w.inner.clock + 1
  let map := w.inner.map.upsert (w.freshEntry key) (CacheEntry.used now)
  let slot := ((w.inner.map.find? key).getD (w.freshEntry key)).slot
  let nextSlot := if (w.inner.map.find? key).isSome then w.nextSlot else w.nextSlot + 1
  (match w.slots slot with
    | some series => .hit series
    | none => .miss slot,
    { w with inner := { w.inner with map, clock := now }, nextSlot })

/-- The slot is filled unless it is already. -/
def Cache.getOrInit (w : Cache F) (slot : Nat) (series : IndicatorSeries F) : IndicatorSeries F × Cache F :=
  match w.slots slot with
  | some filled => (filled, w)
  | none => (series, { w with slots := Function.update w.slots slot (some series) })

/-- The entry out of the map and its bytes off the total; `none` where that subtraction underflows. -/
def CacheInner.remove (c : CacheInner) (entry : CacheEntry) : Option CacheInner :=
  if c.usedBytes < entry.bytes then none
  else some { c with map := c.map.erase entry.key, usedBytes := c.usedBytes - entry.bytes }

/-- The entry that was used least recently, of those that are registered and not of the key to keep. -/
def CacheInner.victim (slots : Nat → Option (IndicatorSeries F)) (keep : IndicatorKey) (c : CacheInner) :
    Option CacheEntry :=
  (c.map.rows.filter fun e => e.key ≠ keep ∧ e.bytes > 0 ∧ (slots e.slot).isSome).argmin CacheEntry.lastUsed

theorem CacheInner.victim_mem {slots : Nat → Option (IndicatorSeries F)} {keep : IndicatorKey} {c : CacheInner}
    {e : CacheEntry} (h : c.victim slots keep = some e) :
    e ∈ c.map.rows ∧ e.key ≠ keep ∧ e.bytes > 0 ∧ (slots e.slot).isSome := by
  simpa using List.argmin_mem h

theorem CacheInner.remove_eq {c c' : CacheInner} {e : CacheEntry} (h : c.remove e = some c') :
    e.bytes ≤ c.usedBytes ∧ c' = { c with map := c.map.erase e.key, usedBytes := c.usedBytes - e.bytes } := by
  unfold remove at h
  split at h
  · cases h
  · rename_i hlt
    exact ⟨by omega, (Option.some.inj h).symm⟩

/-- Entries leave, the longest unused first, until the bytes are within the budget or none can leave. -/
def CacheInner.evictOverBudget (slots : Nat → Option (IndicatorSeries F)) (budget : Nat) (keep : IndicatorKey)
    (c : CacheInner) : Option CacheInner :=
  if budget < c.usedBytes then
    match _hv : c.victim slots keep with
    | none => some c
    | some victim =>
      match _hc : c.remove victim with
      | none => none
      | some c' => c'.evictOverBudget slots budget keep
  else some c
termination_by c.map.rows.length
decreasing_by
  rw [(CacheInner.remove_eq _hc).2]
  exact Lib.Table.length_erase_lt (CacheInner.victim_mem _hv).1

/-- The entry of the key counts with the size of the series, where it has the slot and no size yet. -/
def CacheInner.withBytes (c : CacheInner) (entry : CacheEntry) (bytes : Nat) : CacheInner :=
  { c with map := c.map.set { entry with bytes }, usedBytes := c.usedBytes + bytes }

/-- The bookkeeping after the registration; `none` where a subtraction underflows. -/
def CacheInner.register (slots : Nat → Option (IndicatorSeries F)) (budget : Nat) (key : IndicatorKey)
    (slot : Nat) (series : IndicatorSeries F) (c : CacheInner) : Option CacheInner :=
  match c.map.find? key with
  | none => some c
  | some entry =>
    if entry.slot = slot ∧ entry.bytes = 0 then
      let registeredBytes := series.estimateBytes
      let c := c.withBytes entry registeredBytes
      if registeredBytes = 0 then some c
      else do
        let c ← c.evictOverBudget slots budget key
        if budget < c.usedBytes ∧ budget < registeredBytes then
          match c.map.find? key with
          | none => some c
          | some entry => if entry.slot = slot then c.remove entry else some c
        else some c
    else some c

/-! ## Threads -/

/-- The atomic steps of a lookup. -/
inductive CacheCall (F : Type) where
  | claim (key : IndicatorKey)
  | getOrInit (slot : Nat) (series : IndicatorSeries F)
  | register (key : IndicatorKey) (slot : Nat) (series : IndicatorSeries F)

/-- The subtraction of the removed bytes wraps below zero. -/
inductive Underflow where
  | underflow
  deriving DecidableEq, Repr

/-- The atomic steps of a thread. -/
def cacheCalls (F : Type) : Lib.Iface where
  Call := CacheCall F
  Ret
    | .claim _ => SlotClaim F
    | .getOrInit _ _ => IndicatorSeries F
    | .register _ _ _ => Except Underflow Unit

/-- What each step does to the cache. -/
def cacheSys (F : Type) (budget : Nat) : Sys (cacheCalls F) (Cache F) Empty where
  respond _ w q r w' :=
    match q, r with
    | .claim key, r => (r, w') = w.claim key
    | .getOrInit slot series, r => (r, w') = w.getOrInit slot series
    | .register key slot series, r =>
      match w.inner.register w.slots budget key slot series with
      | some inner => r = .ok () ∧ w' = { w with inner }
      | none => r = .error .underflow ∧ w' = w
  move _ m _ := m.elim

/-- A call of the cache; `compute` is what the caller's function yields for a key. -/
def getOrCompute (compute : IndicatorKey → IndicatorSeries F) (key : IndicatorKey) :
    Prog (cacheCalls F) (Except Underflow (IndicatorSeries F)) := do
  let claimed : SlotClaim F ← perform (I := cacheCalls F) (.claim key)
  match claimed with
  | .hit series => return .ok series
  | .miss slot =>
    let series : IndicatorSeries F ← perform (I := cacheCalls F) (.getOrInit slot (compute key))
    let registered : Except Underflow Unit ← perform (I := cacheCalls F) (.register key slot series)
    return registered.map fun _ => series

/-- Any number of calls under way, of which call `i` asks for `keys i`. -/
abbrev CacheRun (F : Type) := History (cacheCalls F) (Cache F) Empty (Except Underflow (IndicatorSeries F))

/-- A run of lookups of the keys on an empty cache. -/
def CacheRun.Of (compute : IndicatorKey → IndicatorSeries F) (budget : Nat) (keys : Nat → IndicatorKey)
    (h : CacheRun F) : Prop :=
  h.Valid (cacheSys F budget) ⟨Cache.new, fun i => getOrCompute compute (keys i)⟩

/-! ## Removals -/

/-- One entry leaves the map, and its bytes the total: they are the size of the series in its slot. -/
def CacheInner.Removes (slots : Nat → Option (IndicatorSeries F)) (c c' : CacheInner) : Prop :=
  ∃ e ∈ c.map.rows, (∃ series, slots e.slot = some series ∧ e.bytes = series.estimateBytes) ∧ 0 < e.bytes ∧
    c'.map = c.map.erase e.key ∧ c'.usedBytes + e.bytes = c.usedBytes

/-- Entries leave the map one after the other. -/
abbrev CacheInner.Evicts (slots : Nat → Option (IndicatorSeries F)) : CacheInner → CacheInner → Prop :=
  Relation.ReflTransGen (CacheInner.Removes slots)

/-- The total is that of the entries, and every entry that counts is of a slot that is filled. -/
structure CacheInner.Counts (slots : Nat → Option (IndicatorSeries F)) (c : CacheInner) : Prop where
  used_eq : (c.usedBytes : Int) = c.map.sum fun e => (e.bytes : Int)
  sized : ∀ e ∈ c.map.rows, 0 < e.bytes → ∃ series, slots e.slot = some series ∧ e.bytes = series.estimateBytes

section

variable {slots : Nat → Option (IndicatorSeries F)} {c : CacheInner}

theorem CacheInner.Counts.bytes_le (h : c.Counts slots) {e : CacheEntry} (he : e ∈ c.map.rows) :
    e.bytes ≤ c.usedBytes := by
  have hsum := h.used_eq
  have hle : (e.bytes : Int) ≤ c.map.sum fun e => (e.bytes : Int) :=
    List.single_le_sum (by simp) _ (List.mem_map_of_mem he)
  omega

/-- An entry that counts can be taken out, and the rest still counts. -/
theorem CacheInner.Counts.remove (h : c.Counts slots) {e : CacheEntry} (he : e ∈ c.map.rows) (hpos : 0 < e.bytes) :
    ∃ c', c.remove e = some c' ∧ c'.Counts slots ∧ c.Removes slots c' ∧ c'.map = c.map.erase e.key ∧
      c'.usedBytes + e.bytes = c.usedBytes := by
  have hle := h.bytes_le he
  have hused : c.usedBytes - e.bytes + e.bytes = c.usedBytes := by omega
  refine ⟨_, if_neg (by omega), ⟨?_, fun f hf => h.sized f (Lib.Table.mem_erase.mp hf).1⟩,
    ⟨e, he, h.sized e he hpos, hpos, rfl, hused⟩, rfl, hused⟩
  have hsum := h.used_eq
  show ((c.usedBytes - e.bytes : Nat) : Int) = (c.map.erase e.key).sum _
  rw [Lib.Table.sum_erase _ he]
  omega

/-- What the eviction leaves: a total within the budget, or nothing that it could take out. -/
theorem CacheInner.Counts.evict (budget : Nat) (keep : IndicatorKey) : ∀ {c : CacheInner}, c.Counts slots →
    ∃ c', c.evictOverBudget slots budget keep = some c' ∧ c'.Counts slots ∧ c.Evicts slots c' ∧
      (∀ e ∈ c'.map.rows, e ∈ c.map.rows) ∧ c'.map.find? keep = c.map.find? keep ∧
      (c'.usedBytes ≤ budget ∨ ∀ e ∈ c'.map.rows, e.key = keep ∨ e.bytes = 0) := by
  intro c h
  induction hn : c.map.rows.length using Nat.strong_induction_on generalizing c with
  | _ n ih =>
    subst hn
    rw [evictOverBudget]
    split
    · rename_i hover
      split
      · rename_i hv
        refine ⟨c, rfl, h, .refl, fun e he => he, rfl, .inr fun e he => ?_⟩
        by_contra hcon
        have hfilter := List.argmin_eq_none.mp hv
        simp only [not_or] at hcon
        have hpos : 0 < e.bytes := by omega
        obtain ⟨series, hs, -⟩ := h.sized e he hpos
        have hmem : e ∈ c.map.rows.filter fun e => e.key ≠ keep ∧ e.bytes > 0 ∧ (slots e.slot).isSome := by
          simp [he, hcon.1, hpos, hs]
        rw [hfilter] at hmem
        cases hmem
      · rename_i victim hv
        obtain ⟨hmem, hkey, hpos, -⟩ := victim_mem hv
        obtain ⟨c₁, hremove, hcounts, hremoves, hmap, -⟩ := h.remove hmem hpos
        split
        · rename_i hc
          rw [hremove] at hc
          cases hc
        · rename_i c₂ hc
          obtain rfl : c₁ = c₂ := Option.some.inj (hremove.symm.trans hc)
          have hlt : c₁.map.rows.length < c.map.rows.length := by
            rw [hmap]
            exact Lib.Table.length_erase_lt hmem
          obtain ⟨c', hevict, hcounts', hevicts, hsub, hkeep, hdone⟩ := ih _ hlt hcounts rfl
          refine ⟨c', hevict, hcounts', .head hremoves hevicts, fun e he => ?_, ?_, hdone⟩
          · have := hsub e he
            rw [hmap] at this
            exact (Lib.Table.mem_erase.mp this).1
          · rw [hkeep, hmap, Lib.Table.find?_erase, if_neg hkey.symm]
    · rename_i hover
      exact ⟨c, rfl, h, .refl, fun e he => he, rfl, .inl (by omega)⟩

/-- Where only one entry has a size, the total is its size. -/
theorem CacheInner.Counts.used_of_rest (h : c.Counts slots) {e : CacheEntry} (he : e ∈ c.map.rows)
    (hrest : ∀ f ∈ c.map.rows, f.key = e.key ∨ f.bytes = 0) : c.usedBytes = e.bytes := by
  have hsum := h.used_eq
  have herase := Lib.Table.sum_erase (fun e => (e.bytes : Int)) he
  have hzero : (c.map.erase e.key).sum (fun e => (e.bytes : Int)) = 0 := by
    refine List.sum_eq_zero fun x hx => ?_
    obtain ⟨f, hf, rfl⟩ := List.mem_map.mp hx
    obtain ⟨hf, hne⟩ := Lib.Table.mem_erase.mp hf
    rcases hrest f hf with hk | hb
    · exact absurd hk hne
    · simp [hb]
  omega

/-- What a registration does before it evicts: nothing, or it sizes an entry of its slot that has no size. -/
def CacheInner.Registers (slot : Nat) (series : IndicatorSeries F) (c c' : CacheInner) : Prop :=
  c' = c ∨ ∃ entry ∈ c.map.rows, entry.slot = slot ∧ entry.bytes = 0 ∧
    c' = c.withBytes entry series.estimateBytes

theorem CacheInner.Counts.withBytes (h : c.Counts slots) {entry : CacheEntry} {key : IndicatorKey}
    (hfind : c.map.find? key = some entry) (hzero : entry.bytes = 0) {series : IndicatorSeries F}
    (hslot : slots entry.slot = some series) : (c.withBytes entry series.estimateBytes).Counts slots := by
  have hkey : entry.key = key := Lib.Table.find?_some_key hfind
  constructor
  · have hsum := h.used_eq
    show ((c.usedBytes + series.estimateBytes : Nat) : Int) = (c.map.set { entry with bytes := _ }).sum _
    rw [Lib.Table.sum_set (v := { entry with bytes := series.estimateBytes }) (w := entry) _ (hkey ▸ hfind)]
    simp only [hzero]
    omega
  · intro e he hpos
    rcases Lib.Table.mem_set he with rfl | ⟨he, -⟩
    · exact ⟨series, hslot, rfl⟩
    · exact h.sized e he hpos

theorem CacheInner.Counts.register (h : c.Counts slots) {budget slot : Nat} {series : IndicatorSeries F}
    (hused : c.usedBytes ≤ budget) (hslot : slots slot = some series) (key : IndicatorKey) :
    ∃ c', c.register slots budget key slot series = some c' ∧ c'.Counts slots ∧ c'.usedBytes ≤ budget ∧
      (∀ e ∈ c'.map.rows, ∃ f ∈ c.map.rows, f.key = e.key ∧ f.slot = e.slot) ∧
      ∃ mid, c.Registers slot series mid ∧ mid.Evicts slots c' := by
  have hid : ∀ e ∈ c.map.rows, ∃ f ∈ c.map.rows, f.key = e.key ∧ f.slot = e.slot := fun e he => ⟨e, he, rfl, rfl⟩
  unfold CacheInner.register
  rcases hfind : c.map.find? key with _ | entry
  · exact ⟨c, rfl, h, hused, hid, c, .inl rfl, .refl⟩
  dsimp only
  split
  swap
  · exact ⟨c, rfl, h, hused, hid, c, .inl rfl, .refl⟩
  rename_i hentry
  obtain ⟨hentrySlot, hzero⟩ := hentry
  have hmem : entry ∈ c.map.rows := Lib.Table.find?_mem hfind
  have hcounts : (c.withBytes entry series.estimateBytes).Counts slots :=
    h.withBytes hfind hzero (hentrySlot.symm ▸ hslot)
  have hregisters : c.Registers slot series (c.withBytes entry series.estimateBytes) :=
    .inr ⟨entry, hmem, hentrySlot, hzero, rfl⟩
  have hsame : ∀ e ∈ (c.withBytes entry series.estimateBytes).map.rows,
      ∃ f ∈ c.map.rows, f.key = e.key ∧ f.slot = e.slot := by
    intro e he
    rcases Lib.Table.mem_set he with rfl | ⟨he, -⟩
    · exact ⟨entry, hmem, rfl, rfl⟩
    · exact hid e he
  split
  · rename_i hempty
    refine ⟨_, rfl, hcounts, ?_, hsame, _, hregisters, .refl⟩
    show c.usedBytes + series.estimateBytes ≤ budget
    omega
  rename_i hsize
  obtain ⟨c₂, hevict, hcounts₂, hevicts, hsub, hkeep, hdone⟩ := hcounts.evict budget key
  have hkey : entry.key = key := Lib.Table.find?_some_key hfind
  have hfind₂ : c₂.map.find? key = some { entry with bytes := series.estimateBytes } := by
    rw [hkeep]
    show (c.map.set { entry with bytes := _ }).find? key = _
    rw [Lib.Table.find?_set (v := { entry with bytes := series.estimateBytes }) (w := entry) (hkey ▸ hfind)]
    exact if_pos hkey.symm
  have hmem₂ := Lib.Table.find?_mem hfind₂
  -- what is over budget after the eviction is the new entry alone
  have halone : budget < c₂.usedBytes → c₂.usedBytes = series.estimateBytes := by
    intro hover
    rcases hdone with hle | hrest
    · omega
    · exact hcounts₂.used_of_rest hmem₂ fun f hf => by
        rw [show ({ entry with bytes := series.estimateBytes } : CacheEntry).key = key from hkey]
        exact hrest f hf
  simp only [hevict, Option.bind_eq_bind, Option.bind_some, hfind₂, hentrySlot, ↓reduceIte]
  split
  · rename_i hover
    obtain ⟨c₃, hremove, hcounts₃, hremoves, hmap, hbytes⟩ := hcounts₂.remove hmem₂ (Nat.pos_of_ne_zero hsize)
    have hsum := halone hover.1
    refine ⟨c₃, hentrySlot ▸ hremove, hcounts₃, ?_, fun e he => ?_, _, hregisters, hevicts.tail hremoves⟩
    · have : c₃.usedBytes + series.estimateBytes = c₂.usedBytes := hbytes
      omega
    · rw [hmap] at he
      exact hsame e (hsub e (Lib.Table.mem_erase.mp he).1)
  · rename_i hover
    refine ⟨c₂, rfl, hcounts₂, ?_, fun e he => hsame e (hsub e he), _, hregisters, hevicts⟩
    by_contra hgt
    have hgt : budget < c₂.usedBytes := by omega
    exact hover ⟨hgt, halone hgt ▸ hgt⟩

end

/-! ## How far a call has come -/

/-- Where a lookup is. -/
inductive Lookup (F : Type) where
  | start (key : IndicatorKey)
  | holding (key : IndicatorKey) (slot : Nat)
  | ready (key : IndicatorKey) (slot : Nat) (series : IndicatorSeries F)
  | finished (key : IndicatorKey) (result : Except Underflow (IndicatorSeries F))

/-- The key that is looked up. -/
def Lookup.key : Lookup F → IndicatorKey
  | start key => key
  | holding key _ => key
  | ready key _ _ => key
  | finished key _ => key

/-- The phases of a call of the cache, by its steps and their answers. -/
def lookup (compute : IndicatorKey → IndicatorSeries F) : Protocol (cacheCalls F) (Lookup F) where
  allowed
    | .start key, q => q = .claim key
    | .holding key slot, q => q = .getOrInit slot (compute key)
    | .ready key slot series, q => q = .register key slot series
    | .finished _ _, _ => False
  next
    | .start key, .claim _, .hit series => .finished key (.ok series)
    | .start key, .claim _, .miss slot => .holding key slot
    | .holding key slot, .getOrInit _ _, series => .ready key slot series
    | .ready key _ series, .register _ _ _, r => .finished key (Except.map (fun _ => series) r)
    | p, _, _ => p

theorem getOrCompute_meets (compute : IndicatorKey → IndicatorSeries F) (key : IndicatorKey) :
    Meets (lookup compute) (.start key) (getOrCompute compute key) fun p r => p = .finished key r := by
  refine ⟨rfl, fun claimed => ?_⟩
  cases claimed with
  | hit series => exact rfl
  | miss slot => exact ⟨rfl, fun series => ⟨rfl, fun registered => rfl⟩⟩

/-! ## The invariant -/

/-- `owner` is the key that each slot was allocated for. -/
structure Cache.Sound (compute : IndicatorKey → IndicatorSeries F) (budget : Nat) (owner : Nat → IndicatorKey)
    (w : Cache F) : Prop where
  counts : w.inner.Counts w.slots
  within : w.inner.usedBytes ≤ budget
  owned : ∀ e ∈ w.inner.map.rows, owner e.slot = e.key ∧ e.slot < w.nextSlot
  filled : ∀ slot series, w.slots slot = some series → series = compute (owner slot) ∧ slot < w.nextSlot

/-- What a call knows of its slot. -/
def Lookup.Knows (compute : IndicatorKey → IndicatorSeries F) (owner : Nat → IndicatorKey) (w : Cache F) :
    Lookup F → Prop
  | .start _ => True
  | .holding key slot => owner slot = key ∧ slot < w.nextSlot
  | .ready key slot series => owner slot = key ∧ slot < w.nextSlot ∧ w.slots slot = some series
  | .finished key result => result = .ok (compute key)

/-- Slots are only ever added and filled. -/
structure Cache.Grows (owner : Nat → IndicatorKey) (w : Cache F) (owner' : Nat → IndicatorKey) (w' : Cache F) :
    Prop where
  next : w.nextSlot ≤ w'.nextSlot
  owner_eq : ∀ slot < w.nextSlot, owner' slot = owner slot
  slots_eq : ∀ slot series, w.slots slot = some series → w'.slots slot = some series

variable {compute : IndicatorKey → IndicatorSeries F} {budget : Nat} {owner owner' : Nat → IndicatorKey}
  {w w' : Cache F}

theorem Lookup.Knows.grows (hg : w.Grows owner owner' w') {p : Lookup F} (h : p.Knows compute owner w) :
    p.Knows compute owner' w' := by
  have hnext := hg.next
  cases p with
  | start => trivial
  | holding key slot =>
    obtain ⟨hk, hlt⟩ := h
    exact ⟨(hg.owner_eq slot hlt).trans hk, by omega⟩
  | ready key slot series =>
    obtain ⟨hk, hlt, hs⟩ := h
    exact ⟨(hg.owner_eq slot hlt).trans hk, by omega, hg.slots_eq slot series hs⟩
  | finished key result => exact h

/-- The entries of the map, apart from when they were used. -/
def CacheInner.Keeps (c c' : CacheInner) : Prop :=
  c'.usedBytes = c.usedBytes ∧
    ∀ e ∈ c.map.rows, ∃ f ∈ c'.map.rows, f.key = e.key ∧ f.slot = e.slot ∧ f.bytes = e.bytes

/-- What a step of a call does to the entries of the map and to the total. -/
def Cache.StepKeeps (budget : Nat) (w : Cache F) : Label (cacheCalls F) Empty → Cache F → Prop
  | .call _ (.register _ slot series) r, w' => r = .ok () ∧ w'.inner.usedBytes ≤ budget ∧
      ∃ mid, w.inner.Registers slot series mid ∧ mid.Evicts w.slots w'.inner
  | .call _ _ _, w' => w.inner.Keeps w'.inner
  | .move _, _ => True

/-! ## One step -/

theorem CacheInner.Keeps.refl (c : CacheInner) : c.Keeps c := ⟨rfl, fun e he => ⟨e, he, rfl, rfl, rfl⟩⟩

/-- A slot that is still to be allocated is not filled. -/
theorem Cache.Sound.next_empty (h : w.Sound compute budget owner) : w.slots w.nextSlot = none := by
  rcases hs : w.slots w.nextSlot with _ | series
  · rfl
  · have := (h.filled _ _ hs).2
    omega

/-- A claim of a key that has an entry only marks it as used. -/
theorem Cache.Sound.claim_found (h : w.Sound compute budget owner) {key : IndicatorKey} {entry : CacheEntry}
    (hfind : w.inner.map.find? key = some entry) :
    (w.claim key).2.Sound compute budget owner ∧ w.Grows owner owner (w.claim key).2 ∧
      w.inner.Keeps (w.claim key).2.inner ∧ (w.claim key).2.slots = w.slots := by
  have hkey : entry.key = key := Lib.Table.find?_some_key hfind
  have hmem : entry ∈ w.inner.map.rows := Lib.Table.find?_mem hfind
  have hmap : (w.claim key).2.inner.map = w.inner.map.set (entry.used (w.inner.clock + 1)) :=
    Lib.Table.upsert_of_some _ hfind
  have hnext : (w.claim key).2.nextSlot = w.nextSlot := by
    show (if _ then _ else _) = _
    rw [hfind]
    rfl
  have hrows : ∀ e ∈ (w.claim key).2.inner.map.rows,
      ∃ f ∈ w.inner.map.rows, f.key = e.key ∧ f.slot = e.slot ∧ f.bytes = e.bytes := by
    intro e he
    rw [hmap] at he
    rcases Lib.Table.mem_set he with rfl | ⟨he, -⟩
    · exact ⟨entry, hmem, rfl, rfl, rfl⟩
    · exact ⟨e, he, rfl, rfl, rfl⟩
  refine ⟨⟨⟨?_, fun e he hpos => ?_⟩, h.within, fun e he => ?_, fun slot series hs => ?_⟩,
    ⟨by omega, fun _ _ => rfl, fun _ _ hs => hs⟩, ⟨rfl, fun e he => ?_⟩, rfl⟩
  · have hsum := h.counts.used_eq
    rw [hmap, Lib.Table.sum_set (v := entry.used _) (w := entry) _ (hkey ▸ hfind)]
    show (w.inner.usedBytes : Int) = _ - (entry.bytes : Int) + (entry.bytes : Int)
    omega
  · obtain ⟨f, hf, -, hslot, hbytes⟩ := hrows e he
    rw [← hslot, ← hbytes]
    exact h.counts.sized f hf (hbytes ▸ hpos)
  · obtain ⟨f, hf, hk, hslot, -⟩ := hrows e he
    rw [← hslot, ← hk, hnext]
    exact h.owned f hf
  · rw [hnext]
    exact h.filled slot series hs
  · rw [hmap]
    refine ⟨_, List.mem_map_of_mem he, ?_⟩
    split
    · rename_i heq
      have hsame : w.inner.map.find? e.key = some e := Lib.Table.mem_iff_find?.mp he
      rw [show e.key = key from heq.trans hkey, hfind] at hsame
      obtain rfl := Option.some.inj hsame
      exact ⟨rfl, rfl, rfl⟩
    · exact ⟨rfl, rfl, rfl⟩

/-- A claim of a key that has no entry allocates a slot for it. -/
theorem Cache.Sound.claim_fresh (h : w.Sound compute budget owner) {key : IndicatorKey}
    (hfind : w.inner.map.find? key = none) :
    (w.claim key).2.Sound compute budget (Function.update owner w.nextSlot key) ∧
      w.Grows owner (Function.update owner w.nextSlot key) (w.claim key).2 ∧
      w.inner.Keeps (w.claim key).2.inner ∧ (w.claim key).2.nextSlot = w.nextSlot + 1 := by
  have hinsert : w.inner.map.insert (w.freshEntry key) = some (w.claim key).2.inner.map :=
    Lib.Table.upsert_of_none _ hfind
  have hrows := Lib.Table.rows_insert hinsert
  have hnext : (w.claim key).2.nextSlot = w.nextSlot + 1 := by
    show (if _ then _ else _) = _
    rw [hfind]
    rfl
  have howner : ∀ slot < w.nextSlot, Function.update owner w.nextSlot key slot = owner slot := fun slot hlt =>
    Function.update_of_ne (by omega) _ _
  refine ⟨⟨⟨?_, fun e he hpos => ?_⟩, h.within, fun e he => ?_, fun slot series hs => ?_⟩,
    ⟨by omega, howner, fun _ _ hs => hs⟩, ⟨rfl, fun e he => ⟨e, ?_, rfl, rfl, rfl⟩⟩, hnext⟩
  · have hsum := h.counts.used_eq
    rw [Lib.Table.sum_insert _ hinsert]
    show (w.inner.usedBytes : Int) = ((0 : Nat) : Int) + _
    omega
  · rw [hrows] at he
    rcases List.mem_cons.mp he with rfl | he
    · exact absurd hpos (Nat.lt_irrefl 0)
    · exact h.counts.sized e he hpos
  · rw [hrows] at he
    rw [hnext]
    rcases List.mem_cons.mp he with rfl | he
    · exact ⟨Function.update_self .., Nat.lt_succ_self _⟩
    · obtain ⟨hk, hlt⟩ := h.owned e he
      exact ⟨(howner _ hlt).trans hk, by omega⟩
  · obtain ⟨hseries, hlt⟩ := h.filled slot series hs
    rw [hnext, howner slot hlt]
    exact ⟨hseries, by omega⟩
  · rw [hrows]
    exact List.mem_cons_of_mem _ he

theorem Cache.Sound.claim (h : w.Sound compute budget owner) (key : IndicatorKey) :
    ∃ owner', (w.claim key).2.Sound compute budget owner' ∧ w.Grows owner owner' (w.claim key).2 ∧
      w.inner.Keeps (w.claim key).2.inner ∧
      ((lookup compute).next (.start key) (.claim key) (w.claim key).1).Knows compute owner' (w.claim key).2 := by
  rcases hfind : w.inner.map.find? key with _ | entry
  · obtain ⟨hsound, hgrows, hkeeps, hnext⟩ := h.claim_fresh hfind
    refine ⟨_, hsound, hgrows, hkeeps, ?_⟩
    have hclaim : (w.claim key).1 = .miss w.nextSlot := by
      unfold Cache.claim
      simp only [hfind, Option.getD_none, Cache.freshEntry, h.next_empty]
    rw [hclaim]
    exact ⟨Function.update_self .., by omega⟩
  · obtain ⟨hsound, hgrows, hkeeps, hslots⟩ := h.claim_found hfind
    refine ⟨_, hsound, hgrows, hkeeps, ?_⟩
    have hkey : entry.key = key := Lib.Table.find?_some_key hfind
    obtain ⟨howner, hlt⟩ := h.owned entry (Lib.Table.find?_mem hfind)
    have hle := hgrows.next
    rcases hs : w.slots entry.slot with _ | series
    · have hclaim : (w.claim key).1 = .miss entry.slot := by
        unfold Cache.claim
        simp only [hfind, Option.getD_some, hs]
      rw [hclaim]
      exact ⟨howner.trans hkey, by omega⟩
    · have hclaim : (w.claim key).1 = .hit series := by
        unfold Cache.claim
        simp only [hfind, Option.getD_some, hs]
      rw [hclaim]
      show Except.ok series = .ok (compute key)
      rw [(h.filled _ _ hs).1, howner, hkey]

theorem Cache.Sound.getOrInit (h : w.Sound compute budget owner) {key : IndicatorKey} {slot : Nat}
    (hk : Lookup.Knows compute owner w (.holding key slot)) :
    (w.getOrInit slot (compute key)).2.Sound compute budget owner ∧
      w.Grows owner owner (w.getOrInit slot (compute key)).2 ∧
      w.inner.Keeps (w.getOrInit slot (compute key)).2.inner ∧
      Lookup.Knows compute owner (w.getOrInit slot (compute key)).2
        (.ready key slot (w.getOrInit slot (compute key)).1) := by
  obtain ⟨howner, hlt⟩ := hk
  unfold Cache.getOrInit
  rcases hs : w.slots slot with _ | series
  · have hslots : ∀ s series, w.slots s = some series →
        Function.update w.slots slot (some (compute key)) s = some series := by
      intro s series hser
      have hne : s ≠ slot := by
        rintro rfl
        rw [hs] at hser
        cases hser
      rw [Function.update_of_ne hne]
      exact hser
    refine ⟨⟨⟨h.counts.used_eq, fun e he hpos => ?_⟩, h.within, h.owned, fun s series hser => ?_⟩,
      ⟨Nat.le_refl _, fun _ _ => rfl, hslots⟩, .refl _, howner, hlt, Function.update_self ..⟩
    · obtain ⟨series, hser, hbytes⟩ := h.counts.sized e he hpos
      exact ⟨series, hslots _ _ hser, hbytes⟩
    · have hser : Function.update w.slots slot (some (compute key)) s = some series := hser
      by_cases hne : s = slot
      · subst hne
        rw [Function.update_self] at hser
        exact ⟨by rw [howner, Option.some.inj hser], hlt⟩
      · rw [Function.update_of_ne hne] at hser
        exact h.filled s series hser
  · exact ⟨h, ⟨Nat.le_refl _, fun _ _ => rfl, fun _ _ hs => hs⟩, .refl _, howner, hlt, hs⟩

theorem Cache.Sound.register (h : w.Sound compute budget owner) {key : IndicatorKey} {slot : Nat}
    {series : IndicatorSeries F} (hk : Lookup.Knows compute owner w (.ready key slot series)) :
    ∃ inner, w.inner.register w.slots budget key slot series = some inner ∧
      Cache.Sound compute budget owner { w with inner } ∧ inner.usedBytes ≤ budget ∧
      ∃ mid, w.inner.Registers slot series mid ∧ mid.Evicts w.slots inner := by
  obtain ⟨-, -, hs⟩ := hk
  obtain ⟨inner, hreg, hcounts, hwithin, hsame, heffect⟩ := h.counts.register h.within hs key
  refine ⟨inner, hreg, ⟨hcounts, hwithin, fun e he => ?_, h.filled⟩, hwithin, heffect⟩
  obtain ⟨f, hf, hkey, hslot⟩ := hsame e he
  rw [← hkey, ← hslot]
  exact h.owned f hf

/-! ## Runs -/

theorem Cache.new_sound (compute : IndicatorKey → IndicatorSeries F) (budget : Nat) (owner : Nat → IndicatorKey) :
    Cache.new.Sound compute budget owner where
  counts := ⟨rfl, fun _ he => (by cases he)⟩
  within := Nat.zero_le _
  owned _ he := by cases he
  filled _ _ hs := by cases hs

/-- The total is the sum over the entries. -/
def Cache.Accounts (w : Cache F) : Prop := (w.inner.usedBytes : Int) = w.inner.map.sum fun e => (e.bytes : Int)

namespace CacheRun

variable {keys : Nat → IndicatorKey} {h : CacheRun F}

/-- How far call `i` has come. -/
def lookups (compute : IndicatorKey → IndicatorSeries F) (keys : Nat → IndicatorKey) (h : CacheRun F) :
    Nat → Lookup F :=
  h.phases (lookup compute) fun i => .start (keys i)

/-- What holds in every run of lookups. -/
structure Inv (compute : IndicatorKey → IndicatorSeries F) (budget : Nat) (keys : Nat → IndicatorKey)
    (h : CacheRun F) : Prop where
  sound : ∃ owner, h.world.Sound compute budget owner ∧
    ∀ i, (lookups compute keys h i).key = keys i ∧ (lookups compute keys h i).Knows compute owner h.world
  accounts : h.Always fun c => c.world.Accounts
  steps : h.Steps fun h l c => h.world.StepKeeps budget l c.world

/-- What a step of call `i` has to do for the invariant. -/
theorem Inv.call {i : Nat} {q : (cacheCalls F).Call} {r : (cacheCalls F).Ret q}
    {c : Config (cacheCalls F) (Cache F) (Except Underflow (IndicatorSeries F))} (hinv : Inv compute budget keys h)
    (howner : ∀ i, (lookups compute keys h i).key = keys i ∧ (lookups compute keys h i).Knows compute owner h.world)
    (hsound : c.world.Sound compute budget owner') (hgrows : h.world.Grows owner owner' c.world)
    (hkey : ((lookup compute).next (lookups compute keys h i) q r).key = (lookups compute keys h i).key)
    (hknows : ((lookup compute).next (lookups compute keys h i) q r).Knows compute owner' c.world)
    (hstep : h.world.StepKeeps budget (.call i q r) c.world) :
    Inv compute budget keys (.step h (.call i q r) c) := by
  refine ⟨⟨owner', hsound, fun j => ?_⟩, ⟨hinv.accounts, hsound.counts.used_eq⟩, ⟨hinv.steps, hstep⟩⟩
  show (Function.update (lookups compute keys h) i _ j).key = keys j ∧
    (Function.update (lookups compute keys h) i _ j).Knows compute owner' c.world
  by_cases hij : j = i
  · subst hij
    rw [Function.update_self]
    exact ⟨hkey.trans (howner j).1, hknows⟩
  · rw [Function.update_of_ne hij]
    exact ⟨(howner j).1, (howner j).2.grows hgrows⟩

theorem Of.inv (hv : Of compute budget keys h) : Inv compute budget keys h := by
  refine History.Valid.invariant (P := fun _ _ _ => True) (J := Inv compute budget keys) ?_ ?_ hv
    (History.Steps.of_forall (fun _ _ _ => trivial) h)
  · exact ⟨⟨fun _ => keys 0, Cache.new_sound compute budget _, fun i => ⟨rfl, trivial⟩⟩,
      (Cache.new_sound compute budget fun _ => keys 0).counts.used_eq, trivial⟩
  · intro h l c hv _ hinv hs _
    obtain ⟨owner, hsound, howner⟩ := hinv.sound
    rcases l with ⟨i, q, r⟩ | m
    · have hallowed : (lookup compute).allowed (lookups compute keys h i) q :=
        hv.allowed (getOrCompute_meets compute (keys i)) hs
      obtain ⟨hrespond, -⟩ := hs
      have hknows := (howner i).2
      rcases hphase : lookups compute keys h i with key | ⟨key, slot⟩ | ⟨key, slot, series⟩ | _
      · rw [hphase] at hallowed
        obtain rfl : q = .claim key := hallowed
        have hw : (r, c.world) = h.world.claim key := hrespond
        obtain ⟨owner', hsound', hgrows, hkeeps, hknows'⟩ := hsound.claim key
        rw [← hw] at hsound' hgrows hkeeps hknows'
        refine hinv.call howner hsound' hgrows ?_ (hphase ▸ hknows') hkeeps
        rw [hphase]
        cases r <;> rfl
      · rw [hphase] at hallowed hknows
        obtain rfl : q = .getOrInit slot (compute key) := hallowed
        have hw : (r, c.world) = h.world.getOrInit slot (compute key) := hrespond
        obtain ⟨hsound', hgrows, hkeeps, hknows'⟩ := hsound.getOrInit hknows
        rw [← hw] at hsound' hgrows hkeeps hknows'
        exact hinv.call howner hsound' hgrows (hphase ▸ rfl) (hphase ▸ hknows') hkeeps
      · rw [hphase] at hallowed hknows
        obtain rfl : q = .register key slot series := hallowed
        obtain ⟨inner, hreg, hsound', hwithin, heffect⟩ := hsound.register hknows
        have hw : r = .ok () ∧ c.world = { h.world with inner } := by
          have hr : match h.world.inner.register h.world.slots budget key slot series with
              | some inner => r = .ok () ∧ c.world = { h.world with inner }
              | none => r = .error .underflow ∧ c.world = h.world := hrespond
          rwa [hreg] at hr
        obtain ⟨rfl, hw⟩ := hw
        have hgrows : h.world.Grows owner owner c.world := by
          rw [hw]
          exact ⟨Nat.le_refl _, fun _ _ => rfl, fun _ _ hs => hs⟩
        have hseries : series = compute key := by
          rw [(hsound.filled slot series hknows.2.2).1, hknows.1]
        refine hinv.call howner (hw ▸ hsound') hgrows (hphase ▸ rfl) ?_ ?_
        · rw [hphase]
          show Except.ok series = .ok (compute key)
          rw [hseries]
        · refine ⟨rfl, ?_, ?_⟩
          · rw [hw]
            exact hwithin
          · rw [hw]
            exact heffect
      · rw [hphase] at hallowed
        exact hallowed.elim
    · exact m.elim

/-- In every run, whatever the calls ask for and in whatever order their steps come: a call that returns has
the series of its key; the total is the sum over the entries in every state; a registration does not
underflow, it leaves the total within the budget, and it takes entries out only together with their bytes;
and no other step takes an entry out or changes the total. -/
theorem cache_sound (hv : Of compute budget keys h) :
    (∀ i r, h.last.thread i = .done r → r = .ok (compute (keys i))) ∧
      (h.Always fun c => c.world.Accounts) ∧ h.Steps fun h l c => h.world.StepKeeps budget l c.world := by
  have hinv := Of.inv hv
  obtain ⟨owner, -, howner⟩ := hinv.sound
  refine ⟨fun i r hr => ?_, hinv.accounts, hinv.steps⟩
  have hmeets : Meets (lookup compute) (lookups compute keys h i) (h.last.thread i) fun p r =>
      p = .finished (keys i) r :=
    hv.meets (getOrCompute_meets compute (keys i))
  rw [hr] at hmeets
  have hphase : lookups compute keys h i = .finished (keys i) r := hmeets
  have hknows := (howner i).2
  rw [hphase] at hknows
  exact hknows

/-! ## A slot that is registered late -/

/-- What the cache answers to a step. -/
def answer (budget : Nat) (w : Cache F) (q : (cacheCalls F).Call) : Option ((cacheCalls F).Ret q × Cache F) :=
  match q with
  | .claim key => some (w.claim key)
  | .getOrInit slot series => some (w.getOrInit slot series)
  | .register key slot series =>
    match w.inner.register w.slots budget key slot series with
    | some inner => some (.ok (), { w with inner })
    | none => some (.error .underflow, w)

theorem answer_sound (budget i : Nat) :
    (Lib.Input.call i (answer budget) : Lib.Input (cacheCalls F) (Cache F) Empty).Sound (cacheSys F budget) := by
  intro w q r w' h
  rcases q with key | ⟨slot, series⟩ | ⟨key, slot, series⟩
  · exact Option.some.inj h.symm
  · exact Option.some.inj h.symm
  · show match w.inner.register w.slots budget key slot series with
      | some inner => r = .ok () ∧ w' = { w with inner }
      | none => r = .error .underflow ∧ w' = w
    unfold answer at h
    dsimp only at h
    split at h
    all_goals
      have hpair := Option.some.inj h
      exact ⟨(congrArg Prod.fst hpair).symm, (congrArg Prod.snd hpair).symm⟩

/-- The key of an average over `period` bars. -/
def sampleKey (period : Nat) : IndicatorKey := { tf := .m5, kind := .sma, period, multX100 := 0 }

/-- The series of a key: its period. -/
def sampleCompute (key : IndicatorKey) : IndicatorSeries Nat := .single [key.period]

/-- Calls 0 and 1 share a slot, which call 2 evicts; call 3 claims another one for the key, and then call 1
registers the first. -/
def sampleOrder : List Nat := [0, 1, 0, 0, 2, 2, 2, 3, 3, 1, 1, 3]

/-- Four lookups of two keys, in that order. -/
def sampleRun : CacheRun Nat :=
  Lib.play ⟨Cache.new, fun i => getOrCompute sampleCompute (sampleKey (if i = 2 then 50 else 20))⟩
    (sampleOrder.map fun i => .call i (answer 8))

theorem sampleRun_of : Of sampleCompute 8 (fun i => sampleKey (if i = 2 then 50 else 20)) sampleRun := by
  refine Lib.play_valid _ _ fun x hx => ?_
  obtain ⟨i, -, rfl⟩ := List.mem_map.mp hx
  exact answer_sound 8 i

theorem sampleRun_sound :
    (∀ i r, sampleRun.last.thread i = .done r → r = .ok (sampleCompute (sampleKey (if i = 2 then 50 else 20)))) ∧
      (sampleRun.Always fun c => c.world.Accounts) ∧ sampleRun.Steps fun h l c => h.world.StepKeeps 8 l c.world :=
  cache_sound sampleRun_of

end CacheRun

end AutoTrader.Sim
