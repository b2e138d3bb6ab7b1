import AutoTrader.App.Accounts
import AutoTrader.Lib.Fallible
import AutoTrader.Lib.Threads
import Mathlib.Data.List.Dedup

/-!
# Requests to the accounts API, side by side

Any number of requests run at once, one statement at a time, while the trading core opens and settles trades
and changes balances; an answer may be lost after its statement was executed. In every state that is reached
the accounts satisfy the rules that the requests check before they write (`accounts_sound`): a check and its
write are two statements, and what was read in the first still holds at the second, as an identifier is never
used again and the exchange of an account never changes. `requests_answered` says what the finished requests
have done.
-/

namespace AutoTrader.Accounts

open Lib (Config History Label Prog Protocol Step Sys Table)
open Piece (lit arg)

/-! ## Startup -/

/-- The levels of the configuration, or an exchange that is not supported. -/
def parseExchangeMargin : List (String × Decimal) → Except Error (Exchange → Option Decimal)
  | [] => .ok fun _ => none
  | (key, level) :: rest => do
    let ex ← (Exchange.parse key).mapError fun e => [lit "invalid option \"exchange_margin.", arg key, lit "\": "] ++ e
    let map ← parseExchangeMargin rest
    return Function.update map ex (some level)

/-- Every exchange in use has a positive liquidation margin level. -/
def rejectNonPositiveMarginForExchangesInUse (map : Exchange → Option Decimal) : List Exchange → Except Error Unit
  | [] => .ok ()
  | ex :: rest =>
    match map ex with
    | some value =>
      if value ≤ 0 then
        .error [lit "invalid option \"exchange_margin.", lit ex.asStr,
          lit ".liquidation_margin_level\": must be positive, got ", arg (toString value)]
      else rejectNonPositiveMarginForExchangesInUse map rest
    | none => rejectNonPositiveMarginForExchangesInUse map rest

/-- The liquidation margin levels of the exchanges in use. -/
def resolveExchangeLiquidationLevels (accounts : List AccountRow) (exchangeMargin : List (String × Decimal)) :
    Except Error (Exchange → Option Decimal) := do
  let required := (accounts.map fun a => a.exchange).dedup
  let map ← parseExchangeMargin exchangeMargin
  let missing := required.filter fun ex => (map ex).isNone
  if !missing.isEmpty then
    let quotedMissing := (missing.map Exchange.asStr).mergeSort.map fun name => "\"exchange_margin." ++ name ++ "\""
    throw [lit "invalid option ", arg (", ".intercalate quotedMissing),
      lit " missing for active accounts; add [exchange_margin.<name>] liquidation_margin_level = <value> for each"]
  rejectNonPositiveMarginForExchangesInUse map required
  return map

theorem rejectNonPositiveMargin_ok {map : Exchange → Option Decimal} {exs : List Exchange}
    (h : rejectNonPositiveMarginForExchangesInUse map exs = .ok ()) :
    ∀ ex ∈ exs, ∀ value ∈ map ex, 0 < value := by
  induction exs with
  | nil => exact fun ex hex => absurd hex List.not_mem_nil
  | cons e exs ih =>
    simp only [rejectNonPositiveMarginForExchangesInUse] at h
    intro ex hex value hvalue
    cases hmap : map e with
    | none =>
      simp only [hmap] at h
      rcases List.mem_cons.mp hex with rfl | hex
      · rw [hmap] at hvalue
        cases hvalue
      · exact ih h ex hex value hvalue
    | some level =>
      simp only [hmap] at h
      split at h
      · cases h
      rename_i hpos
      rcases List.mem_cons.mp hex with rfl | hex
      · rw [hmap] at hvalue
        obtain rfl := Option.some.inj hvalue
        exact not_le.mp hpos
      · exact ih h ex hex value hvalue

/-- The accounts that are active or have an unsettled trade, oldest first. -/
def AccountsDb.listActiveOrWithOpenTrades (w : AccountsDb) : List AccountRow :=
  (w.accounts.rows.filter fun a => a.active || w.unsettled a.id).mergeSort fun a b => a.createdAt ≤ b.createdAt

/-- The service starts only with a level for each exchange in use. -/
theorem resolveExchangeLiquidationLevels_ok {accounts : List AccountRow} {exchangeMargin : List (String × Decimal)}
    {levels : Exchange → Option Decimal}
    (h : resolveExchangeLiquidationLevels accounts exchangeMargin = .ok levels) :
    ∀ a ∈ accounts, (liquidationLevel levels a.exchange).isSome := by
  obtain ⟨map, -, h⟩ := Lib.bind_eq_ok.mp h
  dsimp only at h
  split at h
  · cases h
  rename_i hmissing
  obtain ⟨⟨⟩, hpos, h⟩ := Lib.bind_eq_ok.mp h
  obtain rfl := Except.ok.inj h
  intro a ha
  have hmem : a.exchange ∈ (accounts.map fun a => a.exchange).dedup :=
    List.mem_dedup.mpr (List.mem_map_of_mem ha)
  have hsome : map a.exchange ≠ none := by
    intro hnone
    refine hmissing ?_
    rw [Bool.not_eq_true', List.isEmpty_eq_false_iff]
    exact List.ne_nil_of_mem (List.mem_filter.mpr ⟨hmem, by simp [hnone]⟩)
  obtain ⟨level, hlevel⟩ := Option.ne_none_iff_exists'.mp hsome
  simp only [liquidationLevel, hlevel, if_pos (rejectNonPositiveMargin_ok hpos _ hmem level hlevel), Option.isSome_some]

/-! ## Runs -/

/-- What happens to the tables beside the requests. -/
inductive AccountsMove where
  /-- Trades are opened, locked and settled. -/
  | trades (trades : Table fun r : TradeRow => r.id)
  | balance (id : Uuid) (currentBalance : Decimal)
  /-- A row of another table refers to an account. -/
  | refer (id : Uuid)
  /-- A strategy is added to the catalog. -/
  | strategy (name : String)

/-- What each move does. -/
def AccountsMove.moves (w : AccountsDb) : AccountsMove → AccountsDb → Prop
  | .trades rows, w' =>
    (∀ r ∈ rows.rows, (w.accounts.find? r.accountId).isSome) ∧ w' = { w with trades := rows }
  | .balance id currentBalance, w' =>
    ∃ a, w.accounts.find? id = some a ∧ w' = { w with accounts := w.accounts.set { a with currentBalance } }
  | .refer id, w' => (w.accounts.find? id).isSome ∧ w' = { w with referenced := id :: w.referenced }
  | .strategy name, w' => w' = { w with strategies := name :: w.strategies }

/-- A statement is executed, or its answer is lost, before it is executed or after. -/
def accountsSys : Sys AccountCalls AccountsDb AccountsMove where
  respond _ w q r w' :=
    q.answers w r w' ∨ (∃ text, r = .error (.other text)) ∧ (w' = w ∨ ∃ r', q.answers w r' w')
  move w m w' := m.moves w w'

/-! ## Executed statements -/

/-- The row `a` is written, or a constraint refuses it. -/
def AccountsDb.serveWrite (w : AccountsDb) (a : AccountRow) (accounts : Table fun a : AccountRow => a.id) {α : Type}
    (ok : α) : Except SqlxError α × AccountsDb :=
  if a.checks = false then (.error (.database .other .other ""), w)
  else if w.indexConflict a then (.error (.database .uniqueViolation .oneLivePerExchange ""), w)
  else if a.strategy ∉ w.strategies then (.error (.database .foreignKeyViolation .strategyFkey ""), w)
  else (.ok ok, { w with accounts, named := a.id :: w.named })

/-- A statement executed by a database that gives the least new identifier. -/
def AccountSql.serve (createdAt : DateTime) (w : AccountsDb) :
    (q : AccountSql) → Option (Except SqlxError q.Ok × AccountsDb)
  | .strategyExists name => some (.ok (decide (name ∈ w.strategies)), w)
  | .getAccount id => some (.ok (w.accounts.find? id), { w with named := id :: w.named })
  | .findActiveLive exchange excluding =>
    some (.ok ((w.accounts.rows.find? fun a => a.activeLive exchange excluding).map fun a => a.id), w)
  | .insertAccount new =>
    let a := new.row (w.named.foldr max 0 + 1) createdAt
    (w.accounts.insert a).map fun accounts => w.serveWrite a accounts a
  | .updateAccount id req =>
    match w.accounts.find? id with
    | some a =>
      if w.deactivationGuard a req then
        some (w.serveWrite (req.apply a) (w.accounts.set (req.apply a)) (some (req.apply a)))
      else some (.ok none, w)
    | none => some (.ok none, w)
  | .listOpenOrClosing id => some (.ok (w.trades.rows.filter fun r => r.accountId = id && r.status.unsettled), w)
  | .deleteAccount id =>
    if (w.accounts.find? id).isNone then some (.ok 0, w)
    else if w.restricted id then some (.error (.database .foreignKeyViolation .other ""), w)
    else some (.ok 1, { w with accounts := w.accounts.erase id })

theorem AccountsDb.serveWrite_writes (w : AccountsDb) (a : AccountRow) (accounts : Table fun a : AccountRow => a.id)
    {α : Type} (ok : α) : w.writes a accounts ok (w.serveWrite a accounts ok).1 (w.serveWrite a accounts ok).2 := by
  simp only [writes, serveWrite]
  split
  · exact ⟨⟨"", rfl⟩, rfl⟩
  split
  · exact ⟨⟨"", rfl⟩, rfl⟩
  split
  · exact ⟨⟨"", rfl⟩, rfl⟩
  · exact ⟨rfl, rfl⟩

theorem le_foldr_max {ns : List Nat} {n : Nat} (h : n ∈ ns) : n ≤ ns.foldr max 0 := by
  induction ns with
  | nil => cases h
  | cons m ns ih =>
    rcases List.mem_cons.mp h with rfl | h
    · exact le_max_left _ _
    · exact (ih h).trans (le_max_right _ _)

theorem AccountSql.serve_answers {createdAt : DateTime} {w w' : AccountsDb} {q : AccountSql} {r : Except SqlxError q.Ok}
    (h : q.serve createdAt w = some (r, w')) : q.answers w r w' := by
  cases q with
  | strategyExists name =>
    obtain ⟨rfl, rfl⟩ := Prod.mk.inj (Option.some.inj h)
    exact ⟨rfl, rfl⟩
  | getAccount id =>
    obtain ⟨rfl, rfl⟩ := Prod.mk.inj (Option.some.inj h)
    exact ⟨rfl, rfl⟩
  | listOpenOrClosing id =>
    obtain ⟨rfl, rfl⟩ := Prod.mk.inj (Option.some.inj h)
    exact ⟨rfl, rfl⟩
  | findActiveLive exchange excluding =>
    obtain ⟨rfl, rfl⟩ := Prod.mk.inj (Option.some.inj h)
    refine ⟨⟨_, rfl, ?_⟩, rfl⟩
    cases hfind : w.accounts.rows.find? fun a => a.activeLive exchange excluding with
    | none => exact fun a ha => Bool.eq_false_of_not_eq_true (List.find?_eq_none.mp hfind a ha)
    | some a =>
      have hlive := List.find?_some hfind
      exact ⟨a, List.mem_of_find?_eq_some hfind, rfl, hlive⟩
  | insertAccount new =>
    obtain ⟨accounts, hinsert, heq⟩ := Option.map_eq_some_iff.mp h
    obtain ⟨rfl, rfl⟩ := Prod.mk.inj heq
    refine ⟨_, createdAt, accounts, fun hmem => ?_, hinsert, w.serveWrite_writes _ _ _⟩
    have := le_foldr_max hmem
    omega
  | updateAccount id req =>
    simp only [serve] at h
    simp only [answers]
    cases hfind : w.accounts.find? id with
    | none =>
      simp only [hfind] at h ⊢
      obtain ⟨rfl, rfl⟩ := Prod.mk.inj (Option.some.inj h)
      exact ⟨rfl, rfl⟩
    | some a =>
      simp only [hfind] at h ⊢
      split at h
      · rename_i hguard
        rw [if_pos hguard]
        obtain ⟨rfl, rfl⟩ := Prod.mk.inj (Option.some.inj h)
        exact w.serveWrite_writes _ _ _
      · rename_i hguard
        rw [if_neg hguard]
        obtain ⟨rfl, rfl⟩ := Prod.mk.inj (Option.some.inj h)
        exact ⟨rfl, rfl⟩
  | deleteAccount id =>
    simp only [serve] at h
    simp only [answers]
    split at h
    · rename_i hnone
      rw [if_pos hnone]
      obtain ⟨rfl, rfl⟩ := Prod.mk.inj (Option.some.inj h)
      exact ⟨rfl, rfl⟩
    rename_i hthere
    rw [if_neg hthere]
    split at h
    · rename_i hrestricted
      rw [if_pos hrestricted]
      obtain ⟨rfl, rfl⟩ := Prod.mk.inj (Option.some.inj h)
      exact ⟨⟨"", rfl⟩, rfl⟩
    · rename_i hfree
      rw [if_neg hfree]
      obtain ⟨rfl, rfl⟩ := Prod.mk.inj (Option.some.inj h)
      exact ⟨rfl, rfl⟩

/-! ## A run -/

/-- A run of account requests between other writes. -/
abbrev AccountRun := History AccountCalls AccountsDb AccountsMove (Except ApiError Reply)

/-- A run of the requests from `w₀`. -/
def AccountRun.Of (levels : Exchange → Option Decimal) (w₀ : AccountsDb) (requests : Nat → AccountRequest)
    (h : AccountRun) : Prop :=
  h.Valid accountsSys ⟨w₀, fun i => (requests i).prog levels⟩

/-- What request `i` has learned and written. -/
def AccountRun.phase (levels : Exchange → Option Decimal) (h : AccountRun) (i : Nat) : Phase :=
  h.phases (accountProtocol levels) (fun _ => ⟨[], [], false⟩) i

/-! ## What is kept -/

/-- The rules of the stored rows. -/
structure AccountsDb.Stored (w : AccountsDb) : Prop where
  oneLive : ∀ a ∈ w.accounts.rows, ∀ b ∈ w.accounts.rows, a.indexed → b.indexed → a.exchange = b.exchange → a.id = b.id
  leverage : ∀ a ∈ w.accounts.rows, 1 ≤ a.leverage ∧ withinCap a.exchange a.leverage
  balance : ∀ a ∈ w.accounts.rows, a.currency = "JPY" →
    minInitialBalanceJpy ≤ a.initialBalance ∧ Lib.truncate a.initialBalance = a.initialBalance
  strategy : ∀ a ∈ w.accounts.rows, a.strategy ∈ w.strategies
  trades : ∀ r ∈ w.trades.rows, (w.accounts.find? r.accountId).isSome
  named : ∀ a ∈ w.accounts.rows, a.id ∈ w.named

/-- The exchange of every active account has a liquidation level. -/
def AccountsDb.Leveled (levels : Exchange → Option Decimal) (w : AccountsDb) : Prop :=
  ∀ a ∈ w.accounts.rows, a.active → (liquidationLevel levels a.exchange).isSome

/-- What no step undoes: an account keeps its type, exchange, initial balance and currency, is not deactivated
with an unsettled trade and not removed while a row refers to it, and its identifier is never used again. -/
structure AccountsDb.Follows (w w' : AccountsDb) : Prop where
  named : w.named ⊆ w'.named
  fixed : ∀ id ∈ w.named, ∀ a', w'.accounts.find? id = some a' →
    ∃ a, w.accounts.find? id = some a ∧ a'.fixed = a.fixed
  deactivated : ∀ id a a', w.accounts.find? id = some a → w'.accounts.find? id = some a' → a.active →
    a'.active = false → w.unsettled id = false
  removed : ∀ id a, w.accounts.find? id = some a → w'.accounts.find? id = none → w.restricted id = false

/-- What was learned still holds. -/
def AccountsDb.Knows (w : AccountsDb) (learned : List (Uuid × Option Exchange)) : Prop :=
  ∀ id o, (id, o) ∈ learned → id ∈ w.named ∧ ∀ a, w.accounts.find? id = some a → o = some a.exchange

section

variable {levels : Exchange → Option Decimal} {w w' : AccountsDb}

theorem AccountsDb.Stored.named_of_find? (h : w.Stored) {id : Uuid} {a : AccountRow}
    (ha : w.accounts.find? id = some a) : id ∈ w.named := by
  have hid : a.id = id := Table.find?_some_key (t := w.accounts) ha
  exact hid ▸ h.named a (Table.find?_mem ha)

/-- The account of an identifier stays, is changed, or is removed. -/
theorem AccountsDb.Follows.of_find? (hw : w.Stored) (hn : w.named ⊆ w'.named)
    (h : ∀ id ∈ w.named, w'.accounts.find? id = w.accounts.find? id ∨
      (∃ a a', w.accounts.find? id = some a ∧ w'.accounts.find? id = some a' ∧ a'.fixed = a.fixed ∧
        (a.active → a'.active = false → w.unsettled id = false)) ∨
      (w'.accounts.find? id = none ∧ w.restricted id = false)) : w.Follows w' where
  named := hn
  fixed id hid a' ha' := by
    rcases h id hid with hsame | ⟨a, a'', ha, ha'', hfixed, -⟩ | ⟨hnone, -⟩
    · exact ⟨a', hsame ▸ ha', rfl⟩
    · obtain rfl := Option.some.inj (ha'.symm.trans ha'')
      exact ⟨a, ha, hfixed⟩
    · rw [hnone] at ha'
      cases ha'
  deactivated id a a' ha ha' hactive hinactive := by
    rcases h id (hw.named_of_find? ha) with hsame | ⟨b, b', hb, hb', -, hunsettled⟩ | ⟨hnone, -⟩
    · rw [hsame, ha] at ha'
      obtain rfl := Option.some.inj ha'
      rw [hactive] at hinactive
      cases hinactive
    · obtain rfl := Option.some.inj (ha.symm.trans hb)
      obtain rfl := Option.some.inj (ha'.symm.trans hb')
      exact hunsettled hactive hinactive
    · rw [hnone] at ha'
      cases ha'
  removed id a ha hnone := by
    rcases h id (hw.named_of_find? ha) with hsame | ⟨b, b', hb, hb', -, -⟩ | ⟨-, hfree⟩
    · rw [hsame, ha] at hnone
      cases hnone
    · rw [hb'] at hnone
      cases hnone
    · exact hfree

theorem AccountsDb.Follows.of_eq (hw : w.Stored) (h : w'.accounts = w.accounts) (hn : w.named ⊆ w'.named) :
    w.Follows w' :=
  .of_find? hw hn fun id _ => .inl (by rw [h])

theorem AccountsDb.Knows.follows {learned : List (Uuid × Option Exchange)} (h : w.Knows learned)
    (hf : w.Follows w') : w'.Knows learned := by
  intro id o ho
  obtain ⟨hid, hfact⟩ := h id o ho
  refine ⟨hf.named hid, fun a' ha' => ?_⟩
  obtain ⟨a, ha, hfixed⟩ := hf.fixed id hid a' ha'
  have hexchange : a'.exchange = a.exchange := congrArg (fun f => f.2.1) hfixed
  rw [hexchange]
  exact hfact a ha

/-- An answer tells what holds when it is given. -/
theorem AccountsDb.Knows.answer {learned : List (Uuid × Option Exchange)} (h : w'.Knows learned) {q : AccountSql}
    {a : q.Ok} (hq : q.answers w (.ok a) w') : w'.Knows ((q.fact a).toList ++ learned) := by
  intro id o ho
  rcases List.mem_append.mp ho with ho | ho
  · cases q with
    | getAccount asked =>
      obtain ⟨hr, hw⟩ := hq
      obtain rfl := Except.ok.inj hr
      obtain ⟨rfl, rfl⟩ := Prod.mk.inj (List.mem_singleton.mp ho)
      subst hw
      refine ⟨List.mem_cons_self, fun a ha => ?_⟩
      have ha : w.accounts.find? id = some a := ha
      rw [ha]
      rfl
    | _ => cases ho
  · exact h id o ho

/-- What was learned of an account holds of the account that is there. -/
theorem AccountsDb.Knows.learned {learned : List (Uuid × Option Exchange)} (h : w.Knows learned) {id : Uuid}
    {P : Exchange → Prop} (hl : Learned learned id P) {a : AccountRow} (ha : w.accounts.find? id = some a) :
    P a.exchange := by
  obtain ⟨o, ho, hP⟩ := hl
  exact hP a.exchange ((h id o ho).2 a ha)

/-! ## What a statement keeps -/

theorem indexConflict_eq_false {a : AccountRow} (h : w.indexConflict a = false) (ha : a.indexed) :
    ∀ b ∈ w.accounts.rows, b.indexed → b.exchange = a.exchange → b.id = a.id := by
  intro b hb hindexed hexchange
  simp only [AccountsDb.indexConflict, ha, Bool.true_and, List.any_eq_false, Bool.and_eq_true, decide_eq_true_eq,
    not_and, ne_eq, not_not] at h
  exact h b hb ⟨hindexed, hexchange⟩

/-- Writing one row that was checked keeps the rules. -/
theorem AccountsDb.Stored.write (h : w.Stored) {a : AccountRow} {accounts : Table fun a : AccountRow => a.id}
    (hrows : ∀ b ∈ accounts.rows, b = a ∨ b ∈ w.accounts.rows ∧ b.id ≠ a.id)
    (hkeep : ∀ id, (w.accounts.find? id).isSome → (accounts.find? id).isSome) (hchecks : a.checks)
    (hindex : w.indexConflict a = false) (hstrategy : a.strategy ∈ w.strategies)
    (hcap : withinCap a.exchange a.leverage)
    (hwhole : a.currency = "JPY" → Lib.truncate a.initialBalance = a.initialBalance) :
    Stored { w with accounts, named := a.id :: w.named } where
  oneLive b hb c hc hbi hci heq := by
    rcases hrows b hb with rfl | ⟨hb', -⟩
    · rcases hrows c hc with rfl | ⟨hc, -⟩
      · rfl
      · exact (indexConflict_eq_false hindex hbi c hc hci heq.symm).symm
    · rcases hrows c hc with rfl | ⟨hc, -⟩
      · exact indexConflict_eq_false hindex hci b hb' hbi heq
      · exact h.oneLive b hb' c hc hbi hci heq
  leverage b hb := by
    rcases hrows b hb with rfl | ⟨hb, -⟩
    · exact ⟨(AccountRow.checks_iff.mp hchecks).2.1, hcap⟩
    · exact h.leverage b hb
  balance b hb hjpy := by
    rcases hrows b hb with rfl | ⟨hb, -⟩
    · exact ⟨(AccountRow.checks_iff.mp hchecks).2.2 hjpy, hwhole hjpy⟩
    · exact h.balance b hb hjpy
  strategy b hb := by
    rcases hrows b hb with rfl | ⟨hb, -⟩
    · exact hstrategy
    · exact h.strategy b hb
  trades r hr := hkeep _ (h.trades r hr)
  named b hb := by
    rcases hrows b hb with rfl | ⟨hb, -⟩
    · exact List.mem_cons_self
    · exact List.mem_cons_of_mem _ (h.named b hb)

/-- What a write does to the database. -/
def Write.Did (w w' : AccountsDb) : Write → Prop
  | .inserted new a => ∃ id createdAt accounts, a = new.row id createdAt ∧ id ∉ w.named ∧ a.checks ∧
      w.indexConflict a = false ∧ a.strategy ∈ w.strategies ∧ w.accounts.insert a = some accounts ∧
      w' = { w with accounts, named := a.id :: w.named }
  | .updated id req a => ∃ old, w.accounts.find? id = some old ∧ a = req.apply old ∧ w.deactivationGuard old req ∧
      a.checks ∧ w.indexConflict a = false ∧ a.strategy ∈ w.strategies ∧
      w' = { w with accounts := w.accounts.set a, named := a.id :: w.named }
  | .deleted id => (∃ old, w.accounts.find? id = some old) ∧ w.restricted id = false ∧
      w' = { w with accounts := w.accounts.erase id }

/-- A statement that is executed reads, is refused, or writes what it answers. -/
theorem AccountSql.answers_cases {q : AccountSql} {r : Except SqlxError q.Ok} (h : q.answers w r w') :
    ((∃ named, w.named ⊆ named ∧ w' = { w with named }) ∧ ∀ a, r = .ok a → q.write a = none) ∨
      ∃ a write, r = .ok a ∧ q.write a = some write ∧ write.Did w w' := by
  have hsame : w' = w → ∃ named, w.named ⊆ named ∧ w' = { w with named } :=
    fun hw => ⟨w.named, List.Subset.refl _, hw⟩
  cases q with
  | strategyExists name => exact .inl ⟨hsame h.2, fun _ _ => rfl⟩
  | getAccount id => exact .inl ⟨⟨id :: w.named, List.subset_cons_self _ _, h.2⟩, fun _ _ => rfl⟩
  | findActiveLive exchange excluding => exact .inl ⟨hsame h.2, fun _ _ => rfl⟩
  | listOpenOrClosing id => exact .inl ⟨hsame h.2, fun _ _ => rfl⟩
  | insertAccount new =>
    obtain ⟨id, createdAt, accounts, hfresh, hinsert, hwrites⟩ := h
    rcases AccountsDb.writes_cases hwrites with
      ⟨hw, code, constraint, text, rfl⟩ | ⟨rfl, hw, hchecks, hindex, hstrategy⟩
    · exact .inl ⟨hsame hw, fun _ hr => by cases hr⟩
    · exact .inr ⟨_, _, rfl, rfl, id, createdAt, accounts, rfl, hfresh, hchecks, hindex, hstrategy, hinsert, hw⟩
  | updateAccount id req =>
    simp only [AccountSql.answers] at h
    cases hfind : w.accounts.find? id with
    | none =>
      simp only [hfind] at h
      obtain ⟨rfl, hw⟩ := h
      exact .inl ⟨hsame hw, fun a ha => by rw [← Except.ok.inj ha]; rfl⟩
    | some old =>
      simp only [hfind] at h
      split at h
      · rename_i hguard
        rcases AccountsDb.writes_cases h with ⟨hw, code, constraint, text, rfl⟩ | ⟨rfl, hw, hchecks, hindex, hstrategy⟩
        · exact .inl ⟨hsame hw, fun _ hr => by cases hr⟩
        · exact .inr ⟨_, _, rfl, rfl, old, hfind, rfl, hguard, hchecks, hindex, hstrategy, hw⟩
      · obtain ⟨rfl, hw⟩ := h
        exact .inl ⟨hsame hw, fun a ha => by rw [← Except.ok.inj ha]; rfl⟩
  | deleteAccount id =>
    simp only [AccountSql.answers] at h
    split at h
    · obtain ⟨rfl, hw⟩ := h
      exact .inl ⟨hsame hw, fun a ha => by rw [← Except.ok.inj ha]; rfl⟩
    rename_i hthere
    split at h
    · obtain ⟨⟨text, rfl⟩, hw⟩ := h
      exact .inl ⟨hsame hw, fun _ hr => by cases hr⟩
    · rename_i hfree
      obtain ⟨rfl, hw⟩ := h
      refine .inr ⟨1, _, rfl, rfl, Option.ne_none_iff_exists'.mp fun hnone => ?_, ?_, hw⟩
      · exact hthere (by rw [hnone]; rfl)
      · exact Bool.eq_false_of_not_eq_true hfree

theorem deactivationGuard_iff {a : AccountRow} {req : UpdateTradingAccount} (h : w.deactivationGuard a req)
    (hactive : a.active) (hinactive : (req.apply a).active = false) : w.unsettled a.id = false := by
  have hreq : req.active = some false := by
    cases hr : req.active with
    | none => simp [UpdateTradingAccount.apply, hr, hactive] at hinactive
    | some b => simpa [UpdateTradingAccount.apply, hr] using hinactive
  simpa [AccountsDb.deactivationGuard, hreq, hactive] using h

theorem Write.Did.follows {write : Write} (h : write.Did w w') (hw : w.Stored) : w.Follows w' := by
  cases write with
  | inserted new a =>
    obtain ⟨id, createdAt, accounts, rfl, hfresh, -, -, -, hinsert, rfl⟩ := h
    refine .of_find? hw (List.subset_cons_self _ _) fun id' hid' => .inl ?_
    rw [Table.find?_insert hinsert, if_neg]
    rintro rfl
    exact hfresh hid'
  | updated id req a =>
    obtain ⟨old, hold, rfl, hguard, -, -, -, rfl⟩ := h
    have hid : old.id = id := Table.find?_some_key (t := w.accounts) hold
    subst hid
    have hfind : ∀ id', (w.accounts.set (req.apply old)).find? id' =
        if id' = old.id then some (req.apply old) else w.accounts.find? id' :=
      Table.find?_set (t := w.accounts) (v := req.apply old) (w := old) hold
    refine .of_find? hw (List.subset_cons_self _ _) fun id' _ => ?_
    by_cases heq : id' = old.id
    · subst heq
      exact .inr (.inl ⟨old, req.apply old, hold, by rw [hfind, if_pos rfl], req.apply_fixed old,
        deactivationGuard_iff hguard⟩)
    · exact .inl (by rw [hfind, if_neg heq])
  | deleted id =>
    obtain ⟨-, hfree, rfl⟩ := h
    refine .of_find? hw (List.Subset.refl _) fun id' _ => ?_
    by_cases heq : id' = id
    · subst heq
      exact .inr (.inr ⟨by rw [Table.find?_erase, if_pos rfl], hfree⟩)
    · exact .inl (by rw [Table.find?_erase, if_neg heq])

/-- A write that was checked keeps the rules. -/
theorem Write.Did.stored {q : AccountSql} {a : q.Ok} {write : Write} {learned : List (Uuid × Option Exchange)}
    (hq : q.write a = some write) (h : write.Did w w') (hw : w.Stored) (hl : w.Leveled levels) (hk : w.Knows learned)
    (hc : q.Checked levels learned) : w'.Stored ∧ w'.Leveled levels := by
  cases q with
  | insertAccount new =>
    obtain rfl := Option.some.inj hq
    obtain ⟨id, createdAt, accounts, rfl, hfresh, hchecks, hindex, hstrategy, hinsert, rfl⟩ := h
    obtain ⟨hcap, hlevel, hwhole⟩ := hc
    have hrows : ∀ b ∈ accounts.rows, b = new.row id createdAt ∨ b ∈ w.accounts.rows ∧ b.id ≠ id := by
      intro b hb
      rw [Table.rows_insert hinsert] at hb
      rcases List.mem_cons.mp hb with rfl | hb
      · exact .inl rfl
      · exact .inr ⟨hb, fun heq => hfresh (heq ▸ hw.named b hb)⟩
    refine ⟨hw.write hrows (fun id' hid' => ?_) hchecks hindex hstrategy hcap hwhole, fun b hb hactive => ?_⟩
    · rw [Table.find?_insert hinsert]
      split
      · rfl
      · exact hid'
    · rcases hrows b hb with rfl | ⟨hb, -⟩
      · exact hlevel
      · exact hl b hb hactive
  | updateAccount id req =>
    obtain ⟨a', rfl, rfl⟩ := Option.map_eq_some_iff.mp hq
    obtain ⟨old, hold, rfl, -, hchecks, hindex, hstrategy, rfl⟩ := h
    obtain ⟨hleverage, hactivated⟩ := hc
    have hmem : old ∈ w.accounts.rows := Table.find?_mem hold
    have hid : old.id = id := Table.find?_some_key (t := w.accounts) hold
    have hrows : ∀ b ∈ (w.accounts.set (req.apply old)).rows,
        b = req.apply old ∨ b ∈ w.accounts.rows ∧ b.id ≠ old.id := fun b hb => Table.mem_set hb
    have hcap : withinCap old.exchange (req.apply old).leverage := by
      cases hreq : req.leverage with
      | none =>
        rw [UpdateTradingAccount.apply, hreq]
        exact (hw.leverage old hmem).2
      | some leverage =>
        rw [UpdateTradingAccount.apply, hreq]
        exact hk.learned (hleverage leverage hreq) hold
    refine ⟨hw.write hrows (fun id' hid' => ?_) hchecks hindex hstrategy hcap
      (fun hjpy => (hw.balance old hmem hjpy).2),
      fun b hb hactive => ?_⟩
    · rw [Table.find?_set (t := w.accounts) (v := req.apply old) (w := old) (by simpa [hid] using hold)]
      split
      · rfl
      · exact hid'
    · rcases hrows b hb with rfl | ⟨hb, -⟩
      · cases hreq : req.active with
        | none =>
          rw [UpdateTradingAccount.apply, hreq] at hactive
          exact hl old hmem hactive
        | some active =>
          rw [UpdateTradingAccount.apply, hreq] at hactive
          have hlevel : (liquidationLevel levels old.exchange).isSome :=
            hk.learned (hactivated (hreq.trans (congrArg some hactive))) hold
          exact hlevel
      · exact hl b hb hactive
  | deleteAccount id =>
    have hwrite : write = .deleted id := by
      simp only [AccountSql.write] at hq
      split at hq
      · cases hq
      · exact (Option.some.inj hq).symm
    subst hwrite
    obtain ⟨-, hfree, rfl⟩ := h
    have hrows : ∀ b ∈ (w.accounts.erase id).rows, b ∈ w.accounts.rows := fun b hb => (Table.mem_erase.mp hb).1
    refine ⟨⟨fun b hb c hc => hw.oneLive b (hrows b hb) c (hrows c hc), fun b hb => hw.leverage b (hrows b hb),
      fun b hb => hw.balance b (hrows b hb), fun b hb => hw.strategy b (hrows b hb), fun r hr => ?_,
      fun b hb => hw.named b (hrows b hb)⟩, fun b hb => hl b (hrows b hb)⟩
    rw [Table.find?_erase, if_neg (AccountsDb.restricted_eq_false hfree r hr)]
    exact hw.trades r hr
  | strategyExists name => cases hq
  | getAccount id => cases hq
  | findActiveLive exchange excluding => cases hq
  | listOpenOrClosing id => cases hq

/-! ## What a step keeps -/

theorem AccountsDb.Stored.names {named : List Uuid} (h : w.Stored) (hn : w.named ⊆ named) :
    Stored { w with named } :=
  { h with named := fun a ha => hn (h.named a ha) }

theorem AccountSql.answers_keeps {q : AccountSql} {r : Except SqlxError q.Ok} {learned : List (Uuid × Option Exchange)}
    (h : q.answers w r w') (hw : w.Stored) (hl : w.Leveled levels) (hk : w.Knows learned)
    (hc : q.Checked levels learned) : w'.Stored ∧ w'.Leveled levels ∧ w.Follows w' := by
  rcases answers_cases h with ⟨⟨named, hn, rfl⟩, -⟩ | ⟨a, write, -, hwrite, hdid⟩
  · exact ⟨hw.names hn, hl, .of_eq hw rfl hn⟩
  · obtain ⟨hw', hl'⟩ := hdid.stored hwrite hw hl hk hc
    exact ⟨hw', hl', hdid.follows hw⟩

theorem AccountsMove.moves_keeps {m : AccountsMove} (h : m.moves w w') (hw : w.Stored) (hl : w.Leveled levels) :
    w'.Stored ∧ w'.Leveled levels ∧ w.Follows w' := by
  cases m with
  | trades rows =>
    obtain ⟨hrows, rfl⟩ := h
    exact ⟨{ hw with trades := hrows }, hl, .of_eq hw rfl (List.Subset.refl _)⟩
  | balance id currentBalance =>
    obtain ⟨a, ha, rfl⟩ := h
    have hmem : a ∈ w.accounts.rows := Table.find?_mem ha
    have hid : a.id = id := Table.find?_some_key (t := w.accounts) ha
    subst hid
    have hfind : ∀ id, (w.accounts.set { a with currentBalance }).find? id =
        if id = a.id then some { a with currentBalance } else w.accounts.find? id :=
      Table.find?_set (t := w.accounts) (v := { a with currentBalance }) (w := a) ha
    -- Each row is one that was there, but for its balance.
    have hrows : ∀ b ∈ (w.accounts.set { a with currentBalance }).rows,
        ∃ old ∈ w.accounts.rows, b = { old with currentBalance := b.currentBalance } := by
      intro b hb
      rcases Table.mem_set hb with rfl | ⟨hb, -⟩
      · exact ⟨a, hmem, rfl⟩
      · exact ⟨b, hb, rfl⟩
    refine ⟨⟨fun b hb c hc hbi hci heq => ?_, fun b hb => ?_, fun b hb hjpy => ?_, fun b hb => ?_, fun r hr => ?_,
      fun b hb => ?_⟩, fun b hb hactive => ?_, ?_⟩
    · obtain ⟨b', hb', hbeq⟩ := hrows b hb
      obtain ⟨c', hc', hceq⟩ := hrows c hc
      rw [hbeq] at hbi heq ⊢
      rw [hceq] at hci heq ⊢
      exact hw.oneLive b' hb' c' hc' hbi hci heq
    · obtain ⟨b', hb', hbeq⟩ := hrows b hb
      rw [hbeq]
      exact hw.leverage b' hb'
    · obtain ⟨b', hb', hbeq⟩ := hrows b hb
      rw [hbeq] at hjpy ⊢
      exact hw.balance b' hb' hjpy
    · obtain ⟨b', hb', hbeq⟩ := hrows b hb
      rw [hbeq]
      exact hw.strategy b' hb'
    · rw [hfind]
      split
      · rfl
      · exact hw.trades r hr
    · obtain ⟨b', hb', hbeq⟩ := hrows b hb
      rw [hbeq]
      exact hw.named b' hb'
    · obtain ⟨b', hb', hbeq⟩ := hrows b hb
      rw [hbeq] at hactive ⊢
      exact hl b' hb' hactive
    · refine .of_find? hw (List.Subset.refl _) fun id _ => ?_
      by_cases heq : id = a.id
      · subst heq
        refine .inr (.inl ⟨a, { a with currentBalance }, ha, by rw [hfind, if_pos rfl], rfl,
          fun hactive hinactive => ?_⟩)
        have hinactive : a.active = false := hinactive
        rw [hactive] at hinactive
        cases hinactive
      · exact .inl (by rw [hfind, if_neg heq])
  | refer id =>
    obtain ⟨-, rfl⟩ := h
    exact ⟨{ hw with }, hl, .of_eq hw rfl (List.Subset.refl _)⟩
  | strategy name =>
    obtain rfl := h
    exact ⟨{ hw with strategy := fun a ha => List.mem_cons_of_mem _ (hw.strategy a ha) }, hl,
      .of_eq hw rfl (List.Subset.refl _)⟩

/-- A lost answer is one of a statement that was executed, or of one that did nothing. -/
theorem respond_keeps {i : Nat} {q : AccountSql} {r : Except SqlxError q.Ok} {learned : List (Uuid × Option Exchange)}
    (h : accountsSys.respond i w q r w') (hw : w.Stored) (hl : w.Leveled levels) (hk : w.Knows learned)
    (hc : q.Checked levels learned) : w'.Stored ∧ w'.Leveled levels ∧ w.Follows w' := by
  rcases h with h | ⟨-, rfl | ⟨r', h⟩⟩
  · exact AccountSql.answers_keeps h hw hl hk hc
  · exact ⟨hw, hl, .of_eq hw rfl (List.Subset.refl _)⟩
  · exact AccountSql.answers_keeps h hw hl hk hc

end

/-! ## What a run keeps -/

namespace AccountRun

variable {levels : Exchange → Option Decimal} {w₀ : AccountsDb} {requests : Nat → AccountRequest}

/-- The rules hold, and every request knows only what holds. -/
structure Sound (levels : Exchange → Option Decimal) (h : AccountRun) : Prop where
  stored : h.world.Stored
  leveled : h.world.Leveled levels
  knows : ∀ i, h.world.Knows (h.phase levels i).learned

theorem Of.checked {h : AccountRun} (hv : h.Of levels w₀ requests) {i : Nat} {q : AccountSql}
    {r : Except SqlxError q.Ok} {c : Config AccountCalls AccountsDb (Except ApiError Reply)}
    (hs : Step accountsSys h.last (.call i q r) c) : q.Checked levels (h.phase levels i).learned := by
  have hallowed : (accountProtocol levels).allowed (h.phase levels i) q :=
    History.Valid.allowed ((requests i).meets levels) hv hs
  exact hallowed.2

/-- What one step keeps. -/
theorem Sound.step {h : AccountRun} (hsound : h.Sound levels) (hv : h.Of levels w₀ requests)
    {l : Label AccountCalls AccountsMove} {c : Config AccountCalls AccountsDb (Except ApiError Reply)}
    (hs : Step accountsSys h.last l c) : Sound levels (.step h l c) ∧ h.world.Follows c.world := by
  cases l with
  | move m =>
    obtain ⟨hw, hl, hf⟩ := AccountsMove.moves_keeps hs.1 hsound.stored hsound.leveled
    exact ⟨⟨hw, hl, fun i => (hsound.knows i).follows hf⟩, hf⟩
  | call i q r =>
    obtain ⟨hw, hl, hf⟩ := respond_keeps hs.1 hsound.stored hsound.leveled (hsound.knows i) (Of.checked hv hs)
    refine ⟨⟨hw, hl, fun j => ?_⟩, hf⟩
    by_cases hij : j = i
    · subst hij
      rw [phase, History.phases_call]
      cases r with
      | error e => exact (hsound.knows j).follows hf
      | ok a =>
        rcases hs.1 with hq | ⟨⟨text, htext⟩, -⟩
        · exact ((hsound.knows j).follows hf).answer hq
        · cases htext
    · rw [phase, History.phases_call_ne h q r c hij]
      exact (hsound.knows j).follows hf

theorem Of.sound {h : AccountRun} (hv : h.Of levels w₀ requests) (hw : w₀.Stored) (hl : w₀.Leveled levels) :
    h.Sound levels := by
  refine History.Valid.invariant (P := fun _ _ _ => True) (J := fun h : AccountRun => h.Sound levels) ?_
    (fun h l c hv _ ih hs _ => (ih.step hv hs).1) hv (.of_forall (fun _ _ _ => trivial) h)
  exact ⟨hw, hl, fun _ _ _ ho => absurd ho List.not_mem_nil⟩

end AccountRun

theorem leveled_of_startup {levels : Exchange → Option Decimal} {exchangeMargin : List (String × Decimal)}
    {w : AccountsDb}
    (h : resolveExchangeLiquidationLevels w.listActiveOrWithOpenTrades exchangeMargin = .ok levels) :
    w.Leveled levels := by
  refine fun a ha hactive => resolveExchangeLiquidationLevels_ok h a ?_
  refine List.mem_mergeSort.mpr (List.mem_filter.mpr ⟨ha, ?_⟩)
  rw [hactive, Bool.true_or]

/-- However the statements of requests interleave with each other and with the trading core, and whichever
answers are lost: an exchange has at most one active live account, a leverage is within the cap of its exchange,
a JPY account starts with a whole amount of at least 10000, the account of every trade is there, and every active
account has a liquidation level. No step deactivates an account with an unsettled trade. -/
theorem accounts_sound {levels : Exchange → Option Decimal} {exchangeMargin : List (String × Decimal)}
    {w₀ : AccountsDb} {requests : Nat → AccountRequest} {h : AccountRun}
    (hstart : resolveExchangeLiquidationLevels w₀.listActiveOrWithOpenTrades exchangeMargin = .ok levels)
    (hw : w₀.Stored) (hv : h.Of levels w₀ requests) :
    (h.Always fun c => c.world.Stored ∧ c.world.Leveled levels) ∧
      h.Steps fun before _ c => before.world.Follows c.world := by
  have hl := leveled_of_startup hstart
  induction h with
  | start c =>
    have hc : c = ⟨w₀, fun i => (requests i).prog levels⟩ := hv
    subst hc
    exact ⟨⟨hw, hl⟩, trivial⟩
  | step h l c ih =>
    obtain ⟨hv', hs⟩ := hv
    obtain ⟨halways, hsteps⟩ := ih hv'
    have hsound : AccountRun.Sound levels h := AccountRun.Of.sound hv' hw hl
    obtain ⟨hnext, hf⟩ := hsound.step hv' hs
    exact ⟨⟨halways, hnext.stored, hnext.leveled⟩, hsteps, hf⟩

/-- An active live account, and a catalog of one strategy. -/
def sampleAccounts : AccountsDb where
  accounts := ⟨[⟨⟨1, true, .gmoFx, "fx_new_v1", 30000, 30000, 10, 0, true⟩, "live", "JPY"⟩], by decide⟩
  trades := Table.empty
  strategies := ["fx_new_v1"]
  referenced := [1]
  named := [1]

/-- One request deactivates the account while another creates a live account on its exchange. -/
def sampleRequests (i : Nat) : AccountRequest :=
  if i = 0 then .update 1 ⟨none, none, none, some false⟩
  else .create ⟨"second", " GMO_FX", 50000, 10, "fx_new_v1", "live", "jpy"⟩

/-- Only `gmo_fx` has a level. -/
def sampleLevels : Exchange → Option Decimal := Function.update (fun _ => none) .gmoFx (some 1)

/-- The next statement of request `i`. -/
def serveInput (i : Nat) : Lib.Input AccountCalls AccountsDb AccountsMove :=
  .call i fun w q => q.serve 0 w

/-- The first request has deactivated the account when the other checks for one. -/
def sampleAccountRun : AccountRun :=
  Lib.play ⟨sampleAccounts, fun i => (sampleRequests i).prog sampleLevels⟩
    ([0, 0, 1, 0, 0, 1, 1, 1].map serveInput)

theorem sampleAccountRun_of : sampleAccountRun.Of sampleLevels sampleAccounts sampleRequests := by
  refine Lib.play_valid _ _ fun x hx => ?_
  obtain ⟨i, -, rfl⟩ := List.mem_map.mp hx
  exact fun w q r w' h => .inl (AccountSql.serve_answers h)

theorem sampleAccountRun_sound :
    (sampleAccountRun.Always fun c => c.world.Stored ∧ c.world.Leveled sampleLevels) ∧
      sampleAccountRun.Steps fun before _ c => before.world.Follows c.world := by
  refine @accounts_sound sampleLevels [("gmo_fx", 1)] sampleAccounts sampleRequests sampleAccountRun ?_ ?_
    sampleAccountRun_of
  · have hlist : sampleAccounts.listActiveOrWithOpenTrades = sampleAccounts.accounts.rows := List.mergeSort_singleton _
    rw [hlist]
    rfl
  · constructor <;> decide +kernel

/-! ## What the requests have done -/

/-- What a step of a request does to the accounts. -/
def Accounted (w : AccountsDb) : Label AccountCalls AccountsMove → AccountsDb → Prop
  | .call _ q r, w' =>
    match r with
    | .ok a =>
      match q.write a with
      | some write => write.Did w w'
      | none => w'.accounts = w.accounts
    | .error e => e.isLost = false → w'.accounts = w.accounts
  | .move _, _ => True

theorem accounted_of_step {c c' : Config AccountCalls AccountsDb (Except ApiError Reply)}
    {l : Label AccountCalls AccountsMove} (hs : Step accountsSys c l c') : Accounted c.world l c'.world := by
  cases l with
  | move m => trivial
  | call i q r =>
    rcases hs.1 with hq | ⟨⟨text, rfl⟩, -⟩
    · rcases AccountSql.answers_cases hq with ⟨⟨named, -, hw⟩, hread⟩ | ⟨a, write, rfl, hwrite, hdid⟩
      · have hsame : c'.world.accounts = c.world.accounts := by rw [hw]
        cases r with
        | ok a =>
          simp only [Accounted, hread a rfl]
          exact hsame
        | error e => exact fun _ => hsame
      · simp only [Accounted, hwrite]
        exact hdid
    · intro hlost
      cases hlost

/-- A request that has ended with success made exactly the write it answers with, and the row it answers with
is the row that was stored. One that has ended with an error wrote nothing, unless an answer was lost, and then
it is an internal error. -/
theorem requests_answered {levels : Exchange → Option Decimal} {w₀ : AccountsDb} {requests : Nat → AccountRequest}
    {h : AccountRun} (hv : h.Of levels w₀ requests) :
    (∀ i r, h.last.thread i = .done r → (requests i).Answered (h.phase levels i) r) ∧
      h.Steps fun before l c => Accounted before.world l c.world := by
  refine ⟨fun i r hdone => ?_, hv.steps.mono fun _ _ _ hs => accounted_of_step hs⟩
  have hmeets : Prog.Meets (accountProtocol levels) (h.phase levels i) (h.last.thread i) (requests i).Answered :=
    History.Valid.meets ((requests i).meets levels) hv
  rw [hdone] at hmeets
  exact hmeets

theorem sampleAccountRun_answered :
    ((∀ i r, sampleAccountRun.last.thread i = .done r →
        (sampleRequests i).Answered (AccountRun.phase sampleLevels sampleAccountRun i) r) ∧
      sampleAccountRun.Steps fun before l c => Accounted before.world l c.world) ∧
      sampleAccountRun.world.accounts.rows.map (fun a => (a.id, a.active)) = [(2, true), (1, false)] :=
  ⟨requests_answered sampleAccountRun_of, by decide +kernel⟩

end AutoTrader.Accounts
