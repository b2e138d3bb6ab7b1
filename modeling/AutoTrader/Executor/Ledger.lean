import AutoTrader.Executor.Costs
import AutoTrader.Executor.Play
import AutoTrader.Executor.Reads

/-!
# The ledger of an account

The balance of an account should be its initial balance plus the profits of its closed trades, minus the
fees of all its trades, minus the margins that are locked. `Db.drift` is by how much it is not, and
`drift_wrote` what every query does to it: the fees that a trade is opened or closed with are never taken
from the balance, and neither is what `add_fees` adds. So the balance of an account is kept in a run iff
nothing is charged that way (`ledger_kept_iff`).
-/

namespace AutoTrader

open Lib (Config History Label Step)
open Lib.Table (find?_set sum_set sum_insert sum_add sum_congr sum_filter sum_filterMap)

variable {ε : Type} {E : ExchangeModel ε} {actors : Nat → Actor} {w₀ : World ε}

/-! ## The ledger -/

/-- The profit or loss of a trade that is closed. -/
def TradeRow.realized (r : TradeRow) : Decimal := if r.status = .closed then r.pnlAmount.getD 0 else 0

/-- The margin of a trade that is open or closing. -/
def TradeRow.locked (r : TradeRow) : Decimal := if r.status = .closed then 0 else r.margin

/-- What a trade should have added to the balance of its account. -/
def TradeRow.worth (r : TradeRow) : Decimal := r.realized - r.fees - r.locked

namespace Db

/-- The sum over the trades of an account. -/
def total (db : Db) (id : Uuid) (g : TradeRow → Decimal) : Decimal :=
  db.trades.sum fun r => if r.accountId = id then g r else 0

/-- What the balance of an account should be. -/
def ledger (db : Db) (account : TradingAccount) : Decimal :=
  account.initialBalance + db.total account.id TradeRow.realized - db.total account.id (fun r => r.fees) -
    db.total account.id TradeRow.locked

/-- The balance of the account is its ledger. -/
def Balanced (db : Db) (id : Uuid) : Prop :=
  ∀ account ∈ db.accounts.find? id, account.currentBalance = db.ledger account

instance (db : Db) (id : Uuid) : Decidable (db.Balanced id) :=
  inferInstanceAs (Decidable (∀ account ∈ db.accounts.find? id, _))

/-- `recalculate_balance` sets no account to another balance than it has, where it can be run. -/
def RecalculationKeeps (db : Db) (id : Uuid) : Prop :=
  ∀ now newBalance db', (recalculateBalance id).run now db = .ok (newBalance, db') → ∀ account ∈ db.accounts.find? id,
    ∀ account' ∈ db'.accounts.find? id, account'.currentBalance = account.currentBalance

/-- What an account has gained since it was set up. -/
def gain (db : Db) (id : Uuid) : Decimal :=
  match db.accounts.find? id with
  | some account => account.currentBalance - account.initialBalance
  | none => 0

/-- By how much the balance of an account is more than it should be. -/
def drift (db : Db) (id : Uuid) : Decimal := db.gain id - db.total id TradeRow.worth

theorem total_worth (db : Db) (id : Uuid) :
    db.total id TradeRow.worth =
      db.total id TradeRow.realized - db.total id (fun r => r.fees) - db.total id TradeRow.locked := by
  have hsplit : db.total id TradeRow.realized =
      db.total id TradeRow.worth + (db.total id (fun r => r.fees) + db.total id TradeRow.locked) := by
    simp only [total]
    rw [← sum_add, ← sum_add]
    refine sum_congr fun r _ => ?_
    by_cases hr : r.accountId = id
    · simp only [hr, ↓reduceIte, TradeRow.worth]; ring
    · simp only [hr, ↓reduceIte, add_zero]
  rw [hsplit]; ring

theorem balanced_iff {db : Db} {id : Uuid} {account : TradingAccount} (ha : db.accounts.find? id = some account) :
    db.Balanced id ↔ db.drift id = 0 := by
  obtain rfl := Db.account_id ha
  simp only [Balanced, drift, gain, ha, Option.mem_def, Option.some.injEq, forall_eq', ledger, total_worth]
  constructor <;> intro h <;> linarith

end Db

/-- The trades of an account whose trades are all closed. -/
theorem total_closed {db : Db} {id : Uuid} (hclosed : ∀ r ∈ db.trades.rows, r.accountId = id → r.status = .closed)
    (g : TradeRow → Decimal) : db.total id g =
      ((db.trades.rows.filter fun r => r.accountId = id && r.status = .closed).map g).sum := by
  rw [sum_filter]
  refine sum_congr fun r hr => ?_
  by_cases hid : r.accountId = id
  · simp [hid, hclosed r hr hid]
  · simp [hid]

/-- A balance that is as it should be is what `recalculate_balance` computes: no margin is locked then. -/
theorem Db.Balanced.recalculation {db : Db} {id : Uuid} (hb : db.Balanced id) : db.RecalculationKeeps id := by
  intro now newBalance db' h account ha account' ha'
  obtain ⟨a, hfind, hclosed, rfl, rfl⟩ := recalculateBalance_ok h
  cases hfind.symm.trans ha
  have hbalance := hb account ha
  obtain rfl := Db.account_id hfind
  have hset := fun b => find?_set (v := { account with currentBalance := b }) hfind account.id
  simp only [Option.mem_def, hset, ↓reduceIte, Option.some.injEq] at ha'
  have mem_closed : ∀ r ∈ db.trades.rows.filter fun r => r.accountId = account.id && r.status = .closed,
      r.status = .closed := fun r hr => by
    have hp := (List.mem_filter.mp hr).2
    simp only [Bool.and_eq_true, decide_eq_true_eq] at hp
    exact hp.2
  have hlocked : db.total account.id TradeRow.locked = 0 := by
    rw [total_closed hclosed]
    refine List.sum_eq_zero fun x hx => ?_
    obtain ⟨r, hr, rfl⟩ := List.mem_map.mp hx
    simp [TradeRow.locked, mem_closed r hr]
  have hrealized : db.total account.id TradeRow.realized =
      ((db.trades.rows.filter fun r => r.accountId = account.id && r.status = .closed).map
        fun r => r.pnlAmount.getD 0).sum := by
    rw [total_closed hclosed]
    refine congrArg List.sum (List.map_congr_left fun r hr => ?_)
    simp [TradeRow.realized, mem_closed r hr]
  rw [hbalance, Db.ledger, hlocked, hrealized, total_closed hclosed, ← ha', sum_filterMap, sub_zero]

/-! ## What a query does to it -/

section

variable {now : DateTime} {db db' : Db} {id : Uuid}

theorem total_set {u v : TradeRow} (hu : db.trades.find? v.id = some u) (hterms : v.terms = u.terms)
    (ht : db'.trades = db.trades.set v) (g : TradeRow → Decimal) :
    db'.total id g = db.total id g + if u.accountId = id then g v - g u else 0 := by
  have haccount : v.accountId = u.accountId := Trade.accountId_eq hterms
  simp only [Db.total, ht]
  rw [sum_set _ hu, haccount]
  split <;> ring

theorem gain_set {a : TradingAccount} {accountId : Uuid} {b : Decimal} (ha : db.accounts.find? accountId = some a)
    (hacc : db'.accounts = db.accounts.set { a with currentBalance := b }) :
    db'.gain id = db.gain id + if accountId = id then b - a.currentBalance else 0 := by
  obtain rfl := Db.account_id ha
  have hset := find?_set (v := { a with currentBalance := b }) ha id
  simp only [Db.gain, hacc, hset]
  by_cases hid : a.id = id
  · subst hid
    simp only [↓reduceIte, ha]; ring
  · have hid' : ¬ id = a.id := fun h => hid h.symm
    simp only [hid, hid', ↓reduceIte, add_zero]

/-- A write to one row that leaves the balance alone. -/
theorem drift_set {u v : TradeRow} (hu : db.trades.find? v.id = some u) (hterms : v.terms = u.terms)
    (ht : db'.trades = db.trades.set v) (hacc : db'.accounts = db.accounts) :
    db'.drift id = db.drift id + if u.accountId = id then u.worth - v.worth else 0 := by
  have hgain : db'.gain id = db.gain id := by simp only [Db.gain, hacc]
  simp only [Db.drift, total_set hu hterms ht, hgain]
  split <;> ring

/-- A write to one row and to the balance of its account. -/
theorem drift_set_balance {u v : TradeRow} {a : TradingAccount} {b : Decimal}
    (hu : db.trades.find? v.id = some u) (hterms : v.terms = u.terms) (ht : db'.trades = db.trades.set v)
    (ha : db.accounts.find? u.accountId = some a)
    (hacc : db'.accounts = db.accounts.set { a with currentBalance := b }) :
    db'.drift id = db.drift id + if u.accountId = id then b - a.currentBalance - (v.worth - u.worth) else 0 := by
  simp only [Db.drift, total_set hu hterms ht, gain_set ha hacc]
  split <;> ring

/-- What a query charges a trade of the account without taking it from the balance. -/
def Query.unbooked (db : Db) (id : Uuid) : Query → Decimal
  | .persistOpenTrade accountId trade _ => if accountId = id then trade.fees else 0
  | .persistClosedTrade accountId closed _ _ _ _ _ =>
    match db.trades.find? closed.id with
    | some r => if accountId = id then closed.fees - r.fees else 0
    | none => 0
  | .addFees tradeId feeDelta =>
    match db.trades.find? tradeId with
    | some r => if r.accountId = id then feeDelta else 0
    | none => 0
  | _ => 0

theorem worth_settle {r : TradeRow} {price pnl fees : Decimal} {at' : DateTime} {reason : ExitReason}
    (hr : r.status ≠ .closed) :
    (r.settle price at' pnl reason fees).worth = r.worth + r.margin + pnl + r.fees - fees := by
  simp only [TradeRow.worth, TradeRow.realized, TradeRow.locked, TradeRow.settle, hr, ↓reduceIte, Option.getD_some]
  ring

theorem worth_charge (r : TradeRow) (fee : Decimal) : (r.charge fee).worth = r.worth - fee := by
  show r.realized - (r.fees + fee) - r.locked = r.realized - r.fees - r.locked - fee
  ring

theorem worth_startClosing {r : TradeRow} (hr : r.status ≠ .closed) (now : DateTime) :
    (r.startClosing now).worth = r.worth := by
  simp [TradeRow.worth, TradeRow.realized, TradeRow.locked, TradeRow.startClosing, hr, Trade.margin]

theorem worth_reopen {r : TradeRow} (hr : r.status = .closing) : r.reopen.worth = r.worth := by
  simp [TradeRow.worth, TradeRow.realized, TradeRow.locked, TradeRow.reopen, hr, Trade.margin]

/-- A query moves the balance of an account with the trades, up to what it leaves unbooked. -/
theorem drift_wrote {q : Query} {a : q.Ok} (hm : q.movesMargin db) (h : q.wrote now db a db') :
    db'.drift id = db.drift id + q.unbooked db id := by
  cases q with
  | getAccount _ | listActive =>
    have h : db' = db := h
    rw [h]; exact (add_zero _).symm
  | getOpenTradesByAccount _ | selectUnsettled _ => rw [h.1]; exact (add_zero _).symm
  | acquireCloseLock tradeId accountId =>
    rcases h with ⟨u, hu, hl, -, rfl⟩ | ⟨-, rfl⟩
    · obtain rfl := Db.trade_id hu
      have hopen : u.status ≠ .closed := fun hc => by simp [TradeRow.lockable, TradeRow.stale, hc] at hl
      refine Eq.trans (drift_set (v := u.startClosing now) hu rfl rfl rfl) ?_
      rw [worth_startClosing hopen, sub_self, ite_self]
      rfl
    · exact (add_zero _).symm
  | releaseCloseLock tradeId =>
    rcases h with ⟨u, hu, hs, rfl⟩ | ⟨-, rfl⟩
    · obtain rfl := Db.trade_id hu
      refine Eq.trans (drift_set (v := u.reopen) hu rfl rfl rfl) ?_
      rw [worth_reopen hs, sub_self, ite_self]
      rfl
    · exact (add_zero _).symm
  | addFees tradeId fee =>
    obtain ⟨u, hu, rfl⟩ := h
    obtain rfl := Db.trade_id hu
    refine Eq.trans (drift_set (v := u.charge fee) hu rfl rfl rfl) ?_
    rw [worth_charge, sub_sub_cancel]
    simp only [Query.unbooked, hu]
  | applyOvernightFee _ _ fee | applySfdFee _ _ fee _ | applySwapFee _ _ fee _ =>
    rcases h with rfl | ⟨u, a, k, at', hu, haccount, -, ha, -, rfl⟩
    · exact (add_zero _).symm
    · obtain rfl := Db.trade_id hu
      rw [← haccount] at ha
      refine Eq.trans (drift_set_balance (v := u.charge fee) hu rfl rfl ha rfl) ?_
      rw [worth_charge]
      simp only [Query.unbooked]
      split <;> ring
  | persistClosedTrade accountId closed margin pnl price at' reason =>
    obtain ⟨u, a, ns, hu, hs, ha, rfl⟩ := h
    obtain ⟨haccount, hmargin⟩ := hm u hu
    simp only [Query.unbooked, hu]
    rw [← Db.trade_id hu] at hu
    rw [← haccount] at ha ⊢
    refine Eq.trans (drift_set_balance (v := u.settle price at' pnl reason closed.fees) hu rfl rfl ha rfl) ?_
    rw [worth_settle hs, hmargin]
    split <;> ring
  | closeTradeReconciled tradeId accountId price at' pnl reason margin =>
    obtain ⟨u, a, hu, hs, ha, rfl⟩ := h
    obtain ⟨haccount, hmargin⟩ := hm u hu
    rw [← Db.trade_id hu] at hu
    rw [← haccount] at ha
    refine Eq.trans (drift_set_balance (v := u.settle price at' pnl reason u.fees) hu rfl rfl ha rfl) ?_
    rw [worth_settle hs, hmargin]
    simp only [Query.unbooked]
    split <;> ring
  | persistOpenTrade accountId trade margin =>
    obtain ⟨trades, a, ns, hi, -, ha, rfl⟩ := h
    obtain ⟨hopen, haccount, hmargin⟩ := hm
    have hne : trade.status ≠ .closed := by rw [hopen]; decide
    simp only [Db.drift, Db.total, Query.unbooked]
    rw [gain_set ha rfl, sum_insert _ hi, haccount]
    simp only [TradeRow.worth, TradeRow.realized, TradeRow.locked, hne, ↓reduceIte, hmargin]
    split <;> ring

theorem drift_setLeverage (accountId : Uuid) (leverage : Decimal) (db : Db) :
    (setLeverage accountId leverage db).drift id = db.drift id := by
  have hgain : (setLeverage accountId leverage db).gain id = db.gain id := by
    simp only [setLeverage]
    split
    · rename_i a ha
      obtain rfl := Db.account_id ha
      simp only [Db.gain, find?_set (v := { a with leverage }) ha id]
      by_cases hid : id = a.id
      · subst hid
        simp only [↓reduceIte, ha]
      · simp only [hid, ↓reduceIte]
    · rfl
  simp only [Db.drift, Db.total, hgain, setLeverage_trades]

/-- A query changes the balance of at most one account, and nothing else of any. -/
theorem accounts_wrote {q : Query} {a : q.Ok} (h : q.wrote now db a db') : db'.accounts = db.accounts ∨
    ∃ account b, db.accounts.find? account.id = some account ∧
      db'.accounts = db.accounts.set { account with currentBalance := b } := by
  have changed : ∀ {accountId account b}, db.accounts.find? accountId = some account →
      db'.accounts = db.accounts.set { account with currentBalance := b } → ∃ account b,
        db.accounts.find? account.id = some account ∧
          db'.accounts = db.accounts.set { account with currentBalance := b } := by
    intro accountId account b ha hb
    exact ⟨account, b, by rw [Db.account_id ha, ha], hb⟩
  cases q with
  | getAccount _ | listActive =>
    have h : db' = db := h
    exact .inl (by rw [h])
  | getOpenTradesByAccount _ | selectUnsettled _ => exact .inl (by rw [h.1])
  | acquireCloseLock _ _ => rcases h with ⟨u, -, -, -, rfl⟩ | ⟨-, rfl⟩ <;> exact .inl rfl
  | releaseCloseLock _ => rcases h with ⟨u, -, -, rfl⟩ | ⟨-, rfl⟩ <;> exact .inl rfl
  | addFees _ _ =>
    obtain ⟨u, -, rfl⟩ := h
    exact .inl rfl
  | applyOvernightFee _ _ _ | applySfdFee _ _ _ _ | applySwapFee _ _ _ _ =>
    rcases h with rfl | ⟨u, a, k, at', -, -, -, ha, -, rfl⟩
    · exact .inl rfl
    · exact .inr (changed ha rfl)
  | persistOpenTrade _ _ _ =>
    obtain ⟨trades, a, ns, -, -, ha, rfl⟩ := h
    exact .inr (changed ha rfl)
  | persistClosedTrade _ _ _ _ _ _ _ =>
    obtain ⟨u, a, ns, -, -, ha, rfl⟩ := h
    exact .inr (changed ha rfl)
  | closeTradeReconciled _ _ _ _ _ _ _ =>
    obtain ⟨u, a, -, -, ha, rfl⟩ := h
    exact .inr (changed ha rfl)

/-- Accounts stay. -/
theorem find?_account_wrote {q : Query} {a : q.Ok} (h : q.wrote now db a db')
    (hid : (db.accounts.find? id).isSome) : (db'.accounts.find? id).isSome := by
  rcases accounts_wrote h with h | ⟨account, b, ha, h⟩
  · rwa [h]
  · have hset := find?_set (v := { account with currentBalance := b }) ha id
    simp only [h, hset]
    split
    · rfl
    · exact hid

end

/-! ## Runs -/

/-- What a step charges a trade of the account without taking it from the balance. -/
def unbookedBy (db : Db) (id : Uuid) : Label Calls Move → Decimal
  | .call _ (.db q) (.ok _) => q.unbooked db id
  | _ => 0

/-- The costs of the account that a step books are in its balance already: the commission of an open, if
there is one, is not; of the commission and the SFD of a close only what the trade was charged since it
was read; and nothing that `add_fees` adds. -/
def BooksCosts (id : Uuid) (h : Run ε) (l : Label Calls Move) (_ : Config Calls (World ε) (Except Error Outcome)) :
    Prop :=
  match l with
  | .call i (.db (.persistOpenTrade accountId _ _)) (.ok _) => accountId = id → (h.costs i).commission = 0
  | .call i (.db (.persistClosedTrade accountId _ _ _ _ _ _)) (.ok _) => accountId = id →
    ∀ t ∈ (h.costs i).held, ∀ r ∈ h.world.db.trades.find? t.id,
      r.fees = t.fees + (h.costs i).commission + (h.costs i).sfd
  | .call _ (.db (.addFees tradeId feeDelta)) (.ok _) =>
    ∀ r ∈ h.world.db.trades.find? tradeId, r.accountId = id → feeDelta = 0
  | _ => True

instance (id : Uuid) (h : Run ε) (l : Label Calls Move) (c : Config Calls (World ε) (Except Error Outcome)) :
    Decidable (BooksCosts id h l c) := by
  induction l using Lib.Label.casesOn with
  | move m => exact instDecidableTrue
  | call i q r =>
    induction q using Call.casesOn with
    | db q =>
      induction q using Query.casesOn <;> induction r using Except.casesOn <;>
        dsimp only [BooksCosts] <;> infer_instance
    | _ => exact instDecidableTrue

namespace Run

variable {id : Uuid} {h : Run ε} {l : Label Calls Move} {c : Config Calls (World ε) (Except Error Outcome)}

theorem Of.drift_step (hv : h.Of E w₀ actors) (hs : Step (worldSys E) h.last l c) :
    c.world.db.drift id = h.world.db.drift id + unbookedBy h.world.db id l := by
  rcases Of.step_cases hv hs with ⟨i, q, a, rfl, hq, hw, -⟩ | ⟨i, q, e, rfl, -, hw⟩ | ⟨j, k, rfl, hw⟩ | ⟨hw, -, hq, -⟩
  · exact drift_wrote (hv.reads.moves hq) hw
  · rw [hw]; exact (add_zero _).symm
  · rw [hw]; exact (drift_setLeverage j k _).trans (add_zero _).symm
  · rw [hw]
    cases l with
    | move m => exact (add_zero _).symm
    | call i q r => cases q <;> first | exact hq.elim | exact (add_zero _).symm

/-- A step leaves nothing unbooked iff the costs it books are in the balance. -/
theorem Of.booksCosts_iff (hv : h.Of E w₀ actors) (hs : Step (worldSys E) h.last l c) :
    BooksCosts id h l c ↔ unbookedBy h.world.db id l = 0 := by
  rcases Of.step_cases hv hs with ⟨i, q, a, rfl, hq, hw, -⟩ | ⟨i, q, e, rfl, -, -⟩ | ⟨j, k, rfl, -⟩ | ⟨-, -, hq, -⟩
  · have hcosts := hv.costing hs
    cases q with
    | persistOpenTrade accountId trade margin =>
      have hcosts : trade.fees = (h.costs i).commission := hcosts
      simp only [BooksCosts, unbookedBy, Query.unbooked, hcosts, ite_eq_right_iff]
    | persistClosedTrade accountId closed _ _ _ _ _ =>
      obtain ⟨t, ht, hid, hfees⟩ := hcosts
      obtain ⟨r, -, -, hr, -⟩ := hw
      simp only [BooksCosts, unbookedBy, Query.unbooked, hr, ht, ← hid, Option.mem_def, Option.some.injEq, forall_eq',
        hfees, ite_eq_right_iff, sub_eq_zero]
      exact forall_congr' fun _ => eq_comm
    | addFees tradeId feeDelta =>
      obtain ⟨r, hr, -⟩ := hw
      simp only [BooksCosts, unbookedBy, Query.unbooked, hr, Option.mem_def, Option.some.injEq, forall_eq',
        ite_eq_right_iff]
    | _ => exact iff_of_true trivial rfl
  · exact iff_of_true (by cases q <;> trivial) rfl
  · exact iff_of_true trivial rfl
  · refine iff_of_true ?_ ?_ <;>
    · cases l with
      | move m => trivial
      | call i q r => cases q <;> first | exact hq.elim | trivial

/-- The account of a run stays. -/
theorem Of.account (h₀ : (w₀.db.accounts.find? id).isSome) (hv : h.Of E w₀ actors) :
    (h.world.db.accounts.find? id).isSome := by
  refine @Of.db_invariant _ E actors w₀ (fun db _ => (db.accounts.find? id).isSome) h₀
    (fun _ _ _ _ _ _ _ ha _ hw => find?_account_wrote hw ha) (fun _ _ _ _ _ ha _ => ha) (fun db _ j k ha => ?_) h hv
  simp only [setLeverage]
  split
  · rename_i a hj
    obtain rfl := Db.account_id hj
    have hset := find?_set (v := { a with leverage := k }) hj id
    simp only [hset]
    split
    · rfl
    · exact ha
  · exact ha

end Run

/-- The balance is as it should be, and `recalculate_balance` leaves it. -/
def Db.LedgerKept (db : Db) (id : Uuid) : Prop := db.Balanced id ∧ db.RecalculationKeeps id

theorem ledgerKept_iff {db : Db} {id : Uuid} (ha : (db.accounts.find? id).isSome) :
    db.LedgerKept id ↔ db.drift id = 0 := by
  obtain ⟨account, ha⟩ := Option.isSome_iff_exists.mp ha
  rw [← Db.balanced_iff ha]
  exact ⟨And.left, fun hb => ⟨hb, hb.recalculation⟩⟩

/-- In a run from an account without trades, the balance is what the ledger says in every state iff all
costs that are booked are in it already. -/
theorem ledger_kept_iff {id : Uuid} {account : TradingAccount} (ha : w₀.db.accounts.find? id = some account)
    (hbalance : account.currentBalance = account.initialBalance)
    (htrades : ∀ r ∈ w₀.db.trades.rows, r.accountId ≠ id) :
    ∀ {h : Run ε}, h.Of E w₀ actors → (h.Always (fun c => c.world.db.LedgerKept id) ↔ h.Steps (BooksCosts id))
  | .start c, hv => by
    have hc : c = begin w₀ actors := hv
    subst hc
    refine iff_of_true ((ledgerKept_iff (Option.isSome_iff_exists.mpr ⟨_, ha⟩)).mpr ?_) trivial
    have hnone : w₀.db.total id TradeRow.worth = 0 := by
      refine List.sum_eq_zero fun x hx => ?_
      obtain ⟨r, hr, rfl⟩ := List.mem_map.mp hx
      exact if_neg (htrades r hr)
    show w₀.db.drift id = 0
    simp only [Db.drift, Db.gain, ha, hbalance, hnone, sub_self]
  | .step h l c, hv => by
    have ih := ledger_kept_iff ha hbalance htrades hv.1
    have hsome : ∀ {h : Run ε}, h.Of E w₀ actors → (h.world.db.accounts.find? id).isSome :=
      Run.Of.account (Option.isSome_iff_exists.mpr ⟨_, ha⟩)
    refine ⟨fun hall => ⟨ih.mp hall.1, ?_⟩, fun hall => ⟨ih.mpr hall.1, ?_⟩⟩
    · have hold := (ledgerKept_iff (hsome hv.1)).mp (ih.mpr (ih.mp hall.1)).last
      have hnew := (ledgerKept_iff (hsome hv)).mp hall.2
      refine (Run.Of.booksCosts_iff hv.1 hv.2).mpr ?_
      have hstep : c.world.db.drift id = _ := Run.Of.drift_step hv.1 hv.2
      have hnew : c.world.db.drift id = 0 := hnew
      have hold : h.world.db.drift id = 0 := hold
      linarith
    · have hold := (ledgerKept_iff (hsome hv.1)).mp (ih.mpr hall.1).last
      refine (ledgerKept_iff (hsome hv)).mpr ?_
      have hstep : c.world.db.drift id = _ := Run.Of.drift_step hv.1 hv.2
      have hold : h.world.db.drift id = 0 := hold
      rw [(Run.Of.booksCosts_iff hv.1 hv.2).mp hall.2, hold] at hstep
      exact hstep.trans (add_zero 0)

/-- A live open whose executions come with a commission of 5. -/
def sampleCommission : Run Unit :=
  .play anyExchange ⟨sampleDb, (), 0⟩ (fun _ => .execute (sampleTrader false) sampleSignal)
    [.commit 0, .price 0 99 100, .clock 0, .reply 0 (.sent (.ok "order")), .passes 0 1,
      .reply 0 (.executions (.ok [⟨100, 50, 5⟩])), .clock 0, .reply 0 (.stopPlaced (.ok "stop")), .uuid 0 7, .commit 0]

/-- The commission is in the fees of the trade and not in the balance. -/
theorem sampleCommission_drifts : sampleCommission.Of anyExchange ⟨sampleDb, (), 0⟩
      (fun _ => .execute (sampleTrader false) sampleSignal) ∧
    sampleDb.accounts.find? 1 = some sampleAccount ∧ sampleAccount.currentBalance = sampleAccount.initialBalance ∧
    (∀ r ∈ sampleDb.trades.rows, r.accountId ≠ 1) ∧
    ¬ sampleCommission.Always (fun c => c.world.db.LedgerKept 1) := by
  refine ⟨Run.play_of _ _ _ _, rfl, rfl, by decide, fun hall => ?_⟩
  have hdrift : ¬ sampleCommission.world.db.Balanced 1 := by decide +kernel
  exact hdrift hall.last.1

/-- A dry-run trade that is opened, charged an overnight fee and closed. -/
def sampleLedger : Run Unit :=
  .play anyExchange ⟨sampleDb, (), 0⟩
    (fun i => if i = 0 then .execute (sampleTrader true) sampleSignal
      else if i = 1 then .applyOvernightFee 1 7 3 else .closePosition (sampleTrader true) 7 .tpHit)
    [.commit 0, .price 0 99 100, .clock 0, .price 0 99 100, .clock 0, .uuid 0 7, .commit 0,
      .commit 1, .commit 2, .price 2 110 111, .clock 2, .commit 2]

theorem sampleLedger_kept : sampleLedger.Always fun c => c.world.db.LedgerKept 1 :=
  (ledger_kept_iff rfl rfl (by decide) (Run.play_of _ _ _ _)).mpr (by decide +kernel)

end AutoTrader
