/-
What the server holds of one symbol. Two servers are `Alike` in a symbol when nothing they hold of it differs: its book,
the trades and the rows under its name, the owners of the orders in its book, and all that is not about any symbol. A
step on another symbol leads to a server alike in this one; a step taken on both of two alike servers leaves them alike.
-/
import OrderbookGC.Server.Durable
import OrderbookGC.Server.Ownership
import OrderbookGC.Machine.Unwinding

namespace OrderbookGC

open Container OrderBook MatchState

/-- Whether a write of this event succeeds does not depend on how many writes there were before. -/
def Env.Steady (env : Env) : Prop := ∀ m n, env.writeOk m = env.writeOk n

/-- The generator up to its reference price. -/
def Generator.unpriced (g : Generator) : Generator := { g with lastPrice := 0 }

namespace Server

/-- `last_price_` of a generator that is configured for the symbol. -/
def referencePrice (sv : Server) (symbol : String) : Option ℚ :=
  match sv.generator with
  | none => none
  | some g => if g.symbol = symbol then some g.lastPrice else none

/-- The rows of the order table under a symbol. -/
def symbolRows (symbol : String) (rows : List OrderRow) : List OrderRow := rows.filter (·.symbol = symbol)

/-- The trades of a symbol. -/
def symbolTrades (sv : Server) (symbol : String) : List (Trade ℚ) := sv.trades.filter (·.symbol = symbol)

/-- The reference price is compared when `Q` holds. -/
structure Alike (symbol : String) (Q : Prop) (sv sv' : Server) : Prop where
  config : sv'.config = sv.config
  book : sv'.orderbooks.find? symbol = sv.orderbooks.find? symbol
  clientId : ∀ s, sv'.clientId s = sv.clientId s
  connected : ∀ s, (sv'.sessionAt s).connected = (sv.sessionAt s).connected
  /-- Without logins every session is granted everything. -/
  granted : sv.config.authRequired = true → ∀ s, (sv'.sessionAt s).authenticated = (sv.sessionAt s).authenticated ∧
    (sv'.sessionAt s).permissions = (sv.sessionAt s).permissions
  firstSession : sv'.firstSession = sv.firstSession
  nextSession : sv'.nextSession = sv.nextSession
  sessions : sv'.sessions = sv.sessions
  owner : ∀ id, sv.InBook symbol id → sv'.orderOwners.find? id = sv.orderOwners.find? id
  generator : sv'.generator.map Generator.unpriced = sv.generator.map Generator.unpriced
  price : Q → sv'.referencePrice symbol = sv.referencePrice symbol
  posted : sv'.posted = sv.posted
  storeOpen : sv'.storeOpen = sv.storeOpen
  users : sv'.disk.users = sv.disk.users
  rows : symbolRows symbol sv'.disk.orders = symbolRows symbol sv.disk.orders
  trades : sv'.symbolTrades symbol = sv.symbolTrades symbol

variable {symbol : String} {Q : Prop} {env : Env} {sv sv' sv₁ sv₂ : Server}

theorem InBook.congr {id : String} (h : sv'.InBook symbol id)
    (hb : sv'.orderbooks.find? symbol = sv.orderbooks.find? symbol) : sv.InBook symbol id := by
  unfold InBook at h ⊢
  rw [hb] at h
  exact h

namespace Alike

theorem refl (sv : Server) : Alike symbol Q sv sv :=
  ⟨rfl, rfl, fun _ => rfl, fun _ => rfl, fun _ _ => ⟨rfl, rfl⟩, rfl, rfl, rfl, fun _ _ => rfl, rfl, fun _ => rfl, rfl, rfl,
    rfl, rfl, rfl⟩

theorem symm (h : Alike symbol Q sv sv') : Alike symbol Q sv' sv :=
  ⟨h.config.symm, h.book.symm, fun s => (h.clientId s).symm, fun s => (h.connected s).symm,
    fun ha s => ⟨(h.granted (h.config ▸ ha) s).1.symm, (h.granted (h.config ▸ ha) s).2.symm⟩, h.firstSession.symm,
    h.nextSession.symm, h.sessions.symm, fun id hin => (h.owner id (hin.congr h.book)).symm, h.generator.symm,
    fun hq => (h.price hq).symm, h.posted.symm, h.storeOpen.symm, h.users.symm, h.rows.symm, h.trades.symm⟩

theorem trans (h : Alike symbol Q sv sv₁) (h' : Alike symbol Q sv₁ sv₂) : Alike symbol Q sv sv₂ where
  config := h'.config.trans h.config
  book := h'.book.trans h.book
  clientId s := (h'.clientId s).trans (h.clientId s)
  connected s := (h'.connected s).trans (h.connected s)
  granted ha s := by
    obtain ⟨h1, h2⟩ := h.granted ha s
    obtain ⟨h3, h4⟩ := h'.granted (h.config ▸ ha) s
    exact ⟨h3.trans h1, h4.trans h2⟩
  firstSession := h'.firstSession.trans h.firstSession
  nextSession := h'.nextSession.trans h.nextSession
  sessions := h'.sessions.trans h.sessions
  owner id hin := (h'.owner id (hin.congr h.book.symm)).trans (h.owner id hin)
  generator := h'.generator.trans h.generator
  price hq := (h'.price hq).trans (h.price hq)
  posted := h'.posted.trans h.posted
  storeOpen := h'.storeOpen.trans h.storeOpen
  users := h'.users.trans h.users
  rows := h'.rows.trans h.rows
  trades := h'.trades.trans h.trades

theorem sendMessage (s : SessionPtr) (r : Response) : Alike symbol Q sv (sv.sendMessage s r) := { refl sv with }

theorem subscribe (s : SessionPtr) (name : String) : Alike symbol Q sv (sv.subscribe s name) := { refl sv with }

theorem logUuid (id : String) : Alike symbol Q sv (sv.logUuid id) := { refl sv with }

theorem broadcast (name : String) (r : Response) : Alike symbol Q sv (sv.broadcast name r) := by
  obtain ⟨l, heq, -⟩ := broadcast_eq sv name r
  rw [heq]
  exact { refl sv with }

end Alike

/-! ## The callbacks -/

/-- What a trade changes. -/
theorem onTradeExecuted_eq (env : Env) (sv : Server) (t : Trade ℚ) : ∃ disk writes sent, onTradeExecuted env sv t =
    { sv with generator := sv.generator.map (Generator.updateLastPrice · t.price), trades := sv.trades ++ [t], disk, writes, sent } ∧
    disk.orders = sv.disk.orders ∧ disk.users = sv.disk.users := by
  have hdisk := onTradeExecuted_disk env sv t
  have hsave : (onTradeExecuted env sv t).disk.orders = sv.disk.orders ∧ (onTradeExecuted env sv t).disk.users = sv.disk.users := by
    rw [hdisk]
    unfold Db.saveTrade
    split_ifs <;> exact ⟨rfl, rfl⟩
  refine ⟨_, (onTradeExecuted env sv t).writes, (onTradeExecuted env sv t).sent, ?_, hsave⟩
  unfold onTradeExecuted
  dsimp only
  generalize hsv : ({ sv with generator := sv.generator.map (Generator.updateLastPrice · t.price)
                              trades := sv.trades ++ [t] } : Server) = sv₁
  obtain ⟨l, hb, -⟩ := broadcast_eq (sv₁.write env (Db.saveTrade · t env.now)).2 t.symbol (.tradeNotification t)
  obtain ⟨disk, n, hw, -⟩ := write_eq sv₁ env (Db.saveTrade · t env.now)
  rw [hb, hw, ← hsv]

/-- What an announced order changes. -/
theorem onOrderUpdated_eq (env : Env) (sv : Server) (o : Order ℚ) : ∃ owners writes sent, onOrderUpdated env sv o =
    { sv with orderOwners := owners, writes, sent
              disk := if sv.storeOpen then (Db.updateOrder (env.writeOk sv.writes) o sv.disk).2 else sv.disk } ∧
    ∀ id, owners.find? id = if id = o.id ∧ o.Finished then none else sv.orderOwners.find? id := by
  have hdisk := onOrderUpdated_disk env sv o
  have hd : Dispatched env (fun _ => o) [.order 0] sv (onOrderUpdated env sv o) := .order 0
  refine ⟨(onOrderUpdated env sv o).orderOwners, (onOrderUpdated env sv o).writes, (onOrderUpdated env sv o).sent, ?_,
    fun id => ?_⟩
  · rw [← hdisk]
    unfold onOrderUpdated
    obtain ⟨disk, n, hw, -⟩ := write_eq sv env (Db.updateOrder · o)
    rw [hw]
    dsimp only
    cases sv.orderOwners.find? o.id with
    | none => rfl
    | some c =>
      dsimp only
      by_cases hc : c.isEmpty = true
      · rw [if_pos hc]
      · rw [if_neg hc]
        cases sv.sessions.find? c <;> rfl
  · by_cases hf : id = o.id ∧ o.Finished
    · rw [if_pos hf, hf.1]
      exact hd.erased 0 (List.mem_singleton.2 rfl) hf.2
    · rw [if_neg hf]
      exact hd.kept id fun _ _ hid hfin => hf ⟨hid.symm, hfin⟩

theorem symbolRows_update (symbol id : String) (o : Order ℚ) (rows : List OrderRow) :
    symbolRows symbol (rows.map fun r => if r.id = id then Db.OrderRow.update r o else r) =
      (symbolRows symbol rows).map fun r => if r.id = id then Db.OrderRow.update r o else r := by
  unfold symbolRows
  rw [List.filter_map]
  congr 1
  refine List.filter_congr fun r _ => ?_
  show decide ((if r.id = id then Db.OrderRow.update r o else r).symbol = symbol) = _
  split_ifs <;> rfl

theorem mem_symbolRows {symbol : String} {rows : List OrderRow} {r : OrderRow} :
    r ∈ symbolRows symbol rows ↔ r ∈ rows ∧ r.symbol = symbol := by
  unfold symbolRows
  rw [List.mem_filter, decide_eq_true_eq]

/-- What an update of an order of the symbol does to the symbol's rows. -/
theorem symbolRows_updateOrder (symbol : String) (ok : Bool) (o : Order ℚ) (db : Db) :
    symbolRows symbol (Db.updateOrder ok o db).2.orders = if ok then
      (symbolRows symbol db.orders).map fun r => if r.id = cStr o.id then Db.OrderRow.update r o else r
    else symbolRows symbol db.orders := by
  unfold Db.updateOrder
  cases ok with
  | true => exact symbolRows_update ..
  | false => rfl

theorem updateOrder_users (ok : Bool) (o : Order ℚ) (db : Db) : (Db.updateOrder ok o db).2.users = db.users := by
  unfold Db.updateOrder
  split_ifs <;> rfl

/-- The order is neither in the book of the symbol nor in one of its rows. -/
def Apart (symbol : String) (sv : Server) (id : String) : Prop :=
  ¬ sv.InBook symbol id ∧ ∀ r ∈ symbolRows symbol sv.disk.orders, r.id ≠ cStr id

theorem Apart.congr {id : String} (h : sv.Apart symbol id) (ha : Alike symbol Q sv sv') : sv'.Apart symbol id := by
  refine ⟨fun hin => h.1 (hin.congr ha.book), fun r hr => h.2 r ?_⟩
  rw [← ha.rows]
  exact hr

theorem map_unpriced_update (g : Option Generator) (price : ℚ) :
    (g.map (Generator.updateLastPrice · price)).map Generator.unpriced = g.map Generator.unpriced := by
  cases g <;> rfl

/-- After a trade the reference price is the trade's. -/
theorem referencePrice_trade (sv : Server) (symbol : String) (price : ℚ) :
    referencePrice { sv with generator := sv.generator.map (Generator.updateLastPrice · price) } symbol =
      (sv.generator.map Generator.unpriced).bind fun g => if g.symbol = symbol then some price else none := by
  unfold referencePrice
  cases sv.generator <;> rfl

namespace Alike

/-! ### Callbacks about another symbol -/

/-- A trade of another symbol. It is the one thing that moves the reference price. -/
theorem trade {t : Trade ℚ} (ht : t.symbol ≠ symbol) (hQ : ¬ Q) : Alike symbol Q sv (onTradeExecuted env sv t) := by
  obtain ⟨disk, writes, sent, heq, ho, hu⟩ := onTradeExecuted_eq env sv t
  rw [heq]
  refine { refl (Q := Q) sv with
    generator := map_unpriced_update ..
    price := fun hq => absurd hq hQ
    users := hu
    rows := congrArg (symbolRows symbol) ho
    trades := ?_ }
  unfold symbolTrades
  rw [List.filter_append, List.filter_singleton]
  simp [ht]

theorem update {o : Order ℚ} (h : sv.Apart symbol o.id) : Alike symbol Q sv (onOrderUpdated env sv o) := by
  obtain ⟨owners, writes, sent, heq, hown⟩ := onOrderUpdated_eq env sv o
  rw [heq]
  refine { refl sv with owner := fun id hin => ?_, users := ?_, rows := ?_ }
  · show owners.find? id = _
    rw [hown, if_neg]
    rintro ⟨rfl, -⟩
    exact h.1 hin
  · show Db.users (if _ then _ else _) = _
    split_ifs
    · exact updateOrder_users ..
    · rfl
  · show symbolRows symbol (Db.orders (if _ then _ else _)) = _
    split_ifs
    · rw [symbolRows_updateOrder]
      split_ifs
      · refine (List.map_congr_left fun r hr => if_neg (h.2 r hr)).trans (List.map_id _)
      · rfl
    · rfl

/-- The callbacks of a call on another book. -/
theorem dispatch {heap : OrderPtr → Order ℚ} : ∀ {cbs : List (Callback ℚ)} {sv : Server},
    (∀ t, .trade t ∈ cbs → t.symbol ≠ symbol ∧ ¬ Q) → (∀ p, .order p ∈ cbs → sv.Apart symbol (heap p).id) →
    Alike symbol Q sv (dispatch env heap cbs sv)
  | [], sv, _, _ => refl sv
  | .trade t :: cbs, sv, ht, ho => by
    obtain ⟨h1, h2⟩ := ht t List.mem_cons_self
    have h : Alike symbol Q sv (onTradeExecuted env sv t) := .trade h1 h2
    exact h.trans (dispatch (fun t' ht' => ht t' (List.mem_cons_of_mem _ ht')) fun p hp =>
      (ho p (List.mem_cons_of_mem _ hp)).congr h)
  | .order p :: cbs, sv, ht, ho => by
    have h : Alike symbol Q sv (onOrderUpdated env sv (heap p)) := .update (ho p List.mem_cons_self)
    exact h.trans (dispatch (fun t' ht' => ht t' (List.mem_cons_of_mem _ ht')) fun p hp =>
      (ho p (List.mem_cons_of_mem _ hp)).congr h)

theorem setBook_other {name : String} (hn : name ≠ symbol) (b : OrderBook ℚ) : Alike symbol Q sv (sv.setBook name b) :=
  { refl sv with book := by rw [setBook_find?, if_neg hn.symm] }

/-! ### The same callbacks on both sides -/

theorem trade_both (h : Alike symbol Q sv sv') (t : Trade ℚ) :
    Alike symbol Q (onTradeExecuted env sv t) (onTradeExecuted env sv' t) := by
  obtain ⟨disk, writes, sent, heq, ho, hu⟩ := onTradeExecuted_eq env sv t
  obtain ⟨disk', writes', sent', heq', ho', hu'⟩ := onTradeExecuted_eq env sv' t
  rw [heq, heq']
  refine { h with
    generator := ?_, price := fun _ => ?_, users := hu'.trans (h.users.trans hu.symm), rows := ?_, trades := ?_ }
  · exact (map_unpriced_update ..).trans (h.generator.trans (map_unpriced_update ..).symm)
  · have hp := referencePrice_trade sv symbol t.price
    rw [← h.generator] at hp
    exact (referencePrice_trade sv' symbol t.price).trans hp.symm
  · show symbolRows symbol disk'.orders = symbolRows symbol disk.orders
    rw [ho, ho', h.rows]
  · have ht := h.trades
    unfold symbolTrades at ht ⊢
    rw [List.filter_append, List.filter_append, ht]

theorem update_both (hst : env.Steady) (h : Alike symbol Q sv sv') (o : Order ℚ) :
    Alike symbol Q (onOrderUpdated env sv o) (onOrderUpdated env sv' o) := by
  obtain ⟨owners, writes, sent, heq, hown⟩ := onOrderUpdated_eq env sv o
  obtain ⟨owners', writes', sent', heq', hown'⟩ := onOrderUpdated_eq env sv' o
  rw [heq, heq', h.storeOpen, hst sv'.writes sv.writes]
  refine { h with storeOpen := rfl, owner := fun id hin => ?_, users := ?_, rows := ?_ }
  · show owners'.find? id = owners.find? id
    rw [hown, hown', h.owner id hin]
  · show Db.users (if _ then _ else _) = Db.users (if _ then _ else _)
    split_ifs
    · rw [updateOrder_users, updateOrder_users, h.users]
    · exact h.users
  · show symbolRows symbol (Db.orders (if _ then _ else _)) = symbolRows symbol (Db.orders (if _ then _ else _))
    split_ifs
    · rw [symbolRows_updateOrder, symbolRows_updateOrder, h.rows]
    · exact h.rows

theorem dispatch_both (hst : env.Steady) {heap : OrderPtr → Order ℚ} : ∀ {cbs : List (Callback ℚ)} {sv sv' : Server},
    Alike symbol Q sv sv' → Alike symbol Q (Server.dispatch env heap cbs sv) (Server.dispatch env heap cbs sv')
  | [], _, _, h => h
  | .trade t :: cbs, sv, sv', h => by
    show Alike symbol Q (Server.dispatch env heap cbs (onTradeExecuted env sv t))
      (Server.dispatch env heap cbs (onTradeExecuted env sv' t))
    exact dispatch_both hst (h.trade_both t)
  | .order p :: cbs, sv, sv', h => by
    show Alike symbol Q (Server.dispatch env heap cbs (onOrderUpdated env sv (heap p)))
      (Server.dispatch env heap cbs (onOrderUpdated env sv' (heap p)))
    exact dispatch_both hst (h.update_both hst (heap p))

/-- The symbol's book is replaced by one whose orders have the same owners on both sides. -/
theorem setBook_both (h : Alike symbol Q sv sv') {b : OrderBook ℚ} (hown : ∀ id p, b.getOrder id = some p →
      sv.InBook symbol id ∨ sv'.orderOwners.find? id = sv.orderOwners.find? id) :
    Alike symbol Q (sv.setBook symbol b) (sv'.setBook symbol b) := by
  refine { h with book := ?_, owner := fun id hin => ?_ }
  · rw [setBook_find?, setBook_find?, if_pos rfl, if_pos rfl]
  · obtain ⟨x, p, hx, hp⟩ := hin
    rw [setBook_find?, if_pos rfl] at hx
    cases hx
    exact (hown id p hp).elim (h.owner id) fun heq => heq

end Alike

/-! ## Calls of the books -/

/-- A call of another book: its own order and the orders in that book are apart from the symbol. -/
theorem Alike.added {o : Order ℚ} {b : OrderBook ℚ} {out : AddOutcome ℚ} (hS : Sound sv) (ha : Added env o b out sv sv')
    (hn : o.symbol ≠ symbol) (hQ : Q → ∀ t ∈ sv'.trades, t.symbol = symbol)
    (hap : ∀ id, id = o.id ∨ sv.InBook o.symbol id → sv.Apart symbol id) : Alike symbol Q sv sv' := by
  have hbook : Alike symbol Q sv (sv.setBook o.symbol out.state.toOrderBook) := .setBook_other hn _
  refine hbook.trans ?_
  have htrades := ha.trades
  rw [ha.returned] at htrades hQ ⊢
  refine .dispatch (fun t ht => ?_) fun p hp => ?_
  · have hsym : t.symbol = o.symbol := (ha.call.trades t ht).1.trans (show b.symbol = _ from hS.symbol ha.book)
    refine ⟨fun h => hn (hsym.symm.trans h), fun hq => hn (hsym.symm.trans (hQ hq t ?_))⟩
    rw [htrades]
    exact List.mem_append_right _ (List.mem_filterMap.2 ⟨_, ht, rfl⟩)
  · refine (hap _ ?_).congr hbook
    rw [(ha.call.static p).id]
    by_cases hpo : p = b.nextPtr
    · rw [hpo, alloc_heap_self]
      exact .inl rfl
    · have hheld : b.Held p := (ha.call.announced p hp).resolve_right hpo
      rw [alloc_heap_of_ne hpo]
      exact .inr ⟨b, p, ha.book, ha.inv.index.2 ⟨rfl, .inl hheld⟩⟩

theorem Alike.cancelled {name id : String} {b b' : OrderBook ℚ} {p : OrderPtr} (hc : Cancelled env name id b p b' sv sv')
    (hn : name ≠ symbol) (hap : sv.Apart symbol id) : Alike symbol Q sv sv' := by
  have hbook : Alike symbol Q sv (sv.setBook name b') := .setBook_other hn _
  rw [hc.result]
  refine hbook.trans (.update ((?_ : sv.Apart symbol _).congr hbook))
  rw [(hc.cancel.static p).id, hc.cancel.id]
  exact hap

/-- The same order added to the symbol's book on both sides, where it has no owner yet. -/
theorem Alike.added_both (hst : env.Steady) (h : Alike symbol Q sv sv') {o : Order ℚ} {b b' : OrderBook ℚ}
    {out out' : AddOutcome ℚ} (ha : Added env o b out sv sv₁) (ha' : Added env o b' out' sv' sv₂) (ho : o.symbol = symbol)
    (hown : sv.orderOwners.find? o.id = none) (hown' : sv'.orderOwners.find? o.id = none) :
    b' = b ∧ out' = out ∧ Alike symbol Q sv₁ sv₂ := by
  have hb : b' = b := by
    have hb := ha'.book
    rw [ho, h.book, ← ho, ha.book] at hb
    exact (Option.some.inj hb).symm
  subst hb
  have hout : out' = out := Option.some.inj (ha'.result.symm.trans ha.result)
  subst hout
  refine ⟨rfl, rfl, ?_⟩
  rw [ha.returned, ha'.returned, ho]
  refine (h.setBook_both fun id p hp => ?_).dispatch_both hst
  rcases ha.call.index ha.invAlloc hp with hold | ⟨-, hid, -⟩
  · exact .inl ⟨b', p, ho ▸ ha.book, hold⟩
  · rw [alloc_heap_self] at hid
    exact .inr (by rw [← hid, hown, hown'])

/-- A cancel on the symbol's book on both sides. -/
theorem Alike.cancelOrder_both (hst : env.Steady) (h : Alike symbol Q sv sv') (hS : Sound sv) {b : OrderBook ℚ}
    (hb : sv.orderbooks.find? symbol = some b) (id : String) :
    (sv'.cancelOrder env symbol b id).1 = (sv.cancelOrder env symbol b id).1 ∧
      Alike symbol Q (sv.cancelOrder env symbol b id).2 (sv'.cancelOrder env symbol b id).2 := by
  have hcall : ∀ sv : Server, sv.cancelOrder env symbol b id = ((b.cancelOrder id).1, Server.dispatch env
      (b.cancelOrder id).2.1.heap (b.cancelOrder id).2.2 (sv.setBook symbol (b.cancelOrder id).2.1)) := fun _ => rfl
  rw [hcall, hcall]
  refine ⟨rfl, (h.setBook_both fun i p hp => .inl ?_).dispatch_both hst⟩
  cases hx : b.ordersById.find? id with
  | none =>
    rw [cancelOrder_none hx] at hp
    exact ⟨b, p, hb, hp⟩
  | some q =>
    obtain ⟨b', hb', he⟩ := cancelOrder_effect (hS.books hb).toBookInv hx
    rw [hb'] at hp
    have hp : b'.ordersById.find? i = some p := hp
    rw [he.index, SortedMap.find?_erase] at hp
    split_ifs at hp
    exact ⟨b, p, hb, hp⟩

end Server

end OrderbookGC
