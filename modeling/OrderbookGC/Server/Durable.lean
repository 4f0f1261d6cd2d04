/-
The order table against the trade table. A trade is stored by one callback and the rows of its two orders by others, a
restored order starts from what its row had left, and several fills of one call leave one row: still, what a row has
lost since it was inserted is what the rows of the trades name it with (`run_durable`).
-/
import OrderbookGC.Server.Resurrection
import OrderbookGC.Book.Progress

namespace OrderbookGC

open Container OrderBook MatchState

/-! ## The trade table -/

def TradeRow.Names (t : TradeRow) (id : String) : Prop := t.buyOrderId = id ∨ t.sellOrderId = id

instance (t : TradeRow) (id : String) : Decidable (t.Names id) := inferInstanceAs (Decidable (_ ∨ _))

/-- The row `saveTrade` writes. -/
def Db.tradeRow (t : Trade ℚ) (now : Int) : TradeRow :=
  { buyOrderId := cStr t.buyOrderId, sellOrderId := cStr t.sellOrderId, symbol := cStr t.symbol, price := t.price
    quantity := bindInt t.quantity, tradedAt := nowIso now }

/-- What the rows name an order with, read back. -/
def tradedRows (id : String) (rows : List TradeRow) : Nat :=
  ((rows.filter (·.Names id)).map (columnInt ·.quantity |>.toNat)).sum

theorem tradedRows_append (id : String) (l l' : List TradeRow) :
    tradedRows id (l ++ l') = tradedRows id l + tradedRows id l' := by
  simp [tradedRows]

/-- The rows of trades between drawn ids say what the trades say. -/
theorem tradedRows_map {id : String} {now : Int} {ts : List (Trade ℚ)}
    (h : ∀ t ∈ ts, cStr t.buyOrderId = t.buyOrderId ∧ cStr t.sellOrderId = t.sellOrderId) :
    tradedRows id (ts.map (Db.tradeRow · now)) = traded id ts := by
  unfold tradedRows traded
  rw [List.filter_map, List.map_map]
  have hf : ts.filter ((fun r => decide (r.Names id)) ∘ (Db.tradeRow · now)) = ts.filter fun t => decide (t.Names id) := by
    refine List.filter_congr fun t ht => ?_
    obtain ⟨h1, h2⟩ := h t ht
    refine decide_eq_decide.2 ?_
    show cStr t.buyOrderId = id ∨ cStr t.sellOrderId = id ↔ t.Names id
    rw [h1, h2]
    rfl
  rw [hf]
  refine congrArg List.sum (List.map_congr_left fun t _ => ?_)
  unfold Db.tradeRow
  simp

theorem tradedRows_eq_zero {id : String} {rows : List TradeRow} (h : ∀ t ∈ rows, ¬ t.Names id) : tradedRows id rows = 0 := by
  unfold tradedRows
  rw [List.filter_eq_nil_iff.2 fun t ht => by simpa using h t ht]
  rfl

namespace Server

/-! ## What one call stores -/

theorem write_disk (sv : Server) (env : Env) (stmt : Bool → Db → Bool × Db) :
    (sv.write env stmt).2.disk = if sv.storeOpen then (stmt (env.writeOk sv.writes) sv.disk).2 else sv.disk := by
  unfold write
  split_ifs <;> rfl

theorem onTradeExecuted_disk (env : Env) (sv : Server) (t : Trade ℚ) : (onTradeExecuted env sv t).disk =
    if sv.storeOpen then (Db.saveTrade (env.writeOk sv.writes) t env.now sv.disk).2 else sv.disk := by
  unfold onTradeExecuted
  dsimp only
  generalize hsv : ({ sv with generator := sv.generator.map (Generator.updateLastPrice · t.price)
                              trades := sv.trades ++ [t] } : Server) = sv₁
  obtain ⟨l, hb, -⟩ := broadcast_eq (sv₁.write env (Db.saveTrade · t env.now)).2 t.symbol (.tradeNotification t)
  rw [hb]
  dsimp only
  rw [write_disk, ← hsv]

theorem onOrderUpdated_disk (env : Env) (sv : Server) (o : Order ℚ) : (onOrderUpdated env sv o).disk =
    if sv.storeOpen then (Db.updateOrder (env.writeOk sv.writes) o sv.disk).2 else sv.disk := by
  rw [← write_disk sv env (Db.updateOrder · o)]
  unfold onOrderUpdated
  dsimp only
  generalize (sv.write env (Db.updateOrder · o)).2 = sv₁
  cases sv₁.orderOwners.find? o.id with
  | none => rfl
  | some c =>
    dsimp only
    by_cases hc : c.isEmpty = true
    · rw [if_pos hc]
    · rw [if_neg hc]
      cases sv₁.sessions.find? c <;> rfl

/-- Nothing is stored while the store is closed. -/
theorem dispatch_closed (env : Env) (heap : OrderPtr → Order ℚ) : ∀ (cbs : List (Callback ℚ)) (sv : Server),
    sv.storeOpen = false → (dispatch env heap cbs sv).disk = sv.disk
  | [], _, _ => rfl
  | .trade t :: cbs, sv, ho => by
    have hd : Dispatched env heap [.trade t] sv (onTradeExecuted env sv t) := .trade t
    refine (dispatch_closed env heap cbs _ (hd.storeOpen.trans ho)).trans ?_
    rw [onTradeExecuted_disk, if_neg (by simp [ho])]
  | .order p :: cbs, sv, ho => by
    have hd : Dispatched env heap [.order p] sv (onOrderUpdated env sv (heap p)) := .order p
    refine (dispatch_closed env heap cbs _ (hd.storeOpen.trans ho)).trans ?_
    rw [onOrderUpdated_disk, if_neg (by simp [ho])]

/-- When the writes succeed, the reported trades are stored in their order. -/
theorem dispatch_tradeRows (env : Env) (hw : ∀ n, env.writeOk n = true) (heap : OrderPtr → Order ℚ) :
    ∀ (cbs : List (Callback ℚ)) (sv : Server), sv.storeOpen = true →
      (dispatch env heap cbs sv).disk.trades = sv.disk.trades ++ (tradesIn cbs).map (Db.tradeRow · env.now)
  | [], _, _ => (List.append_nil _).symm
  | .trade t :: cbs, sv, ho => by
    have hd : Dispatched env heap [.trade t] sv (onTradeExecuted env sv t) := .trade t
    refine (dispatch_tradeRows env hw heap cbs _ (hd.storeOpen.trans ho)).trans ?_
    rw [onTradeExecuted_disk, if_pos ho, hw]
    exact List.append_assoc ..
  | .order p :: cbs, sv, ho => by
    have hd : Dispatched env heap [.order p] sv (onOrderUpdated env sv (heap p)) := .order p
    refine (dispatch_tradeRows env hw heap cbs _ (hd.storeOpen.trans ho)).trans ?_
    rw [onOrderUpdated_disk, if_pos ho, hw]
    rfl

theorem saveSubmission_tradeRows (sv : Server) (env : Env) (x : Submission) (o : Order ℚ) :
    (sv.saveSubmission env x o).disk.trades = sv.disk.trades := by
  unfold saveSubmission
  dsimp only
  rw [write_disk]
  unfold Db.saveOrder
  split_ifs <;> rfl

/-- A row after a call is as it was, and then of no announced order, or rewritten from one. -/
theorem Dispatched.row_cases {env : Env} {heap : OrderPtr → Order ℚ} {cbs : List (Callback ℚ)} {sv sv' : Server}
    (hd : Dispatched env heap cbs sv sv') (ho : sv.storeOpen = true) (hw : ∀ n, env.writeOk n = true) {r : OrderRow}
    (hr : r ∈ sv'.disk.orders) : ∃ r₀ ∈ sv.disk.orders, r.id = r₀.id ∧
      ((r = r₀ ∧ ∀ p, .order p ∈ cbs → r₀.id ≠ cStr (heap p).id) ∨
        ∃ p, .order p ∈ cbs ∧ r₀.id = cStr (heap p).id ∧ r = Db.OrderRow.update r₀ (heap p)) := by
  obtain ⟨f, hf, hf', hfok⟩ := hd.rows
  rw [hf] at hr
  obtain ⟨r₀, hr₀, rfl⟩ := List.mem_map.1 hr
  refine ⟨r₀, hr₀, ?_, ?_⟩
  · rcases hf' r₀ with heq | ⟨_, -, -, heq⟩ <;> rw [heq]
    rfl
  · by_cases hex : ∃ p, .order p ∈ cbs ∧ r₀.id = cStr (heap p).id
    · obtain ⟨p, hp, hid⟩ := hex
      exact .inr (hfok ho hw r₀ p hp hid)
    · refine .inl ⟨(hf' r₀).resolve_right fun ⟨p, hp, hid, _⟩ => hex ⟨p, hp, hid⟩, fun p hp hid => hex ⟨p, hp, hid⟩⟩

section Added

variable {env : Env} {sv sv' : Server} {o : Order ℚ} {b : OrderBook ℚ} {out : AddOutcome ℚ}

theorem Added.tradeRows (ha : Added env o b out sv sv') (ho : sv.storeOpen = true) (hw : ∀ n, env.writeOk n = true) :
    sv'.disk.trades = sv.disk.trades ++ (tradesIn out.callbacks).map (Db.tradeRow · env.now) := by
  rw [ha.returned]
  exact dispatch_tradeRows env hw out.state.heap out.callbacks (sv.setBook o.symbol out.state.toOrderBook) ho

theorem Added.trades (ha : Added env o b out sv sv') : sv'.trades = sv.trades ++ tradesIn out.callbacks := by
  refine ha.dispatched.trades.trans (congrArg (sv.trades ++ ·) (List.filterMap_congr fun c _ => ?_))
  cases c <;> rfl

/-- The trades of a call are between orders with drawn ids. -/
theorem Added.trade_known (ha : Added env o b out sv sv') (hI : IdInv sv) (hk : o.id ∈ sv.uuids) {t : Trade ℚ}
    (ht : t ∈ tradesIn out.callbacks) : t.buyOrderId ∈ sv.uuids ∧ t.sellOrderId ∈ sv.uuids := by
  obtain ⟨-, ⟨p, hp⟩, ⟨q, hq⟩⟩ := ha.call.trades t (mem_tradesIn.1 ht)
  exact ⟨hp.id ▸ hI.known ha hk hp.known, hq.id ▸ hI.known ha hk hq.known⟩

end Added

/-! ## The invariant -/

/-- The tables of a database at rest: every row balances, and the trades are between drawn ids. -/
structure Balanced (sv : Server) : Prop where
  balance : ∀ r ∈ sv.disk.orders,
    (columnInt r.remainingQuantity).toNat + tradedRows r.id sv.disk.trades = (columnInt r.quantity).toNat
  drawn : ∀ t ∈ sv.disk.trades, t.buyOrderId ∈ sv.uuids ∧ t.sellOrderId ∈ sv.uuids

/-- While the store is open, the rows of live orders have left what the orders have. -/
structure DurableInv (sv : Server) : Prop extends Balanced sv where
  live : sv.storeOpen = true → ∀ r ∈ sv.disk.orders, ∀ {symbol b p}, sv.orderbooks.find? symbol = some b →
    b.getOrder r.id = some p → columnInt r.remainingQuantity = (b.heap p).remainingQuantity

theorem Balanced.of_eq {sv sv' : Server} (h : Balanced sv) (hd : sv'.disk.orders = sv.disk.orders)
    (ht : sv'.disk.trades = sv.disk.trades) (hu : sv.uuids ⊆ sv'.uuids) : Balanced sv' := by
  refine ⟨fun r hr => ?_, fun t htr => ?_⟩
  · rw [ht]
    exact h.balance r (hd ▸ hr)
  · rw [ht] at htr
    exact (h.drawn t htr).imp (fun h => hu h) fun h => hu h

/-- A new process finds the tables as they were, and has no order yet. -/
theorem Balanced.booted {env : Env} {sv sv' : Server} (h : Balanced sv) (hb : Booted env sv sv') : DurableInv sv' :=
  ⟨h.of_eq hb.orders hb.tradeRows (hb.uuids ▸ List.Subset.refl _),
    fun _ r _ => fun {_ _ _} hx hp => absurd ⟨_, _, _, hx, hp⟩ (hb.not_live r.id)⟩

namespace DurableInv

variable {env : Env} {sv sv' : Server}

theorem initial (config : Config) : DurableInv (initial config) := ⟨⟨nofun, nofun⟩, nofun⟩

/-- A step that stores no order and no trade, and touches no order. -/
theorem step (h : DurableInv sv) (hd : sv'.disk.orders = sv.disk.orders) (ht : sv'.disk.trades = sv.disk.trades)
    (hu : sv.uuids ⊆ sv'.uuids)
    (hb : sv'.storeOpen = true → ∀ {symbol b id p}, sv'.orderbooks.find? symbol = some b → b.getOrder id = some p →
      sv.storeOpen = true ∧ ∃ y, sv.orderbooks.find? symbol = some y ∧ y.getOrder id = some p ∧ y.heap p = b.heap p) :
    DurableInv sv' := by
  refine ⟨h.toBalanced.of_eq hd ht hu, fun ho r hr => fun {symbol b p} hx hp => ?_⟩
  obtain ⟨ho, y, hy, hyp, heap⟩ := hb ho hx hp
  rw [← heap]
  exact h.live ho r (hd ▸ hr) hy hyp

theorem of_eq (h : DurableInv sv) (hd : sv'.disk = sv.disk) (hb : sv'.orderbooks = sv.orderbooks)
    (ho : sv'.storeOpen = sv.storeOpen) (hu : sv.uuids ⊆ sv'.uuids) : DurableInv sv' :=
  h.step (by rw [hd]) (by rw [hd]) hu fun ho' {_ _ _ _} hx hp => ⟨ho ▸ ho', _, hb ▸ hx, hp, rfl⟩

theorem quiet (h : DurableInv sv) (hq : Quiet sv sv') : DurableInv sv' :=
  h.step hq.orders hq.tradeRows hq.uuids.subset fun ho {_ _ _ _} hx hp =>
    ⟨hq.storeOpen ▸ ho, _, hq.orderbooks ▸ hx, hp, rfl⟩

theorem setBook {symbol : String} {b : OrderBook ℚ} (h : DurableInv sv)
    (hb : ∀ {id p}, b.getOrder id = some p →
      ∃ y, sv.orderbooks.find? symbol = some y ∧ y.getOrder id = some p ∧ y.heap p = b.heap p) :
    DurableInv (sv.setBook symbol b) := by
  refine h.step rfl rfl (List.Subset.refl _) fun ho {name x id p} hx hp => ⟨ho, ?_⟩
  rw [setBook_find?] at hx
  split_ifs at hx with hn
  · cases hx
    exact hn ▸ hb hp
  · exact ⟨x, hx, hp, rfl⟩

section Added

variable {o : Order ℚ} {b : OrderBook ℚ} {out : AddOutcome ℚ}

/-- Before a call, the rows of its orders have what the orders have: of those in the book by the invariant, of the
incoming one because it was inserted or restored with it. -/
theorem row_before (h : DurableInv sv) (ha : Added env o b out sv sv') (ho : sv.storeOpen = true)
    (hrow : ∀ r ∈ sv.disk.orders, r.id = o.id → columnInt r.remainingQuantity = o.remainingQuantity) {p : OrderPtr}
    (hp : b.Held p ∨ p = b.nextPtr) {r : OrderRow} (hr : r ∈ sv.disk.orders) (hid : r.id = ((b.alloc o).2.heap p).id) :
    columnInt r.remainingQuantity = ((b.alloc o).2.heap p).remainingQuantity := by
  by_cases he : p = b.nextPtr
  · rw [he, alloc_heap_self] at hid ⊢
    exact hrow r hr hid
  · rw [alloc_heap_of_ne he] at hid ⊢
    exact h.live ho r hr ha.book (ha.inv.index.2 ⟨hid.symm, .inl (hp.resolve_right he)⟩)

/-- The rows of the trades of a call say what its trades say. -/
theorem tradedRows_added (hI : IdInv sv) (ha : Added env o b out sv sv') (ho : sv.storeOpen = true)
    (hw : ∀ n, env.writeOk n = true) (hk : o.id ∈ sv.uuids) (id : String) :
    tradedRows id sv'.disk.trades = tradedRows id sv.disk.trades + traded id (tradesIn out.callbacks) := by
  rw [ha.tradeRows ho hw, tradedRows_append, tradedRows_map fun t ht => ?_]
  exact (ha.trade_known hI hk ht).imp hI.cStr_eq hI.cStr_eq

/-- After a call, the rows of its orders have what the orders have. -/
theorem row_after (h : DurableInv sv) (hI : IdInv sv) (ha : Added env o b out sv sv') (ho : sv.storeOpen = true)
    (hw : ∀ n, env.writeOk n = true) (hk : o.id ∈ sv.uuids)
    (hrow : ∀ r ∈ sv.disk.orders, r.id = o.id → columnInt r.remainingQuantity = o.remainingQuantity) {p : OrderPtr}
    (hp : b.Held p ∨ p = b.nextPtr) {r : OrderRow} (hr : r ∈ sv'.disk.orders) (hid : r.id = (out.state.heap p).id) :
    columnInt r.remainingQuantity = (out.state.heap p).remainingQuantity := by
  have hcall := ha.call
  rw [(hcall.static p).id] at hid
  obtain ⟨r₀, hr₀, hid₀, ⟨rfl, hno⟩ | ⟨q, hq, hidq, rfl⟩⟩ := ha.dispatched.row_cases ho hw hr
  · -- not announced, so not traded
    have hzero : traded ((b.alloc o).2.heap p).id (tradesIn out.callbacks) = 0 :=
      ha.add.traded_eq_zero ha.invAlloc fun q hq hqid => hno q hq <| by
        rw [(hcall.static q).id, hqid, hI.cStr_eq (hI.known ha hk hp)]
        exact hid
    have hsum := ha.add.settles ha.inv ha.invAlloc hp
    rw [hzero, Nat.add_zero] at hsum
    rw [h.row_before ha ho hrow hp hr₀ hid]
    exact UInt32.toNat_inj.1 hsum
  · rw [hid₀, hidq, (hcall.static q).id, hI.cStr_eq (hI.known ha hk (hcall.announced q hq))] at hid
    rw [hcall.eq_of_id ha.invAlloc (hcall.accepted_of_mem hq) (hcall.announced q hq) hp hid]
    exact columnInt_bindInt _

/-- A call on a book. -/
theorem added (h : DurableInv sv) (hI : IdInv sv) (ha : Added env o b out sv sv') (hw : ∀ n, env.writeOk n = true)
    (hk : o.id ∈ sv.uuids) (hl : ¬ sv.Live o.id)
    (hrow : sv.storeOpen = true → ∀ r ∈ sv.disk.orders, r.id = o.id → columnInt r.remainingQuantity = o.remainingQuantity) :
    DurableInv sv' := by
  have hcall := ha.call
  have hd := ha.dispatched
  cases ho : sv.storeOpen with
  | false =>
    have hdisk : sv'.disk = sv.disk := by
      rw [ha.returned]
      exact dispatch_closed env out.state.heap out.callbacks (sv.setBook o.symbol out.state.toOrderBook) ho
    refine h.step (by rw [hdisk]) (by rw [hdisk]) (hd.uuids ▸ List.Subset.refl _) fun ho' => ?_
    rw [hd.storeOpen] at ho'
    cases ho.symm.trans ho'
  | true =>
    have hrow := hrow ho
    refine ⟨⟨fun r hr => ?_, fun t ht => ?_⟩, fun _ r hr => fun {symbol x p} hx hp => ?_⟩
    · rw [tradedRows_added hI ha ho hw hk]
      obtain ⟨r₀, hr₀, hid₀, ⟨rfl, hno⟩ | ⟨p, hp, hidp, rfl⟩⟩ := hd.row_cases ho hw hr
      · -- not announced, so not traded
        have hzero : traded r.id (tradesIn out.callbacks) = 0 := ha.add.traded_eq_zero ha.invAlloc fun q hq hqid =>
          hno q hq <| by rw [(hcall.static q).id, hI.cStr_eq (hI.known ha hk (hcall.announced q hq)), hqid]
        rw [hzero, Nat.add_zero]
        exact h.balance r hr₀
      · -- what the row had left is what the order has left and what it traded
        have hp' := hcall.announced p hp
        rw [(hcall.static p).id, hI.cStr_eq (hI.known ha hk hp')] at hidp
        have hbal := h.balance r₀ hr₀
        rw [h.row_before ha ho hrow hp' hr₀ hidp, ha.add.settles ha.inv ha.invAlloc hp', ← hidp] at hbal
        show (columnInt (bindInt (out.state.heap p).remainingQuantity)).toNat + (tradedRows r₀.id sv.disk.trades +
          traded r₀.id (tradesIn out.callbacks)) = (columnInt r₀.quantity).toNat
        rw [columnInt_bindInt]
        omega
    · rw [ha.tradeRows ho hw] at ht
      rw [hd.uuids]
      rcases List.mem_append.1 ht with ht | ht
      · exact h.drawn t ht
      · obtain ⟨t', ht', rfl⟩ := List.mem_map.1 ht
        obtain ⟨h1, h2⟩ := ha.trade_known hI hk ht'
        show cStr t'.buyOrderId ∈ sv.uuids ∧ cStr t'.sellOrderId ∈ sv.uuids
        rw [hI.cStr_eq h1, hI.cStr_eq h2]
        exact ⟨h1, h2⟩
    · rw [ha.find?] at hx
      by_cases hn : symbol = o.symbol
      · rw [if_pos hn] at hx
        cases hx
        obtain ⟨hid, hheld | hF⟩ := hcall.inv.index.1 hp
        · exact h.row_after hI ha ho hw hk hrow (hcall.held p hheld) hr hid.symm
        · cases hF
      · -- an order of another book is not announced
        rw [if_neg hn] at hx
        obtain ⟨r₀, hr₀, hid₀, ⟨rfl, -⟩ | ⟨q, hq, hidq, -⟩⟩ := hd.row_cases ho hw hr
        · exact h.live ho r hr₀ hx hp
        · have hq' := hcall.announced q hq
          rw [(hcall.static q).id, hI.cStr_eq (hI.known ha hk hq'), ← hid₀] at hidq
          rw [hidq] at hp
          by_cases he : q = b.nextPtr
          · rw [he, alloc_heap_self] at hp
            exact absurd ⟨symbol, x, p, hx, hp⟩ hl
          · rw [alloc_heap_of_ne he] at hp
            exact absurd (hI.oneBook hx hp ha.book (ha.inv.index.2 ⟨rfl, .inl (hq'.resolve_right he)⟩)) hn

end Added

theorem cancelled {symbol id : String} {b b' : OrderBook ℚ} {p : OrderPtr} (h : DurableInv sv) (hI : IdInv sv)
    (hc : Cancelled env symbol id b p b' sv sv') (hw : ∀ n, env.writeOk n = true) : DurableInv sv' := by
  have hd := hc.dispatched
  have hres : sv' = dispatch env b'.heap [.order p] (sv.setBook symbol b') := hc.result
  have hrem : ∀ q, (b'.heap q).remainingQuantity = (b.heap q).remainingQuantity := fun q => by
    by_cases hq : q = p
    · rw [hq, hc.cancel.heap, Function.update_self]
    · rw [hc.cancel.heapOther hq]
  have hindex : b.getOrder (b.heap p).id = some p := hc.inv.index.2 ⟨rfl, .inl hc.cancel.held⟩
  have hpid : cStr (b'.heap p).id = (b.heap p).id := by
    rw [(hc.cancel.static p).id]
    exact hI.cStr_eq (hI.live ⟨symbol, b, p, hc.book, hindex⟩)
  -- the rows keep their quantities, and are as many
  have hrow : sv.storeOpen = true → ∀ r ∈ sv'.disk.orders, ∃ r₀ ∈ sv.disk.orders, r.id = r₀.id ∧ r.quantity = r₀.quantity ∧
      columnInt r.remainingQuantity = columnInt r₀.remainingQuantity := fun ho r hr => by
    obtain ⟨r₀, hr₀, hid₀, ⟨rfl, -⟩ | ⟨q, hq, hidq, rfl⟩⟩ := hd.row_cases ho hw hr
    · exact ⟨r, hr₀, rfl, rfl, rfl⟩
    · rw [Callback.order.inj (List.mem_singleton.1 hq)] at hidq ⊢
      refine ⟨r₀, hr₀, rfl, rfl, ?_⟩
      rw [h.live ho r₀ hr₀ hc.book (by rw [hidq, hpid]; exact hindex), ← hrem p]
      exact columnInt_bindInt _
  cases ho : sv.storeOpen with
  | false =>
    have hdisk : sv'.disk = sv.disk := by
      rw [hres]
      exact dispatch_closed env b'.heap [.order p] (sv.setBook symbol b') ho
    refine h.step (by rw [hdisk]) (by rw [hdisk]) (hd.uuids ▸ List.Subset.refl _) fun ho' => ?_
    rw [hd.storeOpen] at ho'
    cases ho.symm.trans ho'
  | true =>
    have htrades : sv'.disk.trades = sv.disk.trades := by
      rw [hres, dispatch_tradeRows env hw b'.heap [.order p] (sv.setBook symbol b') ho]
      exact List.append_nil _
    refine ⟨⟨fun r hr => ?_, fun t ht => ?_⟩, fun _ r hr => fun {name x q} hx hq => ?_⟩
    · obtain ⟨r₀, hr₀, hid, hqty, hr'⟩ := hrow ho r hr
      rw [hr', htrades, hid, hqty]
      exact h.balance r₀ hr₀
    · rw [hd.uuids]
      exact h.drawn t (htrades ▸ ht)
    · obtain ⟨r₀, hr₀, hid, -, hr'⟩ := hrow ho r hr
      rw [hid] at hq
      obtain ⟨⟨y, hy, hyq⟩, -⟩ := hc.live_iff.1 ⟨x, hx, hq⟩
      rw [hr', h.live ho r₀ hr₀ hy hyq]
      rw [hc.find?] at hx
      split_ifs at hx with hn
      · cases hx
        rw [hn, hc.book] at hy
        cases hy
        rw [hrem]
      · cases hx.symm.trans hy
        rfl

/-- An order persisted under a new id: its row is whole, and no trade names it. -/
theorem saved (h : DurableInv sv) (hI : IdInv sv) {x : Submission} {o : Order ℚ} (hx : x.orderId = cStr o.id)
    (ho : o.remainingQuantity = o.quantity) (hnew : x.orderId ∉ sv.uuids) : DurableInv (sv.saveSubmission env x o) := by
  obtain ⟨disk, n, heq, hd⟩ := saveSubmission_eq sv env x o
  have ht := saveSubmission_tradeRows sv env x o
  rw [heq] at ht ⊢
  have ht : disk.trades = sv.disk.trades := ht
  have hcases : ∀ r ∈ disk.orders, r ∈ sv.disk.orders ∨ r = Db.orderRow o env.now := fun r hr => by
    rcases hd with ⟨hd, -⟩ | ⟨-, hd⟩
    · exact .inl (hd ▸ hr)
    · rw [hd] at hr
      exact (List.mem_append.1 hr).imp List.mem_of_mem_filter List.mem_singleton.1
  refine ⟨⟨fun r hr => ?_, fun t htr => ?_⟩, fun hopen r hr => fun {symbol b p} hy hp => ?_⟩
  · show _ + tradedRows r.id disk.trades = _
    rw [ht]
    rcases hcases r hr with hr | rfl
    · exact h.balance r hr
    · have hzero : tradedRows (cStr o.id) sv.disk.trades = 0 := tradedRows_eq_zero fun t ht hn => hnew <| by
        rw [hx]
        rcases hn with hn | hn
        · exact hn ▸ (h.drawn t ht).1
        · exact hn ▸ (h.drawn t ht).2
      show (columnInt (bindInt o.remainingQuantity)).toNat + tradedRows (cStr o.id) sv.disk.trades =
        (columnInt (bindInt o.quantity)).toNat
      rw [hzero, ho, Nat.add_zero]
  · have htr : t ∈ disk.trades := htr
    rw [ht] at htr
    exact (h.drawn t htr).imp (fun h => List.mem_append_left _ h) fun h => List.mem_append_left _ h
  · rcases hcases r hr with hr | rfl
    · exact h.live hopen r hr hy hp
    · have hlive : sv.Live (cStr o.id) := ⟨symbol, b, p, hy, hp⟩
      exact absurd (hx ▸ hI.live hlive) hnew

end DurableInv

theorem restoreOrder_remainingQuantity (now : Int) (r : OrderRow) :
    (Db.restoreOrder now r).remainingQuantity = columnInt r.remainingQuantity := by
  unfold Db.restoreOrder
  dsimp only
  split_ifs
  · simp [Order.fill, Order.new]
  · rfl

/-- The row of a new submission is the one it was saved with. -/
theorem IdInv.row_of_submission {env : Env} {sv : Server} {s : SessionPtr} {m : OrderSubmitMessage} {tickSize : ℚ}
    (hI : IdInv sv) (hnew : generateUuid env.uuid ∉ sv.uuids) {r : OrderRow}
    (hr : r ∈ (sv.saveSubmission env ⟨generateUuid env.uuid, s, m, tickSize⟩ (submittedOrder env m tickSize)).disk.orders)
    (hid : r.id = generateUuid env.uuid) :
    columnInt r.remainingQuantity = (submittedOrder env m tickSize).remainingQuantity := by
  obtain ⟨disk, n, heq, hd⟩ := saveSubmission_eq sv env ⟨generateUuid env.uuid, s, m, tickSize⟩ (submittedOrder env m tickSize)
  rw [heq] at hr
  have hold : r ∉ sv.disk.orders := fun hr => hnew (hid ▸ hI.rows r hr)
  rcases hd with ⟨hd, -⟩ | ⟨-, hd⟩
  · exact absurd (hd ▸ hr) hold
  · have hr : r ∈ sv.disk.orders.filter _ ++ [_] := hd ▸ hr
    rcases List.mem_append.1 hr with hr | hr
    · exact absurd (List.mem_of_mem_filter hr) hold
    · rw [List.mem_singleton.1 hr]
      exact columnInt_bindInt _

/-- The restore loop starts every order with what its row has left. -/
theorem Balanced.restarted {env : Env} {sv sv₁ sv₂ sv' : Server} (h : Balanced sv) (hI : IdInv sv) (hb : Booted env sv sv₁)
    (hr : Restored env (if sv₁.storeOpen then sv₁.disk.activeRows else []) sv₁ sv₂) (hq : Quiet sv₂ sv')
    (hw : ∀ n, env.writeOk n = true) : DurableInv sv' := by
  refine (hr.replay (K := fun _ sv => DurableInv sv) (Replaying.booted hI hb) (h.booted hb) (fun _ _ hK => hK)
    fun {r rows sv sv' b out} hR ha hK => ?_).quiet hq
  refine hK.added hR.toIdInv ha hw (hR.known env.now).1 (hR.known env.now).2 fun _ x hx hid => ?_
  -- the table has one row with the id
  rw [restoreOrder_id] at hid
  rw [restoreOrder_remainingQuantity,
    List.inj_on_of_nodup_map hR.rowsNodup hx (hR.present r (List.mem_cons_self ..)).1 hid]

theorem Effect.durableInv {env : Env} {ev : Event} {sv sv' : Server} (he : Effect env ev sv sv') (hI : IdInv sv)
    (hw : ∀ n, env.writeOk n = true) (hnd : sv'.uuids.Nodup) (h : DurableInv sv) : DurableInv sv' := by
  cases he with
  | quiet hq => exact h.quiet hq
  | connected => exact h.of_eq rfl rfl rfl (List.subset_append_left ..)
  | closed _ | dropped _ => exact h.of_eq rfl rfl rfl (List.Subset.refl _)
  | created h₁ _ h₂ => exact ((h.quiet h₁).setBook fun hp => (by cases hp)).quiet h₂
  | ticked hb =>
    exact h.setBook fun hp => ⟨_, hb, by rw [setTickSize_getOrder] at hp; exact hp, by rw [setTickSize_heap]⟩
  | @submitted _ sv₁ sv₂ s m b out hs _ h₁ ha =>
    have hI₁ := hI.quiet h₁
    have hs₁ : s < sv₁.nextSession := by rw [h₁.nextSession]; exact hasSession_lt hs
    have hnew := submitted_new ha hnd
    have hsaved : DurableInv (sv₁.saveSubmission env ⟨generateUuid env.uuid, s, m, b.tickSize⟩
        (submittedOrder env m b.tickSize)) := (h.quiet h₁).saved hI₁ (cStr_generateUuid _).symm rfl hnew
    have hadd := hsaved.added (hI₁.saved hs₁ m b.tickSize hnew) ha hw (mem_saveSubmission ..).1
      (fun hl => hnew (hI₁.live (saveSubmission_live.1 hl))) fun _ r hr hid => hI₁.row_of_submission hnew hr hid
    exact hadd.of_eq rfl rfl rfl (List.Subset.refl _)
  | cancelled _ h₁ _ hc => exact (h.quiet h₁).cancelled (hI.quiet h₁) hc hw
  | reported _ h₁ _ _ _ => exact (h.quiet h₁).of_eq rfl rfl rfl (List.Subset.refl _)
  | generated hg =>
    unfold generate
    rw [hg]
    exact h.of_eq rfl rfl rfl (List.subset_append_left ..)
  | @posted _ _ o rest b out hp ha =>
    have hmem : o ∈ sv.posted := by rw [hp]; exact List.mem_cons_self ..
    have hpop : DurableInv { sv with posted := rest } := h.of_eq rfl rfl rfl (List.Subset.refl _)
    exact hpop.added (hI.popPosted hp) ha hw (hI.posted o hmem).1 (hI.posted o hmem).2 fun _ r hr hid =>
      absurd hid (hI.postedRow o hmem r hr)
  | generatorCancelled h₁ hc => exact (h.quiet h₁).cancelled (hI.quiet h₁) hc hw
  | restarted hb hr hq => exact h.toBalanced.restarted hI hb hr hq hw

/-! ## Whole histories -/

/-- In every history in which no write fails and no id repeats, every row of the order table has lost, of the quantity
it was inserted with, exactly what the rows of the trade table name it with; and it has lost no more than it had. -/
theorem run_durable (config : Config) (env : Env) (evs : List (Env × Event))
    (hw : ∀ e ∈ (env, Event.restart) :: evs, ∀ n, e.1.writeOk n = true) :
    ∃ sv, run config env evs = some sv ∧ (sv.uuids.Nodup → ∀ r ∈ sv.disk.orders,
      columnInt r.remainingQuantity ≤ columnInt r.quantity ∧
      (columnInt r.quantity - columnInt r.remainingQuantity).toNat = tradedRows r.id sv.disk.trades) := by
  obtain ⟨sv, hrun, -, hK⟩ := run_rule config env evs (K := fun _ sv => sv.uuids.Nodup → IdInv sv ∧ DurableInv sv)
    (fun _ => ⟨.initial config, .initial config⟩) fun pre e ev sv sv' hpre hs hK he _ hnd => by
      obtain ⟨hI, hD⟩ := hK (he.uuids.sublist.nodup hnd)
      have hwe := hw _ (hpre.subset (List.mem_append_right _ (List.mem_singleton.2 rfl)))
      exact ⟨he.idInv hI hnd, he.durableInv hI hwe hnd hD⟩
  refine ⟨sv, hrun, fun hnd r hr => ?_⟩
  have hbal := (hK hnd).2.balance r hr
  have hle : columnInt r.remainingQuantity ≤ columnInt r.quantity := UInt32.le_iff_toNat_le.2 (by omega)
  refine ⟨hle, ?_⟩
  rw [UInt32.toNat_sub_of_le _ _ hle]
  omega

/-- A sell order rests and is bought in two parts, with a restart between them. -/
def boughtAcrossRestart : List (Env × Event) :=
  [(sampleEnv true 1, .connect), (sampleEnv true 2, .message 0 (sampleSubmit .sell .limit 100 0 5)),
    (sampleEnv true 3, .message 0 (sampleSubmit .buy .limit 100 0 3)), (sampleEnv true 4, .restart),
    (sampleEnv true 5, .connect), (sampleEnv true 6, .message 1 (sampleSubmit .buy .market 0 0 2))]

theorem run_durable_boughtAcrossRestart : ∃ sv r, run sampleConfig (sampleEnv true 0) boughtAcrossRestart = some sv ∧
    sv.uuids.Nodup ∧ r ∈ sv.disk.orders ∧ r.status = .filled ∧ columnInt r.quantity = 5 ∧
    sv.disk.trades.map (·.quantity) = [3, 2] ∧ columnInt r.remainingQuantity ≤ columnInt r.quantity ∧
    (columnInt r.quantity - columnInt r.remainingQuantity).toNat = tradedRows r.id sv.disk.trades := by
  obtain ⟨sv, hrun, h⟩ := run_durable sampleConfig (sampleEnv true 0) boughtAcrossRestart
    (by intro e he; simp only [boughtAcrossRestart, List.mem_cons, List.not_mem_nil, or_false] at he
        rcases he with rfl | rfl | rfl | rfl | rfl | rfl | rfl <;> exact fun _ => rfl)
  have hstate : (run sampleConfig (sampleEnv true 0) boughtAcrossRestart).bind (fun sv => sv.disk.orders[0]?.map fun r =>
      (decide sv.uuids.Nodup, r.status, columnInt r.quantity, sv.disk.trades.map (·.quantity))) =
      some (true, .filled, 5, [3, 2]) := by decide +kernel
  rw [hrun, Option.bind_some] at hstate
  obtain ⟨r, hr, he⟩ := Option.map_eq_some_iff.1 hstate
  simp only [Prod.mk.injEq, decide_eq_true_eq] at he
  obtain ⟨hnd, hst, hq, ht⟩ := he
  have hmem := List.mem_of_getElem? hr
  exact ⟨sv, r, hrun, hnd, hmem, hst, hq, ht, h hnd r hmem⟩

end Server

end OrderbookGC
