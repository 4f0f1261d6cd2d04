/-
A reader of frames closes the connection on a payload of more than a megabyte, and `doRead` lets requests of that size
in; what the server says echoes their strings in longer texts. Where the strings of the requests leave room for what
stands around them, everything the server says to a request is a payload that the readers accept.
-/
import OrderbookGC.Server.Reply
import OrderbookGC.Server.Payload
import OrderbookGC.Wire.RoundTrip

namespace OrderbookGC

open Container Framing Text

namespace Server

/-! ## What the server says -/

/-- A login goes through. -/
def loginSucceeds (sv : Server) (username password : String) : Bool :=
  !sv.storeOpen || username = "guest" || sv.disk.authenticateUser username password

/-- The strings of a request leave room for what the answer puts around them; an order's report, for every report of it. -/
def ShortRequest (sv : Server) (env : Env) (s : SessionPtr) : Request → Prop
  | .login username password =>
    username.utf8ByteSize + (if sv.loginSucceeds username password then 108 else 92) ≤ maxMessageSize
  | .register username password => username.utf8ByteSize + (if password.isEmpty then 85 else 90) ≤ maxMessageSize
  | .snapshotRequest symbol => (sv.requireAuth s "view").1 = true →
    44 + symbol.utf8ByteSize + (sv.orderbooks.find? symbol).elim 0 OrderBook.levelsLength ≤ maxMessageSize
  | .orderSubmit m => (sv.requireAuth s "trade").1 = true →
    (sv.orderbooks.find? m.symbol).elim (81 + m.symbol.utf8ByteSize)
      (fun b => (submittedOrder env m b.tickSize).reportLength) ≤ maxMessageSize
  | _ => True

/-- The requests of sessions are short, and so are the notifications of trades at the generator's prices. -/
def Short (sv : Server) : Env × Event → Prop
  | (env, .message s m) => sv.hasSession s = true → sv.ShortRequest env s m
  | (env, .generate d) => ∀ g ∈ sv.generator,
    (g.generateOrder d (generateUuid env.uuid) env.now).noticeLength ≤ maxMessageSize
  | _ => True

instance (sv : Server) (env : Env) (s : SessionPtr) : ∀ m, Decidable (sv.ShortRequest env s m)
  | .login _ _ => Nat.decLe ..
  | .register _ _ => Nat.decLe ..
  | .snapshotRequest _ => inferInstanceAs (Decidable (_ = true → _ ≤ (_ : Nat)))
  | .orderSubmit _ => inferInstanceAs (Decidable (_ = true → _ ≤ (_ : Nat)))
  | .orderCancel _ _ => .isTrue trivial
  | .orderStatus _ _ => .isTrue trivial
  | .other => .isTrue trivial

instance (sv : Server) : ∀ ev, Decidable (sv.Short ev)
  | (env, .message s m) => inferInstanceAs (Decidable (sv.hasSession s = true → sv.ShortRequest env s m))
  | (env, .generate d) => inferInstanceAs (Decidable (∀ g ∈ sv.generator, 
      (g.generateOrder d (generateUuid env.uuid) env.now).noticeLength ≤ maxMessageSize))
  | (_, .connect) | (_, .close _) | (_, .snapshotTimer) | (_, .posted) | (_, .generatorCancel _)
  | (_, .createOrderbook _ _) | (_, .setOrderbookTickSize _ _) | (_, .restart) => .isTrue trivial

/-- What is said in between are payloads that the readers accept. -/
def Framed (localtime : Int → Wire.Tm) (now : Int) (sv sv' : Server) : Prop :=
  ∃ l, sv'.sent = sv.sent ++ l ∧ ∀ e ∈ l, Sendable (e.2.payload localtime now)

namespace Framed

variable {localtime : Int → Wire.Tm} {now : Int} {sv sv' sv'' : Server}

theorem of_eq (h : sv'.sent = sv.sent) : Framed localtime now sv sv' := ⟨[], by rw [h, List.append_nil], nofun⟩

theorem trans (h : Framed localtime now sv sv') (h' : Framed localtime now sv' sv'') : Framed localtime now sv sv'' := by
  obtain ⟨l, hl, hmem⟩ := h
  obtain ⟨l', hl', hmem'⟩ := h'
  refine ⟨l ++ l', by rw [hl', hl, List.append_assoc], fun e he => ?_⟩
  rcases List.mem_append.1 he with he | he
  · exact hmem e he
  · exact hmem' e he

/-- Where nothing else is said, the message decides. -/
theorem sendMessage_iff {s : SessionPtr} {r : Response} (h : sv'.sent = sv.sent) :
    Framed localtime now sv (sv'.sendMessage s r) ↔ Sendable (r.payload localtime now) := by
  constructor
  · rintro ⟨l, hl, hmem⟩
    have hl : sv'.sent ++ [(s, r)] = sv.sent ++ l := hl
    rw [h, List.append_cancel_left_eq] at hl
    exact hmem (s, r) (hl ▸ List.mem_singleton.2 rfl)
  · intro hr
    refine ⟨[(s, r)], by rw [← h]; rfl, fun e he => ?_⟩
    rw [List.mem_singleton.1 he]
    exact hr

theorem sendMessage (s : SessionPtr) {r : Response} (hr : Sendable (r.payload localtime now)) :
    Framed localtime now sv (sv.sendMessage s r) := (sendMessage_iff rfl).2 hr

theorem broadcast (symbol : String) {r : Response} (hr : Sendable (r.payload localtime now)) :
    Framed localtime now sv (sv.broadcast symbol r) := by
  obtain ⟨l, hl, hmem⟩ := broadcast_eq sv symbol r
  exact ⟨l, by rw [hl], fun e he => by rw [hmem e he]; exact hr⟩

theorem onTradeExecuted (env : Env) {t : Trade ℚ} (ht : Sendable ((Response.tradeNotification t).payload localtime now)) :
    Framed localtime now sv (onTradeExecuted env sv t) := by
  unfold Server.onTradeExecuted
  dsimp only
  generalize hsv : ({ sv with generator := sv.generator.map (Generator.updateLastPrice · t.price)
                              trades := sv.trades ++ [t] } : Server) = sv₁
  obtain ⟨disk, n, hw, -⟩ := write_eq sv₁ env (Db.saveTrade · t env.now)
  rw [hw]
  subst hsv
  exact (of_eq rfl).trans (broadcast t.symbol ht)

theorem onOrderUpdated (env : Env) {o : Order ℚ} (ho : (sv.orderOwners.find? o.id).isSome →
    Sendable ((Response.orderStatus o.statusMessage).payload localtime now)) :
    Framed localtime now sv (onOrderUpdated env sv o) := by
  unfold Server.onOrderUpdated
  dsimp only
  obtain ⟨disk, n, hw, -⟩ := write_eq sv env (Db.updateOrder · o)
  rw [hw]
  cases hown : sv.orderOwners.find? o.id with
  | none => exact of_eq rfl
  | some c =>
    dsimp only
    by_cases hc : c.isEmpty = true
    · rw [if_pos hc]
      exact of_eq rfl
    · rw [if_neg hc]
      cases sv.sessions.find? c with
      | none => exact of_eq rfl
      | some s => exact (of_eq rfl).trans (sendMessage s (ho (by rw [hown]; rfl)))

end Framed

/-- The callbacks of a call, where its trades and its orders with an owner can be told. -/
theorem dispatch_framed (env : Env) {localtime : Int → Wire.Tm} {now : Int} (heap : OrderPtr → Order ℚ) :
    ∀ (cbs : List (Callback ℚ)) (sv : Server),
      (∀ t, .trade t ∈ cbs → Sendable ((Response.tradeNotification t).payload localtime now)) →
      (∀ p, .order p ∈ cbs → (sv.orderOwners.find? (heap p).id).isSome →
        Sendable ((Response.orderStatus (heap p).statusMessage).payload localtime now)) →
      Framed localtime now sv (dispatch env heap cbs sv)
  | [], sv, _, _ => .of_eq rfl
  | .trade t :: cbs, sv, ht, ho => by
    refine (Framed.onTradeExecuted env (ht t List.mem_cons_self)).trans (dispatch_framed env heap cbs _ ?_ ?_)
    · exact fun t' ht' => ht t' (List.mem_cons_of_mem _ ht')
    · intro p hp hown
      obtain ⟨c, hc⟩ := Option.isSome_iff_exists.1 hown
      have hd : Dispatched env heap [.trade t] sv (onTradeExecuted env sv t) := .trade t
      exact ho p (List.mem_cons_of_mem _ hp) (by rw [hd.owner_of hc]; rfl)
  | .order p :: cbs, sv, ht, ho => by
    refine (Framed.onOrderUpdated env (ho p List.mem_cons_self)).trans (dispatch_framed env heap cbs _ ?_ ?_)
    · exact fun t' ht' => ht t' (List.mem_cons_of_mem _ ht')
    · intro q hq hown
      obtain ⟨c, hc⟩ := Option.isSome_iff_exists.1 hown
      exact ho q (List.mem_cons_of_mem _ hq) (by rw [(Dispatched.order p).owner_of hc]; rfl)

/-! ## The orders the server knows -/

/-- Callbacks change neither the id nor the quantity of a row. -/
theorem Dispatched.row_origin {env : Env} {heap : OrderPtr → Order ℚ} {cbs : List (Callback ℚ)} {sv sv' : Server}
    (hd : Dispatched env heap cbs sv sv') {r : OrderRow} (hr : r ∈ sv'.disk.orders) :
    ∃ r₀ ∈ sv.disk.orders, r₀.id = r.id ∧ r₀.quantity = r.quantity := by
  obtain ⟨f, hf, hf', -⟩ := hd.rows
  rw [hf] at hr
  obtain ⟨r₀, hr₀, rfl⟩ := List.mem_map.1 hr
  refine ⟨r₀, hr₀, ?_⟩
  rcases hf' r₀ with heq | ⟨p, -, -, heq⟩
  · rw [heq]
    exact ⟨rfl, rfl⟩
  · rw [heq]
    exact ⟨rfl, rfl⟩

/-- Trades at the prices of the books, the posted orders and the rows can be told, and so can orders that have an owner. -/
structure FrameInv (localtime : Int → Wire.Tm) (sv : Server) : Prop where
  held : ∀ {symbol b}, sv.orderbooks.find? symbol = some b → ∀ p, b.Held p →
    (b.heap p).Accounted ∧ (b.heap p).symbol = symbol ∧ (b.heap p).noticeLength ≤ maxMessageSize
  owned : ∀ {symbol b}, sv.orderbooks.find? symbol = some b → ∀ p, b.Held p →
    (sv.orderOwners.find? (b.heap p).id).isSome → (b.heap p).Reportable localtime
  posted : ∀ o ∈ sv.posted, o.remainingQuantity = o.quantity ∧ o.noticeLength ≤ maxMessageSize
  row : ∀ r ∈ sv.disk.orders, r.noticeLength ≤ maxMessageSize ∧ columnInt r.remainingQuantity ≤ columnInt r.quantity
  /-- An order that comes from a row has at most the quantity of the row. -/
  object : ∀ r ∈ sv.disk.orders, ∀ {symbol b}, sv.orderbooks.find? symbol = some b → ∀ p, b.Held p → (b.heap p).id = r.id →
    (b.heap p).quantity ≤ columnInt r.quantity

theorem restoreOrder_quantity (now : Int) (r : OrderRow) :
    (Db.restoreOrder now r).quantity = columnInt r.remainingQuantity := by
  unfold Db.restoreOrder
  dsimp only
  split_ifs
  · exact (Order.fill_static ..).quantity
  · rfl

namespace FrameInv

variable {localtime : Int → Wire.Tm} {env : Env} {sv sv' : Server}

theorem initial (config : Config) : FrameInv localtime (initial config) := ⟨nofun, nofun, nofun, nofun, nofun⟩

/-- A step that touches no order and records no owner. -/
theorem step (h : FrameInv localtime sv) (hb : ∀ {symbol b}, sv'.orderbooks.find? symbol = some b → ∀ p, b.Held p →
      ∃ b', sv.orderbooks.find? symbol = some b' ∧ b'.Held p ∧ b'.heap p = b.heap p)
    (ho : ∀ id, (sv'.orderOwners.find? id).isSome → (sv.orderOwners.find? id).isSome) (hp : sv'.posted ⊆ sv.posted)
    (hr : sv'.disk.orders = sv.disk.orders) : FrameInv localtime sv' := by
  refine ⟨fun hb' p hp' => ?_, fun hb' p hp' hown => ?_, fun o hmem => h.posted o (hp hmem), fun r hmem => h.row r (hr ▸ hmem),
    fun r hmem => fun hb' p hp' hid => ?_⟩
  · obtain ⟨b', h1, h2, heq⟩ := hb hb' p hp'
    exact heq ▸ h.held h1 p h2
  · obtain ⟨b', h1, h2, heq⟩ := hb hb' p hp'
    exact heq ▸ h.owned h1 p h2 (by rw [heq]; exact ho _ hown)
  · obtain ⟨b', h1, h2, heq⟩ := hb hb' p hp'
    exact heq ▸ h.object r (hr ▸ hmem) h1 p h2 (by rw [heq]; exact hid)

theorem quiet (h : FrameInv localtime sv) (hq : Quiet sv sv') : FrameInv localtime sv' :=
  h.step (fun hb p hp => ⟨_, hq.orderbooks ▸ hb, hp, rfl⟩) (fun _ ho => hq.orderOwners ▸ ho) (by rw [hq.posted]; exact fun _ h => h)
    hq.orders

theorem setBook {symbol : String} {b : OrderBook ℚ} (h : FrameInv localtime sv)
    (hb : ∀ p, b.Held p → ∃ b', sv.orderbooks.find? symbol = some b' ∧ b'.Held p ∧ b'.heap p = b.heap p) :
    FrameInv localtime (sv.setBook symbol b) := by
  refine h.step (fun {name c} hc p hp => ?_) (fun _ ho => ho) (fun _ h => h) rfl
  rw [setBook_find?] at hc
  split_ifs at hc with hn
  · cases hc
    exact hn ▸ hb p hp
  · exact ⟨c, hc, hp, rfl⟩

/-- The rows after the callbacks of a call on a book: an announced order gives its row no more than the row's quantity. -/
theorem row_dispatched {heap : OrderPtr → Order ℚ} {cbs : List (Callback ℚ)} {sv₀ : Server} (h : FrameInv localtime sv)
    (hd : Dispatched env heap cbs sv₀ sv') (h₀ : sv₀.disk.orders = sv.disk.orders)
    (hp : ∀ r ∈ sv.disk.orders, ∀ p, .order p ∈ cbs → r.id = cStr (heap p).id →
      (heap p).remainingQuantity ≤ columnInt r.quantity) {r : OrderRow} (hr : r ∈ sv'.disk.orders) :
    r.noticeLength ≤ maxMessageSize ∧ columnInt r.remainingQuantity ≤ columnInt r.quantity := by
  obtain ⟨f, hf, hf', -⟩ := hd.rows
  rw [hf, h₀] at hr
  obtain ⟨r₀, hr₀, rfl⟩ := List.mem_map.1 hr
  obtain ⟨h1, h2⟩ := h.row r₀ hr₀
  rcases hf' r₀ with heq | ⟨p, hpm, hid, heq⟩
  · rw [heq]
    exact ⟨h1, h2⟩
  · rw [heq]
    refine ⟨h1, ?_⟩
    show columnInt (bindInt (heap p).remainingQuantity) ≤ _
    rw [columnInt_bindInt]
    exact hp r₀ hr₀ p hpm hid

section Added

variable {o : Order ℚ} {b : OrderBook ℚ} {out : AddOutcome ℚ}

/-- The orders of an accepted call. -/
theorem known (h : FrameInv localtime sv) (ha : Added env o b out sv sv') (hrem : o.remainingQuantity = o.quantity)
    (hn : o.noticeLength ≤ maxMessageSize) (hacc : out.accepted = true) {p : OrderPtr} (hp : b.Held p ∨ p = b.nextPtr) :
    ((b.alloc o).2.heap p).Accounted ∧ ((b.alloc o).2.heap p).symbol = o.symbol ∧
      ((b.alloc o).2.heap p).noticeLength ≤ maxMessageSize := by
  by_cases he : p = b.nextPtr
  · have hl := ha.call.live hacc
    rw [alloc_heap_self] at hl
    rw [he, alloc_heap_self]
    exact ⟨⟨UInt32.le_of_eq hrem, .inr hl.remaining, fun _ => hrem⟩, rfl, hn⟩
  · rw [alloc_heap_of_ne he]
    exact h.held ha.book p (hp.resolve_right he)

/-- The orders of the call after it. -/
theorem called (h : FrameInv localtime sv) (ha : Added env o b out sv sv') (hrem : o.remainingQuantity = o.quantity)
    (hn : o.noticeLength ≤ maxMessageSize) (hacc : out.accepted = true) {p : OrderPtr} (hp : b.Held p ∨ p = b.nextPtr) :
    (out.state.heap p).Accounted ∧ (out.state.heap p).symbol = o.symbol ∧
      (out.state.heap p).noticeLength ≤ maxMessageSize := by
  obtain ⟨h1, h2, h3⟩ := h.known ha hrem hn hacc hp
  have hs := ha.call.static p
  exact ⟨ha.add.accounted ha.invAlloc h1, hs.symbol.trans h2, by rw [Order.noticeLength_later hs]; exact h3⟩

/-- An order with an owner can be told after a call. -/
theorem called_owned (h : FrameInv localtime sv) (ha : Added env o b out sv sv') {p : OrderPtr} (hp : b.Held p)
    (hown : (sv.orderOwners.find? (out.state.heap p).id).isSome) : (out.state.heap p).Reportable localtime := by
  have hheap : (b.alloc o).2.heap p = b.heap p := alloc_heap_of_ne (Nat.ne_of_lt (ha.inv.alloc (.inl hp)))
  have hs := ha.call.static p
  have hpriced := ha.call.priced p
  have hwait := ha.call.untriggered p
  rw [hheap] at hs hpriced hwait
  refine (h.owned ha.book p hp (hs.id ▸ hown)).later hs hpriced hwait fun h0 => ?_
  -- a live order has a remainder
  have hle := (h.held ha.book p hp).1.le
  have hpos := (ha.inv.live hp).remaining
  rw [h0] at hle
  exact absurd (UInt32.lt_of_lt_of_le hpos hle) (by decide)

theorem added (h : FrameInv localtime sv) (hI : IdInv sv) (ha : Added env o b out sv sv') (hk : o.id ∈ sv.uuids)
    (hrem : o.remainingQuantity = o.quantity) (hn : o.noticeLength ≤ maxMessageSize) (hown : sv.orderOwners.find? o.id = none)
    (hrow : ∀ r ∈ sv.disk.orders, o.id = r.id → o.quantity ≤ columnInt r.quantity) : FrameInv localtime sv' := by
  have hd := ha.dispatched
  -- an order of the call has at most the quantity of its row
  have hobject : ∀ r ∈ sv.disk.orders, ∀ p, b.Held p ∨ p = b.nextPtr → (out.state.heap p).id = r.id →
      (out.state.heap p).quantity ≤ columnInt r.quantity := fun r hr p hp hid => by
    have hs := ha.call.static p
    rw [hs.id] at hid
    rw [hs.quantity]
    by_cases he : p = b.nextPtr
    · rw [he, alloc_heap_self] at hid ⊢
      exact hrow r hr hid
    · rw [alloc_heap_of_ne he] at hid ⊢
      exact h.object r hr ha.book p (hp.resolve_right he) hid
  have hrows := fun {r} => h.row_dispatched hd rfl (fun r hr p hp hid => by
    have hp' := ha.call.announced p hp
    cases hacc : out.accepted with
    | false =>
      rw [(ha.call.refused hacc).2] at hp
      cases hp
    | true =>
      have hid' : (out.state.heap p).id = r.id := by
        rw [hid, (ha.call.static p).id, hI.cStr_eq (hI.known ha hk hp')]
      exact UInt32.le_trans (h.called ha hrem hn hacc hp').1.le (hobject r hr p hp' hid')) (r := r)
  refine ⟨fun {symbol y} hy p hp => ?_, fun {symbol y} hy p hp hox => ?_, fun x hx => h.posted x (hd.posted ▸ hx),
    fun r hr => hrows hr, fun r hr => fun {symbol y} hy p hp hid => ?_⟩
  · rw [ha.find?] at hy
    split_ifs at hy with hsym
    · cases hy
      rw [hsym]
      cases hacc : out.accepted with
      | true => exact h.called ha hrem hn hacc (ha.call.held p hp)
      | false =>
        have hrefused := (ha.call.refused hacc).1
        rw [hrefused] at hp ⊢
        have hp' : b.Held p := hp
        rw [alloc_heap_of_ne (Nat.ne_of_lt (ha.inv.alloc (.inl hp')))]
        exact h.held ha.book p hp'
    · exact h.held hy p hp
  · obtain ⟨c, hc⟩ := Option.isSome_iff_exists.1 hox
    have hox' : (sv.orderOwners.find? (y.heap p).id).isSome := Option.isSome_iff_exists.2 ⟨c, hd.owner_of hc⟩
    rw [ha.find?] at hy
    split_ifs at hy with hsym
    · cases hy
      rcases ha.call.held p hp with hb | rfl
      · exact h.called_owned ha hb hox'
      · rw [(ha.call.static b.nextPtr).id, alloc_heap_self, hown] at hox'
        cases hox'
    · exact h.owned hy p hp hox'
  · obtain ⟨r₀, hr₀, hid₀, hq₀⟩ := hd.row_origin hr
    rw [← hq₀]
    rw [← hid₀] at hid
    rw [ha.find?] at hy
    split_ifs at hy with hsym
    · cases hy
      exact hobject r₀ hr₀ p (ha.call.held p hp) hid
    · exact h.object r₀ hr₀ hy p hp hid

/-- What a call says. -/
theorem added_framed (h : FrameInv localtime sv) (hs : Sound sv) (hI : IdInv sv) (ha : Added env o b out sv sv')
    (hk : o.id ∈ sv.uuids) (hrem : o.remainingQuantity = o.quantity) (hn : o.noticeLength ≤ maxMessageSize)
    (hown : sv.orderOwners.find? o.id = none) (hnow : Wire.timeLength localtime env.now = 23) :
    Framed localtime env.now sv sv' := by
  have hdrawn : ∀ {id}, id ∈ sv.uuids → id.utf8ByteSize = 36 := fun {id} hid => by
    obtain ⟨d, rfl⟩ := hI.drawn id hid
    exact length_generateUuid d
  rw [ha.returned]
  refine (Framed.of_eq rfl).trans (dispatch_framed env out.state.heap out.callbacks _ (fun t ht => ?_) fun p hp hox => ?_)
  · cases hacc : out.accepted with
    | false =>
      rw [(ha.call.refused hacc).2] at ht
      cases ht
    | true =>
      obtain ⟨p, hp, hprice, hq⟩ := ha.add.origin ha.invAlloc ht
      obtain ⟨hacct, hsym, hnote⟩ := h.known ha hrem hn hacc hp
      obtain ⟨h1, h2⟩ := ha.trade_known hI hk (mem_tradesIn.2 ht)
      refine notification_sendable hnote hnow (hdrawn h1) (hdrawn h2) ?_ hprice.symm (UInt32.le_trans hq hacct.le)
      rw [hsym, (ha.call.trades t ht).1]
      show b.symbol = o.symbol
      exact hs.symbol ha.book
  · cases hacc : out.accepted with
    | false =>
      rw [(ha.call.refused hacc).2] at hp
      cases hp
    | true =>
      have hp' := ha.call.announced p hp
      have hox : (sv.orderOwners.find? (out.state.heap p).id).isSome := hox
      rcases hp' with hb | rfl
      · refine (h.called ha hrem hn hacc (.inl hb)).1.report (h.called_owned ha hb hox) (hdrawn ?_)
        rw [(ha.call.static p).id]
        exact hI.known ha hk (.inl hb)
      · rw [(ha.call.static b.nextPtr).id, alloc_heap_self, hown] at hox
        cases hox

end Added

theorem cancelled {symbol id : String} {b b' : OrderBook ℚ} {p : OrderPtr} (h : FrameInv localtime sv) (hI : IdInv sv)
    (hc : Cancelled env symbol id b p b' sv sv') : FrameInv localtime sv' := by
  have hd := hc.dispatched
  -- what is left in the book was there, and is as it was
  have hbook : ∀ {name y}, sv'.orderbooks.find? name = some y → ∀ q, y.Held q →
      ∃ x, sv.orderbooks.find? name = some x ∧ x.Held q ∧ x.heap q = y.heap q := fun {name y} hy q hq => by
    rw [hc.find?] at hy
    split_ifs at hy with hn
    · cases hy
      obtain ⟨hq', hne⟩ := (hc.cancel.held_iff hc.inv.toBookInv).1 hq
      exact ⟨b, hn ▸ hc.book, hq', (hc.cancel.heapOther hne).symm⟩
    · exact ⟨y, hy, hq, rfl⟩
  have hrows := fun {r} => h.row_dispatched hd rfl (fun r hr q hq hid => by
    have hqp : q = p := by simpa using hq
    subst hqp
    have hheld := hc.cancel.held
    rw [(hc.cancel.static q).id, hI.cStr_eq (hI.live (live_of_held hc.book hc.inv hheld))] at hid
    have hle := (h.held hc.book q hheld).1.le
    rw [hc.cancel.heap, Function.update_self]
    exact UInt32.le_trans hle (h.object r hr hc.book q hheld hid.symm)) (r := r)
  refine ⟨fun hy q hq => ?_, fun hy q hq hox => ?_, fun x hx => h.posted x (hd.posted ▸ hx), fun r hr => hrows hr,
    fun r hr => fun hy q hq hid => ?_⟩
  · obtain ⟨x, hx, hq', heq⟩ := hbook hy q hq
    exact heq ▸ h.held hx q hq'
  · obtain ⟨c, hown⟩ := Option.isSome_iff_exists.1 hox
    obtain ⟨x, hx, hq', heq⟩ := hbook hy q hq
    refine heq ▸ h.owned hx q hq' ?_
    rw [heq]
    exact Option.isSome_iff_exists.2 ⟨c, hd.owner_of hown⟩
  · obtain ⟨x, hx, hq', heq⟩ := hbook hy q hq
    obtain ⟨r₀, hr₀, hid₀, hq₀⟩ := hd.row_origin hr
    rw [← hq₀, ← heq]
    exact h.object r₀ hr₀ hx q hq' (by rw [heq, hid, hid₀])

/-- What a cancel says. -/
theorem cancelled_framed {symbol id : String} {b b' : OrderBook ℚ} {p : OrderPtr} {now : Int} (h : FrameInv localtime sv)
    (hI : IdInv sv) (hc : Cancelled env symbol id b p b' sv sv') : Framed localtime now sv sv' := by
  have hheap : b'.heap p = { b.heap p with status := .canceled } := by rw [hc.cancel.heap, Function.update_self]
  rw [hc.result]
  refine (Framed.of_eq rfl).trans (.onOrderUpdated env fun hox => ?_)
  rw [hheap] at hox ⊢
  have hheld := hc.cancel.held
  have hr := h.owned hc.book p hheld hox
  refine ((h.held hc.book p hheld).1.cancel (hc.inv.live hheld)).report ⟨hr.time, hr.length⟩ ?_
  obtain ⟨d, hd⟩ := hI.drawn _ (hI.live (live_of_held hc.book hc.inv hheld))
  show (b.heap p).id.utf8ByteSize = 36
  rw [hd]
  exact length_generateUuid d

/-- A saved submission; its row says what its order says. -/
theorem saved (h : FrameInv localtime sv) (hs : Sound sv) (hI : IdInv sv) {s : SessionPtr} {m : OrderSubmitMessage} {tickSize : ℚ}
    (hn : (submittedOrder env m tickSize).noticeLength ≤ maxMessageSize) (hnew : generateUuid env.uuid ∉ sv.uuids) :
    FrameInv localtime
      (sv.saveSubmission env ⟨generateUuid env.uuid, s, m, tickSize⟩ (submittedOrder env m tickSize)) := by
  obtain ⟨disk, n, heq, -⟩ := saveSubmission_eq sv env ⟨generateUuid env.uuid, s, m, tickSize⟩ (submittedOrder env m tickSize)
  have hcases : ∀ r ∈ disk.orders, r ∈ sv.disk.orders ∨ r = Db.orderRow (submittedOrder env m tickSize) env.now :=
    fun r hr => mem_saveSubmission_orders (x := ⟨generateUuid env.uuid, s, m, tickSize⟩) (by rw [heq]; exact hr)
  rw [heq]
  refine ⟨h.held, h.owned, h.posted, fun r hr => ?_, fun r hr => fun {symbol b} hb p hp hid => ?_⟩
  · rcases hcases r hr with hr | rfl
    · exact h.row r hr
    · have hsym := cStr_utf8ByteSize_le (submittedOrder env m tickSize).symbol
      refine ⟨le_trans ?_ hn, ?_⟩
      · unfold OrderRow.noticeLength Order.noticeLength Db.orderRow
        dsimp only
        rw [columnInt_bindInt]
        omega
      · show columnInt (bindInt _) ≤ columnInt (bindInt _)
        exact UInt32.le_refl _
  · rcases hcases r hr with hr | rfl
    · exact h.object r hr hb p hp hid
    · have hid : (b.heap p).id = cStr (generateUuid env.uuid) := hid
      rw [cStr_generateUuid] at hid
      exact absurd (hid ▸ hI.live (live_of_held hb (hs.books hb) hp)) hnew

/-- An order is acknowledged, and can be told from then on. -/
theorem acknowledge {s : SessionPtr} {o : Order ℚ} (h : FrameInv localtime sv)
    (ho : ∀ {symbol b}, sv.orderbooks.find? symbol = some b → ∀ p, b.Held p → (b.heap p).id = o.id →
      (b.heap p).Reportable localtime) : FrameInv localtime (sv.acknowledge s o) := by
  refine ⟨h.held, fun {symbol b} hb p hp hown => ?_, h.posted, h.row, h.object⟩
  by_cases he : (b.heap p).id = o.id
  · exact ho hb p hp he
  · have hown : ((sv.orderOwners.insert o.id (sv.clientId s)).find? (b.heap p).id).isSome := hown
    rw [SortedMap.find?_insert, if_neg he] at hown
    exact h.owned hb p hp hown

theorem booted (h : FrameInv localtime sv) (hb : Booted env sv sv') : FrameInv localtime sv' := by
  refine h.step (fun {symbol b} hx p hp => ?_) (fun id ho => ?_) (by rw [hb.posted]; exact List.nil_subset _) hb.orders
  · rw [hb.orderbooks] at hx
    split_ifs at hx
    cases hx
    exact absurd ((empty_inv symbol defaultTickSize).alloc (.inl hp)) (Nat.not_lt_zero p)
  · rw [hb.orderOwners] at ho
    cases ho

/-- The restore loop; the rows it goes through were read before it. -/
theorem restored {rows : List OrderRow} (hr : Restored env rows sv sv') (hR : Restoring rows sv) (h : FrameInv localtime sv)
    (hrows : ∀ r ∈ rows, (r.noticeLength ≤ maxMessageSize ∧ columnInt r.remainingQuantity ≤ columnInt r.quantity) ∧
      ∀ r' ∈ sv.disk.orders, r'.id = r.id → r'.quantity = r.quantity) : FrameInv localtime sv' := by
  induction hr with
  | nil => exact h
  | skip _ _ ih => exact ih hR.skip h fun r hr => hrows r (List.mem_cons_of_mem _ hr)
  | @add r rows sv sv₁ sv' b out ha _ ih =>
    obtain ⟨⟨hn, hle⟩, hq⟩ := hrows r (List.mem_cons_self ..)
    have hquantity := restoreOrder_quantity env.now r
    refine ih (hR.add ha) (h.added hR.toIdInv ha ?_ ?_ ?_ (hR.noOwner _) fun r' hr' hid => ?_) fun x hx => ?_
    · rw [restoreOrder_id]
      exact (hR.todo r (List.mem_cons_self ..)).1
    · rw [hquantity, restoreOrder_remainingQuantity]
    · have hdigits := digitCount_mono (UInt32.le_iff_toNat_le.1 hle)
      refine le_trans ?_ hn
      unfold Order.noticeLength OrderRow.noticeLength
      rw [restoreOrder_symbol, (restoreOrder_static env.now r).2.2, hquantity]
      omega
    · rw [restoreOrder_id] at hid
      rw [hquantity, hq r' hr' hid.symm]
      exact hle
    · obtain ⟨h1, h2⟩ := hrows x (List.mem_cons_of_mem _ hx)
      refine ⟨h1, fun r' hr' hid => ?_⟩
      obtain ⟨r₀, hr₀, hid₀, hq₀⟩ := ha.dispatched.row_origin hr'
      rw [← hq₀]
      exact h2 r₀ hr₀ (hid₀.trans hid)

section Submitted

variable {s : SessionPtr} {m : OrderSubmitMessage} {b : OrderBook ℚ} {out : AddOutcome ℚ}

/-- The order of a submission after the call: it can be told. -/
theorem submitted_reportable (ha : Added env (submittedOrder env m b.tickSize) b out sv sv')
    (hlen : (submittedOrder env m b.tickSize).reportLength ≤ maxMessageSize)
    (hnow : Wire.timeLength localtime env.now = 23) : (out.state.heap b.nextPtr).Reportable localtime := by
  have hr : (submittedOrder env m b.tickSize).Reportable localtime := ⟨hnow, hlen⟩
  have hs := ha.call.static b.nextPtr
  have hpriced := ha.call.priced b.nextPtr
  have hwait := ha.call.untriggered b.nextPtr
  cases hacc : out.accepted with
  | true =>
    have hl := ha.call.live hacc
    rw [alloc_heap_self] at hs hpriced hwait hl
    refine hr.later hs hpriced hwait fun h0 => ?_
    have hpos : 0 < (submittedOrder env m b.tickSize).quantity := hl.remaining
    rw [h0] at hpos
    exact absurd hpos (by decide)
  | false =>
    rw [(ha.call.refused hacc).1, alloc_heap_self]
    exact hr

/-- A submission, up to the call that adds its order: what it keeps, and what it says. -/
theorem submitted_added (h : FrameInv localtime sv) (hs : Sound sv) (hI : IdInv sv) (hO : OwnInv none sv)
    (hsess : s < sv.nextSession)
    (ha : Added env (submittedOrder env m b.tickSize) b out
      (sv.saveSubmission env ⟨generateUuid env.uuid, s, m, b.tickSize⟩ (submittedOrder env m b.tickSize)) sv')
    (hnew : generateUuid env.uuid ∉ sv.uuids)
    (hlen : (submittedOrder env m b.tickSize).reportLength ≤ maxMessageSize)
    (hnow : Wire.timeLength localtime env.now = 23) : FrameInv localtime sv' ∧ Framed localtime env.now sv sv' := by
  have hn : (submittedOrder env m b.tickSize).noticeLength ≤ maxMessageSize :=
    le_trans (le_trans (Nat.le_add_right _ 8) (Order.noticeLength_le _)) hlen
  have hI₂ := hI.saved hsess m b.tickSize hnew
  have hmem := (mem_saveSubmission sv env ⟨generateUuid env.uuid, s, m, b.tickSize⟩ (submittedOrder env m b.tickSize)).1
  have hown := hO.submitted_unowned hI hnew ⟨generateUuid env.uuid, s, m, b.tickSize⟩ (submittedOrder env m b.tickSize)
  have h₂ := h.saved hs hI (s := s) hn hnew
  have hs₂ := hs.saveSubmission env ⟨generateUuid env.uuid, s, m, b.tickSize⟩ (submittedOrder env m b.tickSize)
  constructor
  · refine h₂.added hI₂ ha hmem rfl hn hown fun r hr hid => ?_
    rcases mem_saveSubmission_orders hr with hr | rfl
    · have hid : generateUuid env.uuid = r.id := hid
      exact absurd (hid ▸ hI.rows r hr) hnew
    · show _ ≤ columnInt (bindInt _)
      rw [columnInt_bindInt]
      exact UInt32.le_refl _
  · have hsaved : Framed localtime env.now sv
        (sv.saveSubmission env ⟨generateUuid env.uuid, s, m, b.tickSize⟩ (submittedOrder env m b.tickSize)) := by
      obtain ⟨disk, n, heq, -⟩ := saveSubmission_eq sv env ⟨generateUuid env.uuid, s, m, b.tickSize⟩
        (submittedOrder env m b.tickSize)
      rw [heq]
      exact .of_eq rfl
    exact hsaved.trans (h₂.added_framed hs₂ hI₂ ha hmem rfl hn hown hnow)

/-- The report of a submission. -/
theorem submitted_report (h : FrameInv localtime sv) (hs : Sound sv) (hI : IdInv sv)
    (ha : Added env (submittedOrder env m b.tickSize) b out
      (sv.saveSubmission env ⟨generateUuid env.uuid, s, m, b.tickSize⟩ (submittedOrder env m b.tickSize)) sv')
    (hnew : generateUuid env.uuid ∉ sv.uuids)
    (hlen : (submittedOrder env m b.tickSize).reportLength ≤ maxMessageSize)
    (hnow : Wire.timeLength localtime env.now = 23) :
    Sendable ((Response.orderStatus (out.state.heap b.nextPtr).statusMessage).payload localtime env.now) := by
  have hn : (submittedOrder env m b.tickSize).noticeLength ≤ maxMessageSize :=
    le_trans (le_trans (Nat.le_add_right _ 8) (Order.noticeLength_le _)) hlen
  have hr := submitted_reportable ha hlen hnow
  have hid : (out.state.heap b.nextPtr).id.utf8ByteSize = 36 := by
    rw [(ha.call.static b.nextPtr).id, alloc_heap_self]
    exact length_generateUuid env.uuid
  cases hacc : out.accepted with
  | true => exact ((h.saved hs hI hn hnew).called ha rfl hn hacc (.inr rfl)).1.report hr hid
  | false =>
    have h0 : m.quantity = 0 := by
      by_contra hne
      rw [(hI.submitted_accepted ha hnew).2 hne] at hacc
      cases hacc
    have heq : out.state.heap b.nextPtr = submittedOrder env m b.tickSize := by
      rw [(ha.call.refused hacc).1, alloc_heap_self]
    rw [heq] at hr hid ⊢
    exact report_refused hr hid rfl rfl h0

theorem submitted_acknowledge (h : FrameInv localtime sv') (hs' : Sound sv') (hI : IdInv sv)
    (ha : Added env (submittedOrder env m b.tickSize) b out
      (sv.saveSubmission env ⟨generateUuid env.uuid, s, m, b.tickSize⟩ (submittedOrder env m b.tickSize)) sv')
    (hnew : generateUuid env.uuid ∉ sv.uuids)
    (hlen : (submittedOrder env m b.tickSize).reportLength ≤ maxMessageSize)
    (hnow : Wire.timeLength localtime env.now = 23) :
    FrameInv localtime (sv'.acknowledge s (out.state.heap b.nextPtr)) := by
  refine h.acknowledge fun {symbol y} hy p hp hid => ?_
  have hnid : (out.state.heap b.nextPtr).id = generateUuid env.uuid := by
    rw [(ha.call.static b.nextPtr).id, alloc_heap_self]
    rfl
  obtain ⟨-, heq⟩ := ha.submitted_live hI hnew hy ((hs'.books hy).index.2 ⟨hid.trans hnid, .inl hp⟩)
  rw [heq]
  exact submitted_reportable ha hlen hnow

end Submitted

end FrameInv

theorem setTickSize_held {b : OrderBook ℚ} {tickSize : ℚ} {p : OrderPtr} : (b.setTickSize tickSize).Held p ↔ b.Held p := by
  unfold OrderBook.setTickSize
  split_ifs <;> rfl

/-- A short submission to a book: its order's reports fit. -/
theorem Short.submitted {sv sv₁ : Server} {env : Env} {s : SessionPtr} {m : OrderSubmitMessage} {b : OrderBook ℚ}
    (h : sv.Short (env, .message s (.orderSubmit m))) (hs : sv.hasSession s = true)
    (hauth : (sv.requireAuth s "trade").1 = true) (hq : Quiet sv sv₁) (hb : sv₁.orderbooks.find? m.symbol = some b) :
    (submittedOrder env m b.tickSize).reportLength ≤ maxMessageSize := by
  have hlen := h hs hauth
  rw [← hq.orderbooks, hb] at hlen
  exact hlen

theorem Effect.frameInv {localtime : Int → Wire.Tm} {env : Env} {ev : Event} {sv sv' : Server} (he : Effect env ev sv sv')
    (hs : Sound sv) (hI : IdInv sv) (hO : OwnInv none sv) (h : FrameInv localtime sv) (hnd : sv'.uuids.Nodup)
    (hnow : Wire.timeLength localtime env.now = 23) (hshort : sv.Short (env, ev)) : FrameInv localtime sv' := by
  cases he with
  | quiet hq => exact h.quiet hq
  | connected => exact h.step (fun hb p hp => ⟨_, hb, hp, rfl⟩) (fun _ ho => ho) (fun _ h => h) rfl
  | closed _ =>
    refine h.step (fun hb p hp => ⟨_, hb, hp, rfl⟩) (fun id hx => ?_) (fun _ h => h) rfl
    unfold removeSession at hx
    dsimp only at hx
    rw [SortedMap.find?_filterMapVals] at hx
    obtain ⟨c, hc⟩ := Option.isSome_iff_exists.1 hx
    obtain ⟨c', hc', -⟩ := Option.bind_eq_some_iff.1 hc
    exact Option.isSome_iff_exists.2 ⟨c', hc'⟩
  | created h₁ _ h₂ =>
    refine ((h.quiet h₁).setBook fun p hp => ?_).quiet h₂
    exact absurd ((empty_inv _ _).alloc (.inl hp)) (Nat.not_lt_zero p)
  | ticked hb =>
    exact h.setBook fun p hp => ⟨_, hb, setTickSize_held.1 hp, by rw [setTickSize_heap]⟩
  | @submitted _ sv₁ sv₂ s m b out hsess hauth h₁ ha =>
    have hs₁ : s < sv₁.nextSession := by rw [h₁.nextSession]; exact hasSession_lt hsess
    have hnew := submitted_new ha hnd
    have hlen := Short.submitted hshort hsess hauth h₁ (saveSubmission_orderbooks .. ▸ ha.book)
    have hI₁ := hI.quiet h₁
    have hsound₁ := h₁.sound hs
    have h₂ := ((h.quiet h₁).submitted_added hsound₁ hI₁ (hO.quiet h₁) hs₁ ha hnew hlen hnow).1
    exact h₂.submitted_acknowledge (ha.sound (hsound₁.saveSubmission ..)) hI₁ ha hnew hlen hnow
  | cancelled _ h₁ _ hc => exact (h.quiet h₁).cancelled (hI.quiet h₁) hc
  | reported _ h₁ _ _ _ =>
    exact (h.quiet h₁).step (fun hb p hp => ⟨_, hb, hp, rfl⟩) (fun _ ho => ho) (fun _ h => h) rfl
  | @generated _ g d hg =>
    have hn := hshort g hg
    unfold generate
    rw [hg]
    refine ⟨h.held, h.owned, fun o ho => ?_, h.row, h.object⟩
    rcases List.mem_append.1 ho with ho | ho
    · exact h.posted o ho
    · rw [List.mem_singleton.1 ho]
      exact ⟨rfl, hn⟩
  | dropped hp =>
    refine h.step (fun hb p hp => ⟨_, hb, hp, rfl⟩) (fun _ ho => ho) (fun o ho => ?_) rfl
    rw [hp]
    exact List.mem_cons_of_mem _ ho
  | @posted _ _ o rest b out hp ha =>
    have hmem : o ∈ sv.posted := by rw [hp]; exact List.mem_cons_self ..
    have hpop : FrameInv localtime { sv with posted := rest } :=
      h.step (fun hb p hp => ⟨_, hb, hp, rfl⟩) (fun _ ho => ho) (fun x hx => by rw [hp]; exact List.mem_cons_of_mem _ hx) rfl
    obtain ⟨hrem, hn⟩ := h.posted o hmem
    exact hpop.added (hI.popPosted hp) ha (hI.posted o hmem).1 hrem hn (hO.posted_unowned hI hmem) fun r hr hid =>
      absurd hid.symm (hI.postedRow o hmem r hr)
  | generatorCancelled h₁ hc => exact (h.quiet h₁).cancelled (hI.quiet h₁) hc
  | restarted hb hr hq =>
    have h₁ := h.booted hb
    refine (FrameInv.restored hr (hI.booted hb) h₁ fun r hr => ?_).quiet hq
    split_ifs at hr
    · have hr' := (mem_activeRows.1 hr).1
      refine ⟨h₁.row r hr', fun r' hr'' hid => ?_⟩
      rw [List.inj_on_of_nodup_map (hI.booted hb).rowsNodup hr'' hr' hid]
    · cases hr

/-! ## The handlers -/

section Handlers

variable {localtime : Int → Wire.Tm} {now : Int} {sv : Server} {s : SessionPtr}

theorem error_sendable {errorCode description : String} (h : 35 + errorCode.utf8ByteSize + description.utf8ByteSize ≤ maxMessageSize) :
    Sendable ((Response.error errorCode description).payload localtime now) :=
  sendable_of_le (length_error errorCode description) (by omega) h

theorem requireAuth_framed {permission : String} (hp : permission.utf8ByteSize ≤ 5) :
    Framed localtime now sv (sv.requireAuth s permission).2 := by
  unfold requireAuth
  dsimp only
  split_ifs
  · exact .of_eq rfl
  · exact .of_eq rfl
  · exact .sendMessage s (error_sendable (by decide))
  · refine .sendMessage s (error_sendable ?_)
    have h1 : "PERMISSION_DENIED".utf8ByteSize = 17 := by decide
    have h2 : "Missing permission: ".utf8ByteSize = 20 := by decide
    rw [String.utf8ByteSize_append, h1, h2]
    unfold maxMessageSize
    omega
  · exact .of_eq rfl

theorem login_framed (env : Env) {username permissions : String} :
    Framed localtime now sv (sv.login env username permissions s) ↔ username.utf8ByteSize + 108 ≤ maxMessageSize := by
  unfold login
  refine (Framed.sendMessage_iff rfl).trans ?_
  rw [sendable_iff (length_loginResponse ..) (by omega), length_generateUuid, String.utf8ByteSize_empty]
  show 68 + 4 + 36 + _ + 0 ≤ _ ↔ _
  omega

theorem handleLogin_framed (env : Env) {username password : String} :
    Framed localtime now sv (sv.handleLogin env username password s) ↔
      username.utf8ByteSize + (if sv.loginSucceeds username password then 108 else 92) ≤ maxMessageSize := by
  unfold handleLogin loginSucceeds
  cases ho : sv.storeOpen with
  | false => exact login_framed env
  | true =>
    by_cases hok : (decide (username = "guest") || sv.disk.authenticateUser username password) = true
    · rw [if_neg (by simp), if_pos hok, if_pos (by simpa using hok)]
      cases sv.disk.getUser username with
      | none => exact login_framed env
      | some user => exact login_framed env
    · rw [if_neg (by simp), if_neg hok, if_neg (by simpa using hok), Framed.sendMessage_iff rfl,
        sendable_iff (length_loginResponse ..) (by omega), String.utf8ByteSize_empty]
      show 68 + 5 + 0 + _ + 19 ≤ _ ↔ _
      omega

theorem register_refused_iff {username text : String} :
    Sendable ((Response.registerResponse false username text).payload localtime now) ↔
      61 + username.utf8ByteSize + text.utf8ByteSize ≤ maxMessageSize := by
  rw [sendable_iff (length_registerResponse ..) (by omega)]
  show 56 + 5 + _ + _ ≤ _ ↔ _
  omega

/-- The longest text is that of a name or a password that is too long; a name that may be registered is short. -/
theorem handleRegister_framed (env : Env) {username password : String} :
    Framed localtime now sv (sv.handleRegister env username password s) ↔
      username.utf8ByteSize + (if password.isEmpty then 85 else 90) ≤ maxMessageSize := by
  unfold handleRegister
  dsimp only
  by_cases hu : username.isEmpty = true
  · have hsize : username.utf8ByteSize = 0 := by
      rw [String.isEmpty_iff.1 hu]
      rfl
    rw [if_pos hu, Framed.sendMessage_iff rfl, register_refused_iff, hsize]
    refine iff_of_true (by decide) ?_
    split_ifs <;> decide
  rw [if_neg hu]
  by_cases hp : password.isEmpty = true
  · rw [if_pos hp, if_pos hp, Framed.sendMessage_iff rfl, register_refused_iff]
    show 61 + _ + 24 ≤ _ ↔ _
    omega
  rw [if_neg hp, if_neg hp]
  by_cases hlong : (decide (64 < username.utf8ByteSize) || decide (128 < password.utf8ByteSize)) = true
  · rw [if_pos hlong, Framed.sendMessage_iff rfl, register_refused_iff]
    show 61 + _ + 29 ≤ _ ↔ _
    omega
  rw [if_neg hlong]
  simp only [Bool.or_eq_true, decide_eq_true_eq, not_or, Nat.not_lt] at hlong
  refine iff_of_true ?_ (by unfold maxMessageSize; omega)
  have hshort : ∀ {text : String}, text.utf8ByteSize ≤ 100 →
      Sendable ((Response.registerResponse false username text).payload localtime now) :=
    fun {text} ht => register_refused_iff.2 (by unfold maxMessageSize; omega)
  by_cases hst : sv.storeOpen = true
  · rw [if_neg (by simp [hst])]
    by_cases htaken : (sv.disk.getUser username).isSome = true
    · rw [if_pos htaken]
      exact .sendMessage s (hshort (by decide))
    rw [if_neg htaken]
    obtain ⟨disk, n, hw, -⟩ := write_eq sv env (Db.saveUser · ⟨username, password, "trade,view"⟩ (env.salts 0))
    rw [hw]
    split_ifs
    · refine (Framed.sendMessage_iff rfl).2 (sendable_of_le (length_registerResponse ..) (by omega) ?_)
      show 56 + 4 + _ + 0 ≤ _
      unfold maxMessageSize
      omega
    · exact (Framed.sendMessage_iff rfl).2 (hshort (by decide))
  · rw [if_pos (by simp [hst])]
    exact .sendMessage s (hshort (by decide))

theorem handleSnapshotRequest_framed {symbol : String} :
    Framed localtime now sv (sv.handleSnapshotRequest symbol s) ↔
      44 + symbol.utf8ByteSize + (sv.orderbooks.find? symbol).elim 0 OrderBook.levelsLength ≤ maxMessageSize := by
  unfold handleSnapshotRequest createOrderbook getOrderbook
  dsimp only
  cases hb : (sv.subscribe s symbol).orderbooks.find? symbol with
  | some b =>
    rw [show sv.orderbooks.find? symbol = some b from hb]
    simp only [Option.isSome_some, if_true, Bool.not_true, Bool.false_eq_true, if_false, hb]
    exact (Framed.sendMessage_iff rfl).trans (sendable_iff (length_snapshotMessage symbol b) (by omega))
  | none =>
    rw [show sv.orderbooks.find? symbol = none from hb]
    simp only [Option.isSome_none, Bool.false_eq_true, if_false, Bool.not_true]
    have hself : ((sv.subscribe s symbol).setBook symbol (.new symbol defaultTickSize)).orderbooks.find? symbol =
        some (.new symbol defaultTickSize) := SortedMap.find?_insert_self ..
    rw [hself]
    exact (Framed.sendMessage_iff rfl).trans (sendable_iff (length_snapshotMessage symbol _) (by omega))

theorem handleOrderStatus_framed (h : FrameInv localtime sv) (hs : Sound sv) (hI : IdInv sv) (id : String) :
    Framed localtime now sv (sv.handleOrderStatus id s) := by
  unfold handleOrderStatus
  by_cases howns : sv.owns s id = true
  · rw [if_pos howns]
    cases hf : sv.orderbooks.entries.findSome? fun e => (e.2.getOrder id).map e.2.heap with
    | none => exact .sendMessage s (error_sendable (by decide))
    | some o =>
      obtain ⟨⟨symbol, b⟩, he, hm⟩ := List.exists_of_findSome?_eq_some hf
      obtain ⟨p, hp, rfl⟩ := Option.map_eq_some_iff.1 hm
      have hb : sv.orderbooks.find? symbol = some b := SortedMap.find?_eq_some_iff.2 he
      obtain ⟨hid, hheld⟩ := (hs.books hb).index.1 hp
      have hheld : b.Held p := hheld.resolve_right List.not_mem_nil
      have hown : (sv.orderOwners.find? (b.heap p).id).isSome := by
        rw [hid, of_decide_eq_true howns]
        rfl
      obtain ⟨d, hd⟩ := hI.drawn _ (hI.live (live_of_held hb (hs.books hb) hheld))
      exact .sendMessage s ((h.held hb p hheld).1.report (h.owned hb p hheld hown) (hd ▸ length_generateUuid d))
  · rw [if_neg howns]
    exact .sendMessage s (error_sendable (by decide))

theorem handleOrderCancel_framed {env : Env} (h : FrameInv localtime sv) (hs : Sound sv) (hI : IdInv sv) (id : String) :
    Framed localtime now sv (sv.handleOrderCancel env id s) := by
  unfold handleOrderCancel
  by_cases howns : sv.owns s id = true
  · rw [if_pos howns]
    rcases cancelLoop_effect hs env id sv.orderbooks.entries fun e he => SortedMap.find?_eq_some_iff.2 he with
      ⟨h1, -⟩ | ⟨symbol, b, p, b', sv', h1, hc⟩
    · rw [h1]
      exact .sendMessage s (error_sendable (by decide))
    · rw [h1]
      exact h.cancelled_framed hI hc
  · rw [if_neg howns]
    exact .sendMessage s (error_sendable (by decide))

theorem unknownSymbol_framed {symbol : String} :
    Framed localtime now sv (sv.sendMessage s (.error "INVALID_SYMBOL" ("Orderbook not found for symbol: " ++ symbol))) ↔
      81 + symbol.utf8ByteSize ≤ maxMessageSize := by
  rw [Framed.sendMessage_iff rfl, sendable_iff (length_error ..) (by omega), String.utf8ByteSize_append]
  show 35 + 14 + (32 + _) ≤ _ ↔ _
  omega

theorem handleOrderSubmit_framed {env : Env} {m : OrderSubmitMessage} {sv' : Server} (h : FrameInv localtime sv)
    (hs : Sound sv) (hI : IdInv sv) (hO : OwnInv none sv) (hsess : s < sv.nextSession)
    (hlen : (sv.orderbooks.find? m.symbol).elim (81 + m.symbol.utf8ByteSize)
      (fun b => (submittedOrder env m b.tickSize).reportLength) ≤ maxMessageSize)
    (hnow : Wire.timeLength localtime env.now = 23) (hrun : sv.handleOrderSubmit env m s = some sv')
    (hnd : sv'.uuids.Nodup) : Framed localtime env.now sv sv' := by
  cases hb : sv.orderbooks.find? m.symbol with
  | none =>
    rw [hb] at hlen
    unfold handleOrderSubmit getOrderbook at hrun
    rw [hb] at hrun
    cases hrun
    exact unknownSymbol_framed.2 hlen
  | some b =>
    rw [hb] at hlen
    obtain ⟨out, sv₁, h1, ha⟩ := handleOrderSubmit_added env hs hb s
    cases h1.symm.trans hrun
    have hq := Quiet.subscribe sv s m.symbol
    have hnew := submitted_new ha hnd
    have hsub : Framed localtime env.now sv (sv.subscribe s m.symbol) := .of_eq rfl
    refine (hsub.trans ((h.quiet hq).submitted_added (hq.sound hs) (hI.quiet hq) (hO.quiet hq) hsess ha hnew hlen hnow).2).trans ?_
    unfold acknowledge
    exact (Framed.of_eq rfl).trans (.sendMessage s ((h.quiet hq).submitted_report (hq.sound hs) (hI.quiet hq) ha hnew hlen hnow))

theorem handleMessage_framed {env : Env} {m : Request} {sv' : Server} (h : FrameInv localtime sv) (hs : Sound sv)
    (hI : IdInv sv) (hO : OwnInv none sv) (hsess : sv.hasSession s = true) (hshort : sv.ShortRequest env s m)
    (hnow : Wire.timeLength localtime env.now = 23) (hrun : sv.handleMessage env m s = some sv') (hnd : sv'.uuids.Nodup) :
    Framed localtime env.now sv sv' := by
  have hauth : ∀ {permission : String}, permission.utf8ByteSize ≤ 5 →
      Framed localtime env.now sv (sv.requireAuth s permission).2 := requireAuth_framed
  cases m with
  | login username password =>
    cases hrun
    exact (handleLogin_framed env).2 hshort
  | register username password =>
    cases hrun
    exact (handleRegister_framed env).2 hshort
  | snapshotRequest symbol =>
    have hq := Quiet.requireAuth sv s "view"
    unfold handleMessage at hrun
    dsimp only at hrun
    split_ifs at hrun with hok
    · cases hrun
      refine (hauth (by decide)).trans (handleSnapshotRequest_framed.2 ?_)
      rw [hq.orderbooks]
      exact hshort hok
    · cases hrun
      exact hauth (by decide)
  | orderSubmit m =>
    have hq := Quiet.requireAuth sv s "trade"
    unfold handleMessage at hrun
    dsimp only at hrun
    split_ifs at hrun with hok
    · refine (hauth (by decide)).trans (handleOrderSubmit_framed (h.quiet hq) (hq.sound hs) (hI.quiet hq) (hO.quiet hq) ?_ ?_
        hnow hrun hnd)
      · rw [hq.nextSession]
        exact hasSession_lt hsess
      · rw [hq.orderbooks]
        exact hshort hok
    · cases hrun
      exact hauth (by decide)
  | orderCancel id c =>
    have hq := Quiet.requireAuth sv s "trade"
    unfold handleMessage at hrun
    dsimp only at hrun
    split_ifs at hrun
    · cases hrun
      exact (hauth (by decide)).trans (handleOrderCancel_framed (h.quiet hq) (hq.sound hs) (hI.quiet hq) id)
    · cases hrun
      exact hauth (by decide)
  | orderStatus id c =>
    have hq := Quiet.requireAuth sv s "view"
    unfold handleMessage at hrun
    dsimp only at hrun
    split_ifs at hrun
    · cases hrun
      exact (hauth (by decide)).trans (handleOrderStatus_framed (h.quiet hq) (hq.sound hs) (hI.quiet hq) id)
    · cases hrun
      exact hauth (by decide)
  | other =>
    cases hrun
    exact .sendMessage s (error_sendable (by decide))

end Handlers

/-! ## Runs -/

/-- In a history of short requests, everything that the server says while it handles a request fits in a frame. -/
theorem run_sendable (localtime : Int → Wire.Tm) (config : Config) (env : Env) (evs : List (Env × Event))
    (hclock : ∀ x ∈ (env, Event.restart) :: evs, Wire.timeLength localtime x.1.now = 23)
    (hshort : Machine.Along step Short (initial config) ((env, .restart) :: evs)) :
    ∃ sv, run config env evs = some sv ∧ (sv.uuids.Nodup →
      ∀ pre e s m, pre ++ [(e, .message s m)] <+: (env, .restart) :: evs → ∃ sv₀ sv₁,
        pre.foldlM step (initial config) = some sv₀ ∧ step sv₀ (e, .message s m) = some sv₁ ∧
          Framed localtime e.now sv₀ sv₁) := by
  have hnil : ∀ {pre : List (Env × Event)} {e s m}, ¬ pre ++ [(e, Event.message s m)] <+: [] := fun {pre e s m} h => by
    simp [List.prefix_nil] at h
  refine (run_rule_along config env evs hshort
    (K := fun done sv => done.foldlM step (initial config) = some sv ∧ (sv.uuids.Nodup →
      (IdInv sv ∧ OwnInv none sv ∧ FrameInv localtime sv) ∧ ∀ pre e s m, pre ++ [(e, .message s m)] <+: done →
        ∃ sv₀ sv₁, pre.foldlM step (initial config) = some sv₀ ∧ step sv₀ (e, .message s m) = some sv₁ ∧
          Framed localtime e.now sv₀ sv₁))
    ⟨rfl, fun _ => ⟨⟨.initial config, .initial config, .initial config⟩, fun _ _ _ _ h => absurd h hnil⟩⟩ ?_).imp
    fun sv ⟨hrun, _, _, hK⟩ => ⟨hrun, fun hnd => (hK hnd).2⟩
  rintro done e ev sv sv' hpre hdone hs ⟨hrun₀, hK⟩ hc he hs'
  refine ⟨hdone, fun hnd => ?_⟩
  obtain ⟨⟨hI, hO, hF⟩, hsaid⟩ := hK (he.uuids.sublist.nodup hnd)
  have hnow := hclock (e, ev) (hpre.subset (by simp))
  refine ⟨⟨he.idInv hI hnd, he.ownInv hs hI hO hnd, he.frameInv hs hI hO hF hnd hnow hc⟩, fun pre e' s m hp => ?_⟩
  rcases List.prefix_concat_iff.1 hp with heq | hp
  · -- the last event
    obtain ⟨rfl, hlast⟩ := List.append_inj' heq rfl
    cases hlast
    obtain ⟨t, ht, hstep⟩ := Machine.foldlM_append_some.1 hdone
    cases hrun₀.symm.trans ht
    rw [List.foldlM_cons] at hstep
    obtain ⟨t', hstep, ht'⟩ := Option.bind_eq_some_iff.1 hstep
    cases ht'
    refine ⟨sv, sv', hrun₀, hstep, ?_⟩
    unfold Server.step at hstep
    dsimp only at hstep
    split_ifs at hstep with hsess
    · exact handleMessage_framed hF hs hI hO hsess (hc hsess) hnow hstep hnd
    · cases hstep
      exact .of_eq rfl
  · exact hsaid pre e' s m hp

/-- A subscriber sells, and buys a part of it himself. -/
def sampleTrade : List (Env × Event) :=
  [(sampleEnv true 1, .connect), (sampleEnv true 2, .message 0 (.snapshotRequest "SYM")),
    (sampleEnv true 3, .message 0 (sampleSubmit .sell .limit 100 0 5)),
    (sampleEnv true 4, .message 0 (sampleSubmit .buy .market 0 0 2))]

/-- Each message of the history is framed; the last one sends a notification and two reports. -/
theorem run_sendable_sampleTrade :
    ∃ sv₀ sv₁, ((sampleEnv true 0, Event.restart) :: sampleTrade.take 3).foldlM step (initial sampleConfig) = some sv₀ ∧
      step sv₀ (sampleEnv true 4, .message 0 (sampleSubmit .buy .market 0 0 2)) = some sv₁ ∧
      sv₁.sent.length = sv₀.sent.length + 3 ∧ Framed Wire.sampleClock (sampleEnv true 4).now sv₀ sv₁ := by
  obtain ⟨sv, hrun, h⟩ := run_sendable Wire.sampleClock sampleConfig (sampleEnv true 0) sampleTrade
    (by decide +kernel) (by decide +kernel)
  have hnd : (run sampleConfig (sampleEnv true 0) sampleTrade).map (fun sv => decide sv.uuids.Nodup) = some true := by
    decide +kernel
  rw [hrun, Option.map_some, Option.some.injEq, decide_eq_true_eq] at hnd
  obtain ⟨sv₀, sv₁, h₀, h₁, hframed⟩ := h hnd ((sampleEnv true 0, .restart) :: sampleTrade.take 3) (sampleEnv true 4) 0
    (sampleSubmit .buy .market 0 0 2) (List.prefix_refl _)
  have hsent : (((sampleEnv true 0, Event.restart) :: sampleTrade.take 3).foldlM step (initial sampleConfig)).bind (fun sv₀ =>
      (step sv₀ (sampleEnv true 4, .message 0 (sampleSubmit .buy .market 0 0 2))).map fun sv₁ =>
        decide (sv₁.sent.length = sv₀.sent.length + 3)) = some true := by decide +kernel
  rw [h₀, Option.bind_some, h₁, Option.map_some, Option.some.injEq, decide_eq_true_eq] at hsent
  exact ⟨sv₀, sv₁, h₀, h₁, hsent, hframed⟩

/-- A name that leaves room for itself in a request, but not in the answer. -/
def longName : String := String.ofList (List.replicate 1048500 'a')

theorem longName_size : longName.utf8ByteSize = 1048500 := by
  unfold longName
  rw [← length_encodeUtf8, String.toList_ofList, length_encodeUtf8_ascii, List.length_replicate]
  intro c hc
  rw [List.eq_of_mem_replicate hc]
  decide

theorem newline_not_mem_longName : newline ∉ bytes longName := by
  intro h
  unfold bytes longName encodeUtf8 at h
  rw [String.toList_ofList] at h
  obtain ⟨c, hc, hb⟩ := List.mem_flatMap.1 h
  rw [List.eq_of_mem_replicate hc] at hb
  exact absurd hb (by decide)

theorem login_sendable {localtime : Int → Wire.Tm} {username password : String}
    (h : 30 + username.utf8ByteSize + password.utf8ByteSize ≤ maxMessageSize) :
    Sendable ((Wire.Message.login ⟨bytes username, bytes password⟩).serialize localtime) := by
  refine sendable_of_le (Wire.LoginMessage.length_serialize ⟨bytes username, bytes password⟩) (by omega) ?_
  rw [length_bytes, length_bytes]
  exact h

/-- The request fits in a frame, and what answers it does not. -/
theorem run_sendable_fails :
    ∃ sv sv', run sampleConfig (sampleEnv true 0) [(sampleEnv true 1, .connect)] = some sv ∧ sv.hasSession 0 = true ∧
      Sendable ((Wire.Message.login ⟨bytes longName, bytes ""⟩).serialize Wire.sampleClock) ∧
      Wire.parseMessage (fun _ => 0) ((Wire.Message.login ⟨bytes longName, bytes ""⟩).serialize Wire.sampleClock) =
        .login ⟨bytes longName, bytes ""⟩ ∧
      step sv (sampleEnv true 2, .message 0 (.login longName "")) = some sv' ∧
      ¬ Framed Wire.sampleClock (sampleEnv true 2).now sv sv' := by
  have hsize := longName_size
  have hline := newline_not_mem_longName
  -- from here on, only its size matters
  generalize longName = username at hsize hline ⊢
  have hempty : newline ∉ bytes "" := by decide
  have hsess : (run sampleConfig (sampleEnv true 0) [(sampleEnv true 1, .connect)]).map (·.hasSession 0) = some true := by
    decide +kernel
  obtain ⟨sv, hrun, hsess⟩ := Option.map_eq_some_iff.1 hsess
  refine ⟨sv, sv.handleLogin (sampleEnv true 2) username "" 0, hrun, hsess, ?_,
    Wire.LoginMessage.parse_serialize _ _ hline hempty, ?_, fun h => ?_⟩
  · have hfits : 30 + username.utf8ByteSize + "".utf8ByteSize ≤ maxMessageSize := by
      rw [hsize, String.utf8ByteSize_empty]
      unfold maxMessageSize
      omega
    exact login_sendable hfits
  · unfold step
    dsimp only
    rw [if_pos hsess]
    rfl
  · have hlen := (handleLogin_framed (sampleEnv true 2)).1 h
    rw [hsize] at hlen
    unfold maxMessageSize at hlen
    split_ifs at hlen <;> omega

end Server

end OrderbookGC
