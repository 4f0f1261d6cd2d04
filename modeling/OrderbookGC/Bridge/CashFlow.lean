/-
The PnL dashboard against the server's trades. The tracker prices every fill with the price in the
status message, which is the order's own: 0 for a market or a stop order, the limit for an order that
traded at a better price. So its positions are worth what the trades of the session came to as long as
the session's orders trade at the prices they were booked with, while it is connected
(`run_cashFlow`), and a single market order is enough to break that (`marketBuy_cashFlow`).
-/
import OrderbookGC.Bridge.PnlTracker
import OrderbookGC.Server.Fills
import OrderbookGC.Wire.BridgeReads
import Mathlib.Algebra.BigOperators.Ring.Finset
import Mathlib.Algebra.BigOperators.Ring.List

namespace OrderbookGC

open Container

/-! ## From the server to the tracker -/

namespace Bridge

open Text Wire

/-- `msg.get(key)`. -/
def PyDict.get? {α : Type} (d : PyDict α) (key : String) : Option (PyValue α) := (d.find? (·.1 = key)).map (·.2)

/-- What the tracker reads in a dictionary. -/
def OrderStatus.ofDict (d : PyDict Char) : OrderStatus :=
  let str (key : String) := (d.get? key).bind fun v => match v with
    | .str s => some (String.ofList s)
    | _ => none
  { orderId := str "order_id", symbol := str "symbol", side := str "side", orderType := str "order_type"
    price := (d.get? "price").bind fun v => match v with
      | .float (.finite x) => some x
      | _ => none
    filledQuantity := (d.get? "filled_quantity").bind fun v => match v with
      | .int i => some i
      | _ => none }

/-- The status message of the server as the tracker gets it; prices come with two decimals. -/
def OrderStatus.received (m : OrderbookGC.OrderStatusMessage) : OrderStatus :=
  { orderId := some m.orderId, symbol := some m.symbol, side := some (sideToWireString m.side)
    price := some (shownPrice m.price), filledQuantity := some m.filledQuantity.toNat
    orderType := some (orderTypeToWireString m.orderType) }

/-- The message on the wire. -/
def wireStatus (m : OrderbookGC.OrderStatusMessage) : Wire.OrderStatusMessage Char :=
  ⟨m.orderId.toList, m.clientId.toList, m.symbol.toList, m.side, m.orderType, m.price, m.stopPrice, m.quantity, m.filledQuantity,
    m.status, m.orderTimestamp⟩

/-- What the tracker reads in the text of a message is the message. -/
theorem received_parse (localtime : Int → Tm) (m : OrderbookGC.OrderStatusMessage) (hid : newline ∉ m.orderId.toList)
    (hc : newline ∉ m.clientId.toList) (hs : newline ∉ m.symbol.toList) (hp : Cents m.price) (hstop : Cents m.stopPrice) :
    (parseMessage ((wireStatus m).serialize localtime)).map OrderStatus.ofDict = some (.received m) := by
  rw [parse_orderStatus localtime (wireStatus m) hid hc hs hp hstop]
  unfold dictOf OrderStatus.ofDict OrderStatus.received PyDict.get?
  have hlit : ∀ s : String, String.ofList (lit s) = s := fun s => by
    unfold lit
    rw [show (Alphabet.ofChar : Char → Char) = id from rfl, List.map_id, String.ofList_toList]
  by_cases hpos : 0 < m.stopPrice
  · simp [hlit, wireStatus, shownPrice_cents hp, stopPriceEntry, hpos]
  · simp [hlit, wireStatus, shownPrice_cents hp, stopPriceEntry, hpos]

/-- `on_server_message`, with the PnL dashboard. -/
def PnLTracker.onServerMessage (t : PnLTracker) : Response → PnLTracker
  | .orderStatus m => t.processOrderStatus (.received m)
  | .tradeNotification tr => t.processTrade tr.symbol (shownPrice tr.price)
  | _ => t

end Bridge

/-! ## The cash flow of a session -/

namespace Server

/-- The messages sent to a session. -/
def messagesTo (sv : Server) (s : SessionPtr) : List Response := (sv.sent.filter (·.1 = s)).map (·.2)

/-- The tracker of the bridge behind the session, once it has processed all messages. -/
def tracker (sv : Server) (s : SessionPtr) : Bridge.PnLTracker := (sv.messagesTo s).foldl Bridge.PnLTracker.onServerMessage .new

/-- The session submitted the order. -/
def Submitted (sv : Server) (s : SessionPtr) (id : String) : Prop := ∃ x ∈ sv.submissions, x.session = s ∧ x.orderId = id

instance (sv : Server) (s : SessionPtr) (id : String) : Decidable (sv.Submitted s id) :=
  inferInstanceAs (Decidable (∃ x ∈ sv.submissions, _))

/-- What the session bought in a trade, less what it sold. -/
def share (sv : Server) (s : SessionPtr) (t : Trade ℚ) : Int :=
  (if sv.Submitted s t.buyOrderId then (t.quantity.toNat : Int) else 0) -
    if sv.Submitted s t.sellOrderId then (t.quantity.toNat : Int) else 0

/-- What the trades of the symbol that involve the session's orders come to at a price of the market. -/
def cashFlow (sv : Server) (s : SessionPtr) (symbol : String) (price : ℚ) : ℚ :=
  ((sv.trades.filter (·.symbol = symbol)).map fun t => (sv.share s t : ℚ) * (price - t.price)).sum

/-- The price of an order's fills in the messages. -/
def shownAs (x : Submission) : ℚ := Bridge.shownPrice x.reportedPrice

/-- The status messages of the session, as its tracker gets them. -/
def statusesTo (sv : Server) (s : SessionPtr) : List Bridge.OrderStatus :=
  (sv.statuses.filter (·.1 = s)).map fun e => .received e.2

theorem tracker_tracks (sv : Server) (s : SessionPtr) : (sv.tracker s).Tracks (sv.statusesTo s) := by
  unfold tracker messagesTo statusesTo statuses
  generalize sv.sent = l
  induction l using List.reverseRecOn with
  | nil => exact .new
  | append_singleton l e ih =>
    rw [List.filter_append, List.map_append, List.foldl_append, List.filterMap_append, List.filter_append, List.map_append]
    by_cases hs : e.1 = s
    · obtain ⟨s', r⟩ := e
      subst hs
      cases r with
      | orderStatus m => simpa [Bridge.PnLTracker.onServerMessage] using ih.processOrderStatus (.received m)
      | tradeNotification t => simpa [Bridge.PnLTracker.onServerMessage] using ih.processTrade t.symbol (Bridge.shownPrice t.price)
      | _ => simpa [Bridge.PnLTracker.onServerMessage] using ih
    · obtain ⟨s', r⟩ := e
      have hs : ¬ s' = s := hs
      cases r <;> simpa [hs] using ih

/-! ## Order by order -/

/-- The session's orders of a symbol. -/
def ordersOf (sv : Server) (s : SessionPtr) (symbol : String) : Finset String :=
  ((sv.submissions.filter fun x => x.session = s ∧ x.message.symbol = symbol).map (·.orderId)).toFinset

theorem mem_ordersOf {sv : Server} {s : SessionPtr} {symbol id : String} :
    id ∈ sv.ordersOf s symbol ↔ ∃ x ∈ sv.submissions, x.session = s ∧ x.message.symbol = symbol ∧ x.orderId = id := by
  unfold ordersOf
  simp [and_assoc]

/-- `1` for a buy order, `-1` for a sell order. -/
def sign (side : OrderSide) : ℚ := if side = .buy then 1 else -1

/-- What a trade brings to the order. -/
def leg (price : ℚ) (t : Trade ℚ) (id : String) : ℚ :=
  ((if t.buyOrderId = id then (t.quantity.toNat : ℚ) else 0) - if t.sellOrderId = id then (t.quantity.toNat : ℚ) else 0) *
    (price - t.price)

/-- The trades of an order, all at one price. -/
theorem sum_leg {symbol id : String} {side : OrderSide} {k : ℚ} (price : ℚ) : ∀ {l : List (Trade ℚ)}, (∀ t ∈ l, t.Names id →
    t.symbol = symbol ∧ t.price = k ∧ (t.buyOrderId = id → side = .buy) ∧ (t.sellOrderId = id → side = .sell)) →
    ((l.filter (·.symbol = symbol)).map (leg price · id)).sum = sign side * traded id l * (price - k)
  | [], _ => by simp
  | t :: l, h => by
    have ih := sum_leg price fun t' ht' => h t' (List.mem_cons_of_mem _ ht')
    have hcons : traded id (t :: l) = traded id [t] + traded id l := traded_append id [t] l
    rw [hcons, traded_singleton]
    by_cases hn : t.Names id
    · obtain ⟨hsym, hprice, hbuy, hsell⟩ := h t List.mem_cons_self hn
      rw [List.filter_cons_of_pos (by simpa using hsym), List.map_cons, List.sum_cons, ih, if_pos hn]
      unfold leg
      rw [hprice]
      by_cases hb : t.buyOrderId = id
      · have hs : t.sellOrderId ≠ id := fun hs => by rw [hbuy hb] at hsell; cases hsell hs
        rw [if_pos hb, if_neg hs, hbuy hb]
        unfold sign
        push_cast
        simp only [if_true]
        ring
      · have hs := hn.resolve_left hb
        rw [if_neg hb, if_pos hs, hsell hs]
        unfold sign
        push_cast
        ring
    · have hzero : leg price t id = 0 := by
        unfold Trade.Names at hn
        rw [not_or] at hn
        unfold leg
        rw [if_neg hn.1, if_neg hn.2]
        ring
      rw [if_neg hn, Nat.zero_add, ← ih]
      by_cases hsym : t.symbol = symbol
      · rw [List.filter_cons_of_pos (by simpa using hsym), List.map_cons, List.sum_cons, hzero, zero_add]
      · rw [List.filter_cons_of_neg (by simpa using hsym)]

section Accounts

variable {sv : Server} {s : SessionPtr} {symbol : String} {price : ℚ}

/-- The cash flow, order by order. -/
theorem Told.cashFlow_eq (h : Told shownAs s sv) (symbol : String) (price : ℚ) : sv.cashFlow s symbol price =
    ∑ id ∈ sv.ordersOf s symbol, ((sv.trades.filter (·.symbol = symbol)).map (leg price · id)).sum := by
  rw [← sum_map_sum_comm]
  unfold cashFlow
  refine congrArg List.sum (List.map_congr_left fun t ht => ?_)
  obtain ⟨htm, hsym⟩ := List.mem_filter.1 ht
  have hsym : t.symbol = symbol := of_decide_eq_true hsym
  -- an order of the session in the trade is one of the symbol
  have hmem : ∀ {id}, t.Names id → (sv.Submitted s id ↔ id ∈ sv.ordersOf s symbol) := fun {id} hn => by
    rw [mem_ordersOf]
    refine ⟨fun ⟨x, hx, hs, hid⟩ => ⟨x, hx, hs, ?_, hid⟩, fun ⟨x, hx, hs, _, hid⟩ => ⟨x, hx, hs, hid⟩⟩
    rw [← hsym, (h.trade t htm x hx hs (hid ▸ hn)).1]
  have hbuy := hmem (.inl rfl : t.Names t.buyOrderId)
  have hsell := hmem (.inr rfl : t.Names t.sellOrderId)
  unfold leg share
  rw [← Finset.sum_mul, Finset.sum_sub_distrib, Finset.sum_ite_eq, Finset.sum_ite_eq]
  simp only [hbuy, hsell]
  push_cast
  rfl

/-- A fill comes from a message about an order of the session. -/
theorem fill_about (hO : OwnInv none sv) (hF : FilledInv sv) {f : Bridge.Fill} (hf : f ∈ (sv.tracker s).fills) :
    ∃ x ∈ sv.submissions, x.session = s ∧ x.orderId = f.orderId ∧ f.symbol = x.message.symbol ∧
      f.side = Wire.sideToWireString x.message.side ∧ f.price = shownAs x := by
  obtain ⟨-, m, hm, hid, hsym, hside, hprice⟩ := (sv.tracker_tracks s).fill f hf
  obtain ⟨e, he, rfl⟩ := List.mem_map.1 hm
  obtain ⟨he, hes⟩ := List.mem_filter.1 he
  obtain ⟨x, hx, hxid, hxs⟩ := hO.status e he
  obtain ⟨habout, -⟩ := hF.status e he x hx hxid
  refine ⟨x, hx, hxs.trans (of_decide_eq_true hes), hxid.trans hid, ?_, ?_, ?_⟩
  · rw [← hsym, ← habout.symbol]; rfl
  · rw [← hside, ← habout.side]; rfl
  · rw [← hprice]
    unfold shownAs
    rw [← habout.price]; rfl

/-- The quantity the tracker has recorded for an order is what the order has traded. -/
theorem recorded_eq (hI : IdInv sv) (hF : FilledInv sv) (h : Told shownAs s sv) {x : Submission} (hx : x ∈ sv.submissions)
    (hs : x.session = s) : Bridge.recorded x.orderId (sv.tracker s).fills = traded x.orderId sv.trades := by
  have hne : x.orderId ≠ "" := by
    obtain ⟨d, hd⟩ := hI.drawn _ (hI.submission x hx).1
    rw [hd]
    exact generateUuid_ne_empty d
  rw [(sv.tracker_tracks s).recorded _ hne]
  refine le_antisymm ((highest_le_iff (Int.natCast_nonneg _)).2 fun n hn => ?_) ?_
  · obtain ⟨m, hm, hid, rfl⟩ := Bridge.mem_filledOf.1 hn
    obtain ⟨e, he, rfl⟩ := List.mem_map.1 hm
    exact Int.ofNat_le.2 (hF.status e (List.mem_filter.1 he).1 x hx hid.symm).2
  · rcases h.told x hx hs with hzero | ⟨e, he, hes, hid, hq⟩
    · rw [hzero]
      exact highest_nonneg _
    · refine le_highest (Bridge.mem_filledOf.2 ⟨.received e.2, ?_, hid, ?_⟩)
      · exact List.mem_map.2 ⟨e, List.mem_filter.2 ⟨he, decide_eq_true hes⟩, rfl⟩
      · rw [← hq]; rfl

/-- The fills of an order, all at one price. -/
theorem sum_fills (hI : IdInv sv) (hO : OwnInv none sv) (hF : FilledInv sv) (h : Told shownAs s sv) {x : Submission}
    (hx : x ∈ sv.submissions) (hs : x.session = s) (price : ℚ) :
    (((Bridge.fillsOf x.message.symbol (sv.tracker s).fills).filter (·.orderId = x.orderId)).map
      fun f => (f.signedQty : ℚ) * (price - f.price)).sum =
      sign x.message.side * traded x.orderId sv.trades * (price - shownAs x) := by
  have habout : ∀ f ∈ (sv.tracker s).fills, f.orderId = x.orderId → f.symbol = x.message.symbol ∧
      f.side = Wire.sideToWireString x.message.side ∧ f.price = shownAs x := fun f hf hid => by
    obtain ⟨y, hy, -, hyid, h1⟩ := fill_about hO hF hf
    rwa [hI.submissionInj y hy x hx (hyid.trans hid)] at h1
  have hfilter : (Bridge.fillsOf x.message.symbol (sv.tracker s).fills).filter (·.orderId = x.orderId) =
      (sv.tracker s).fills.filter (·.orderId = x.orderId) := by
    unfold Bridge.fillsOf
    rw [List.filter_filter]
    refine List.filter_congr fun f hf => ?_
    by_cases hid : f.orderId = x.orderId
    · simp [hid, (habout f hf hid).1]
    · simp [hid]
  have hmem : ∀ f ∈ (sv.tracker s).fills.filter (·.orderId = x.orderId), f.side = Wire.sideToWireString x.message.side ∧
      f.price = shownAs x := fun f hf => by
    obtain ⟨hf, hid⟩ := List.mem_filter.1 hf
    exact (habout f hf (of_decide_eq_true hid)).2
  have hrec := recorded_eq hI hF h hx hs
  unfold Bridge.recorded at hrec
  have hnet := Bridge.netQuantity_of_side fun f hf => (hmem f hf).1
  rw [hrec] at hnet
  rw [hfilter, List.map_congr_left fun f hf => by rw [(hmem f hf).2], List.sum_map_mul_right]
  congr 1
  have hcast : ((Bridge.netQuantity ((sv.tracker s).fills.filter (·.orderId = x.orderId)) : Int) : ℚ) =
      (((sv.tracker s).fills.filter (·.orderId = x.orderId)).map fun f => (f.signedQty : ℚ)).sum := by
    unfold Bridge.netQuantity
    rw [Int.cast_list_sum, List.map_map]
    rfl
  rw [← hcast, hnet]
  unfold sign Wire.sideToWireString
  cases x.message.side
  · simp
  · simp

/-- What the tracker says the position is worth is what the session's trades come to. -/
theorem Told.value_eq (hI : IdInv sv) (hO : OwnInv none sv) (hF : FilledInv sv) (h : Told shownAs s sv) (symbol : String)
    (price : ℚ) : ((sv.tracker s).position symbol).value price = sv.cashFlow s symbol price := by
  rw [((sv.tracker_tracks s).positions symbol).value, h.cashFlow_eq]
  unfold Bridge.fillsValue
  rw [sum_map_eq_sum_keys Bridge.Fill.orderId _ (sv.ordersOf s symbol)]
  · refine Finset.sum_congr rfl fun id hid => ?_
    obtain ⟨x, hx, hs, hsym, rfl⟩ := mem_ordersOf.1 hid
    subst hsym
    rw [sum_fills hI hO hF h hx hs, sum_leg price fun t ht hn => h.trade t ht x hx hs hn]
  · intro f hf
    obtain ⟨hf, hfs⟩ := List.mem_filter.1 hf
    obtain ⟨x, hx, hs, hid, hsym, -⟩ := fill_about hO hF hf
    exact mem_ordersOf.2 ⟨x, hx, hs, hsym.symm.trans (of_decide_eq_true hfs), hid⟩

end Accounts

/-! ## Whole histories -/

/-- The event trades for the session only while it is connected, and at the prices its orders were booked with, to the
cent. -/
def FairFills (s : SessionPtr) (sv : Server) (ev : Env × Event) : Prop :=
  ∀ sv', sv.step ev = some sv' → FairStep shownAs s sv sv'

instance (price : Submission → ℚ) (s : SessionPtr) (ts : List (Trade ℚ)) (sv : Server) : Decidable (Fair price s ts sv) :=
  have : Decidable (sv.Present s) := inferInstanceAs (Decidable (_ = _))
  inferInstanceAs (Decidable (∀ t ∈ ts, ∀ x ∈ sv.submissions, _ → _ → _ ∧ _))

instance (s : SessionPtr) (sv : Server) (ev : Env × Event) : Decidable (FairFills s sv ev) :=
  match h : sv.step ev with
  | none => isTrue fun _ h' => by rw [h] at h'; cases h'
  | some sv' => decidable_of_iff (Fair shownAs s (sv'.trades.drop sv.trades.length) sv')
      ⟨fun hf _ h' => by rw [h] at h'; cases h'; exact hf, fun hf => hf sv' h⟩

/-- After every history with distinct ids in which the session's orders trade only while it is connected, and at the
prices they were booked with: at every price of the market, what the tracker's position of a symbol has made and is worth
is what the session's trades of the symbol come to. -/
theorem run_cashFlow (config : Config) (env : Env) (evs : List (Env × Event)) (s : SessionPtr)
    (hC : Machine.Along step (FairFills s) (initial config) ((env, .restart) :: evs)) :
    ∃ sv, run config env evs = some sv ∧ (sv.uuids.Nodup → ∀ symbol price,
      let pos := (sv.tracker s).position symbol
      pos.realizedPnl + pos.quantity * (price - pos.avgEntryPrice) = sv.cashFlow s symbol price) := by
  obtain ⟨sv, hrun, -, hK⟩ := Machine.foldlM_along hC
    (I := fun _ sv => Sound sv ∧ (sv.uuids.Nodup → IdInv sv ∧ OwnInv none sv ∧ StreamInv sv ∧ FilledInv sv ∧ Told shownAs s sv))
    (fun pre ⟨e, ev⟩ sv sv' _ _ ⟨hs, hK⟩ hfair hev => by
      obtain ⟨sv'', h1, he⟩ := step_effect hs e ev
      cases h1.symm.trans hev
      refine ⟨he.sound hs, fun hnd => ?_⟩
      obtain ⟨hI, hO, hS, hF, hT⟩ := hK (he.uuids.sublist.nodup hnd)
      exact ⟨he.idInv hI hnd, he.ownInv hs hI hO hnd, he.streamInv hs hI hO hS hnd, he.filledInv hs hI hO hS hF hnd,
        he.told hs hI hO hS hF hT hnd (hfair _ hev)⟩)
    (fun _ ⟨e, ev⟩ sv ⟨hs, _⟩ => by
      obtain ⟨sv', h1, -⟩ := step_effect hs e ev
      exact ⟨sv', h1⟩)
    ⟨.initial config, fun _ => ⟨.initial config, .initial config, .initial config, .initial config, .initial config⟩⟩
  refine ⟨sv, hrun, fun hnd symbol price => ?_⟩
  obtain ⟨hI, hO, -, hF, hT⟩ := hK hnd
  exact hT.value_eq hI hO hF symbol price

/-- The first session offers 5 at 100, and the second buys 3 of them with the same limit. -/
def soldAtLimit : List (Env × Event) :=
  [(sampleEnv false 1, .connect), (sampleEnv false 2, .connect),
    (sampleEnv false 3, .message 0 (sampleSubmit .sell .limit 100 0 5)),
    (sampleEnv false 4, .message 1 (sampleSubmit .buy .limit 100 0 3))]

theorem run_cashFlow_soldAtLimit : ∃ sv, run sampleConfig (sampleEnv false 0) soldAtLimit = some sv ∧
    sv.cashFlow 0 "SYM" 90 = 30 ∧
    let pos := (sv.tracker 0).position "SYM"
    pos.realizedPnl + pos.quantity * (90 - pos.avgEntryPrice) = sv.cashFlow 0 "SYM" 90 := by
  obtain ⟨sv, hrun, h⟩ := run_cashFlow sampleConfig (sampleEnv false 0) soldAtLimit 0 (by decide +kernel)
  have hstate : (run sampleConfig (sampleEnv false 0) soldAtLimit).map (fun sv =>
      (decide sv.uuids.Nodup, sv.cashFlow 0 "SYM" 90)) = some (true, 30) := by decide +kernel
  rw [hrun, Option.map_some, Option.some.injEq, Prod.mk.injEq, decide_eq_true_eq] at hstate
  exact ⟨sv, hrun, hstate.2, h hstate.1 "SYM" 90⟩

/-- The second session buys 3 at the market. -/
def marketBuy : List (Env × Event) :=
  [(sampleEnv false 1, .connect), (sampleEnv false 2, .connect),
    (sampleEnv false 3, .message 0 (sampleSubmit .sell .limit 100 0 5)),
    (sampleEnv false 4, .message 1 (sampleSubmit .buy .market 0 0 3))]

/-- The tracker takes the sentinel price 0 of a market order for the price of its fill: at the price of 100, the 3 bought
for 300 appear as a gain of 300. -/
theorem marketBuy_cashFlow : ∃ sv, run sampleConfig (sampleEnv false 0) marketBuy = some sv ∧ sv.uuids.Nodup ∧
    ¬ ∀ symbol price, let pos := (sv.tracker 1).position symbol
      pos.realizedPnl + pos.quantity * (price - pos.avgEntryPrice) = sv.cashFlow 1 symbol price := by
  have hstate : (run sampleConfig (sampleEnv false 0) marketBuy).map (fun sv =>
      (decide sv.uuids.Nodup, ((sv.tracker 1).position "SYM").value 100, sv.cashFlow 1 "SYM" 100)) = some (true, 300, 0) := by
    decide +kernel
  obtain ⟨sv, hrun, hsv⟩ := Option.map_eq_some_iff.1 hstate
  rw [Prod.mk.injEq, Prod.mk.injEq, decide_eq_true_eq] at hsv
  obtain ⟨hnd, hvalue, hflow⟩ := hsv
  refine ⟨sv, hrun, hnd, fun h => ?_⟩
  have h := h "SYM" 100
  rw [hflow] at h
  have h : ((sv.tracker 1).position "SYM").value 100 = 0 := h
  rw [hvalue] at h
  norm_num at h

end Server

end OrderbookGC
