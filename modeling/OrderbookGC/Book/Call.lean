/-
One call of `addOrder` as its caller sees it: which objects it can change, which it announces, where
the orders it touches end up, and at what prices they trade. A trade of an order with a limit stays
within that limit, also when the order is a stop-limit order triggered during the call.
-/
import OrderbookGC.Book.Run

namespace OrderbookGC

open Container OrderBook MatchState

variable {P : Type}

namespace Order

/-- An order with a limit: `LIMIT`, or `STOP_LIMIT` before and after it is triggered. -/
def Priced (o : Order P) : Prop := o.orderType = .limit ∨ o.orderType = .stopLimit

instance (o : Order P) : Decidable o.Priced := inferInstanceAs (Decidable (_ ∨ _))

/-- The two final states an order reaches in the book. -/
def Finished (o : Order P) : Prop := o.status = .filled ∨ o.status = .canceled

instance (o : Order P) : Decidable o.Finished := inferInstanceAs (Decidable (_ ∨ _))

theorem Live.not_finished {o : Order P} (h : o.Live) : ¬ o.Finished := by
  rintro (hf | hf)
  · rcases h.status with hs | hs <;> simp [hs] at hf
  · rcases h.status with hs | hs <;> simp [hs] at hf

theorem Sound.finished_of_zero {o : Order P} (h : o.Sound) (h0 : o.remainingQuantity = 0) : o.Finished := by
  rcases h with h | h
  · exact absurd h0 (UInt32.pos_iff_ne_zero.1 h.remaining)
  · exact .inl h.1

theorem trigger_priced (o : Order P) : o.trigger.2.Priced ↔ o.Priced := by
  unfold Priced trigger
  cases h : o.orderType <;> simp [h]

end Order

variable [LinearOrder P]

/-- A party of a trade: one of the orders of the call, on its side, trading within its limit. -/
structure Party (order : OrderPtr) (b : OrderBook P) (d : OrderSide) (id : String) (price : P) (p : OrderPtr) : Prop where
  known : b.Held p ∨ p = order
  id : (b.heap p).id = id
  side : (b.heap p).side = d
  limit : (b.heap p).Priced → accepts d (b.heap p).price price = true

theorem accepts_self (d : OrderSide) (k : P) : accepts d k k = true := by
  cases d <;> simp [accepts]

/-- The middle of a call that began in `s₀` with `order` incoming; `F` are in flight. -/
structure CallInv (order : OrderPtr) (s₀ : MatchState P) (F : List OrderPtr) (s : MatchState P) : Prop where
  static : ∀ p, (s₀.heap p).SameStatic (s.heap p)
  priced : ∀ p, (s.heap p).Priced ↔ (s₀.heap p).Priced
  /-- No order becomes a stop order. -/
  untriggered : ∀ p, (s.heap p).isStopOrder = true → (s₀.heap p).isStopOrder = true
  known : ∀ p, s.Held p ∨ p ∈ F → s₀.Held p ∨ p = order
  updates : ∀ p ∈ s.pendingOrderUpdates, s₀.Held p ∨ p = order
  /-- Objects that are neither in the book nor incoming are left alone. -/
  frame : ∀ p, ¬ (s₀.Held p ∨ p = order) → s.heap p = s₀.heap p
  /-- An order that is neither in the book nor in flight any more is finished. -/
  fate : ∀ p, s₀.Held p ∨ p = order → s.Held p ∨ p ∈ F ∨ (s.heap p).Finished
  trades : ∀ t ∈ s.pendingTrades, t.symbol = s₀.symbol ∧ (∃ p, Party order s₀.toOrderBook .buy t.buyOrderId t.price p) ∧
    ∃ p, Party order s₀.toOrderBook .sell t.sellOrderId t.price p
  symbol : s.symbol = s₀.symbol
  tickSize : s.tickSize = s₀.tickSize
  nextPtr : s.nextPtr = s₀.nextPtr

namespace CallInv

variable {order : OrderPtr} {s₀ s s' : MatchState P} {F : List OrderPtr}

theorem hit {taker maker : OrderPtr} {key : P} {rest : List OrderPtr} (h : CallInv order s₀ (taker :: F) s)
    (hI : Inv (taker :: F) s.toOrderBook) (ht : Target taker s key maker rest)
    (he : HitEffect taker key maker rest s s') : CallInv order s₀ (taker :: F) s' := by
  have hm : s.Held maker := .inl ⟨_, key, by rw [he.makerMem]; exact List.mem_cons_self ..⟩
  have hkm := h.known maker (.inl hm)
  have hkt := h.known taker (.inr (List.mem_cons_self ..))
  have hpr : ∀ p, (s'.heap p).Priced ↔ (s.heap p).Priced := fun p => by unfold Order.Priced; rw [he.orderType]
  -- the taker trades at a price it accepts, the maker at its own
  have htaker : Party order s₀.toOrderBook (s.heap taker).side (s.heap taker).id (s.heap maker).price taker := by
    refine ⟨hkt, (h.static taker).id.symm, (h.static taker).side.symm, fun hp => ?_⟩
    rw [he.makerPrice, ← (h.static taker).price]
    rcases ht.accepted with hmk | hacc
    · rcases (h.priced taker).2 hp with hp | hp <;> simp [hmk] at hp
    · exact hacc
  have hmaker : Party order s₀.toOrderBook (s.heap taker).side.opposite (s.heap maker).id (s.heap maker).price maker := by
    refine ⟨hkm, (h.static maker).id.symm, (h.static maker).side.symm.trans he.makerSide, fun _ => ?_⟩
    rw [← (h.static maker).price]; exact accepts_self ..
  refine ⟨fun p => (h.static p).trans (he.static p), fun p => (hpr p).trans (h.priced p),
    fun p hp => h.untriggered p (by rw [he.isStopOrder] at hp; exact hp),
    fun p hp => h.known p (hp.imp_left fun hp => ((he.held_iff hI.toBookInv).1 hp).1), fun p hp => ?_, fun p hp => ?_,
    fun p hp => ?_, fun t htm => ?_, he.symbol.trans h.symbol, he.tickSize.trans h.tickSize, he.nextPtr.trans h.nextPtr⟩
  · rw [he.updates, List.mem_append, mem_updatesOf] at hp
    rcases hp with hp | rfl | rfl
    · exact h.updates p hp
    · exact hkt
    · exact hkm
  · rw [he.heapOther p (fun e => hp (e ▸ hkt)) (fun e => hp (e ▸ hkm))]
    exact h.frame p hp
  · rcases h.fate p hp with hh | hF | hf
    · by_cases hpm : p = maker ∧ (s'.heap maker).remainingQuantity = 0
      · rw [hpm.1]
        exact .inr (.inr (he.maker_spec.2.1.finished_of_zero hpm.2))
      · exact .inl ((he.held_iff hI.toBookInv).2 ⟨hh, hpm⟩)
    · exact .inr (.inl hF)
    · by_cases h1 : p = taker
      · exact .inr (.inl (by rw [h1]; exact List.mem_cons_self ..))
      · by_cases h2 : p = maker
        · exact absurd (h2 ▸ hf) (he.makerLive.not_finished)
        · rw [he.heapOther p h1 h2]; exact .inr (.inr hf)
  · rw [he.trades] at htm
    rcases List.mem_append.1 htm with htm | htm
    · exact h.trades t htm
    · rw [List.mem_singleton.1 htm]
      unfold tradeOf
      cases hs : (s.heap taker).side <;> rw [hs] at htaker hmaker
      · exact ⟨h.symbol, ⟨taker, htaker⟩, ⟨maker, hmaker⟩⟩
      · exact ⟨h.symbol, ⟨maker, hmaker⟩, ⟨taker, htaker⟩⟩

theorem place {taker : OrderPtr} (h : CallInv order s₀ (taker :: F) s) (hI : Inv (taker :: F) s.toOrderBook)
    (he : PlaceEffect taker s s') : CallInv order s₀ F s' := by
  obtain ⟨-, htr, hup, -, hn, hsy, hti⟩ := he.frame
  have hkt := h.known taker (.inr (List.mem_cons_self ..))
  have hheap : ∀ p, (s.heap p).SameStatic (s'.heap p) ∧ (s'.heap p).orderType = (s.heap p).orderType := fun p => by
    rcases he.heap p with heq | ⟨-, -, -, heq⟩
    · rw [heq]; exact ⟨.refl _, rfl⟩
    · rw [heq]; exact ⟨⟨rfl, rfl, rfl, rfl, rfl, rfl, rfl, rfl⟩, rfl⟩
  refine ⟨fun p => (h.static p).trans (hheap p).1, fun p => ?_, fun p hp => h.untriggered p ?_, fun p hp => ?_,
    fun p hp => ?_, fun p hp => ?_, fun p hp => ?_, fun t ht => ?_, hsy.trans h.symbol, hti.trans h.tickSize,
    hn.trans h.nextPtr⟩
  · rw [← h.priced p]; unfold Order.Priced; rw [(hheap p).2]
  · unfold Order.isStopOrder at hp ⊢
    rw [(hheap p).2] at hp
    exact hp
  · rcases hp with hp | hp
    · rcases he.held hp with hp | rfl
      · exact h.known p (.inl hp)
      · exact hkt
    · exact h.known p (.inr (List.mem_cons_of_mem _ hp))
  · rw [hup] at hp; exact h.updates p hp
  · rcases he.heap p with heq | ⟨rfl, -⟩
    · rw [heq]; exact h.frame p hp
    · exact absurd hkt hp
  · rcases h.fate p hp with hh | hF | hf
    · exact .inl (he.held_of hh)
    · rcases List.mem_cons.1 hF with rfl | hF
      · cases he with
        | rest hl ht heq =>
          refine .inl (.inl ⟨(s.heap p).side, (s.heap p).price, ?_⟩)
          rw [heq, addOrderToBook_queue, if_pos ⟨rfl, rfl⟩]
          exact List.mem_append_right _ (List.mem_singleton.2 rfl)
        | cancel hl ht heq =>
          refine .inr (.inr (.inr ?_))
          rw [heq]
          show (Function.update s.heap p _ p).status = _
          rw [Function.update_self]
        | drop h0 hf heq => exact .inr (.inr (.inl (by rw [heq]; exact hf)))
      · exact .inr (.inl hF)
    · rcases he.heap p with heq | ⟨-, hl, -⟩
      · rw [heq]; exact .inr (.inr hf)
      · exact absurd hf hl.not_finished
  · rw [htr] at ht; exact h.trades t ht

theorem trigger {prices : List P} {triggered : List OrderPtr} (h : CallInv order s₀ [] s)
    (hI : Inv [] s.toOrderBook) (he : TriggerEffect prices triggered s s') : CallInv order s₀ triggered s' := by
  have hwas : ∀ p ∈ triggered, s.Held p := fun p hp => by
    obtain ⟨d, k, hk, -⟩ := (he.mem p).1 hp
    exact .inr ⟨d, k, hk⟩
  refine ⟨fun p => (h.static p).trans (he.static p), fun p => ?_, fun p hp => h.untriggered p ?_,
    fun p hp => h.known p (.inl ?_), fun p hp => ?_, fun p hp => ?_, fun p hp => ?_, fun t ht => ?_,
    he.symbol.trans h.symbol, he.tickSize.trans h.tickSize, he.nextPtr.trans h.nextPtr⟩
  · rw [← h.priced p, he.heap]
    split_ifs
    · exact Order.trigger_priced _
    · rfl
  · by_cases ht : p ∈ triggered
    · rw [(he.inv hI).flightType p ht] at hp; cases hp
    · rw [he.heap, if_neg ht] at hp; exact hp
  · rcases hp with hp | hp
    · exact ((he.held_iff hI.toBookInv).1 hp).1
    · exact hwas p hp
  · rw [he.updates] at hp; exact h.updates p hp
  · rw [he.heap, if_neg fun ht => hp (h.known p (.inl (hwas p ht)))]
    exact h.frame p hp
  · by_cases ht : p ∈ triggered
    · exact .inr (.inl ht)
    · rw [he.heap, if_neg ht]
      rcases h.fate p hp with hh | hF | hf
      · exact .inl ((he.held_iff hI.toBookInv).2 ⟨hh, ht⟩)
      · cases hF
      · exact .inr (.inr hf)
  · rw [he.trades] at ht; exact h.trades t ht

end CallInv

theorem MatchState.Cascade.callInv (order : OrderPtr) {s₀ s s' : MatchState P} {n : Nat} {F : List OrderPtr}
    (h : Cascade n F s s') (hI : Inv F s.toOrderBook) (hC : CallInv order s₀ F s) : CallInv order s₀ [] s' :=
  (h.invariant (J := fun _ F t => CallInv order s₀ F t)
    (fun _ _ _ _ _ hJ => ⟨hJ.static, hJ.priced, hJ.untriggered, hJ.known, hJ.updates, hJ.frame, hJ.fate, hJ.trades, hJ.symbol,
      hJ.tickSize, hJ.nextPtr⟩)
    (fun _ _ _ _ _ _ _ _ hI hJ ht he => hJ.hit hI ht he) (fun _ _ _ _ _ hI hJ _ he => hJ.place hI he)
    (fun _ _ _ _ hI hJ _ he => hJ.trigger hI he) hI hC).2

/-! ## The whole call -/

/-- What a call of `addOrder` from `b` does, for its caller. -/
structure CallEffect (order : OrderPtr) (b : OrderBook P) (out : AddOutcome P) : Prop where
  inv : Inv [] out.state.toOrderBook
  static : ∀ p, (b.heap p).SameStatic (out.state.heap p)
  priced : ∀ p, (out.state.heap p).Priced ↔ (b.heap p).Priced
  untriggered : ∀ p, (out.state.heap p).isStopOrder = true → (b.heap p).isStopOrder = true
  held : ∀ p, out.state.Held p → b.Held p ∨ p = order
  announced : ∀ p, .order p ∈ out.callbacks → b.Held p ∨ p = order
  frame : ∀ p, ¬ (b.Held p ∨ p = order) → out.state.heap p = b.heap p
  fate : out.accepted = true → ∀ p, b.Held p ∨ p = order → out.state.Held p ∨ (out.state.heap p).Finished
  trades : ∀ t, .trade t ∈ out.callbacks → t.symbol = b.symbol ∧ (∃ p, Party order b .buy t.buyOrderId t.price p) ∧
    ∃ p, Party order b .sell t.sellOrderId t.price p
  free : out.accepted = true → b.ordersById.find? (b.heap order).id = none
  live : out.accepted = true → (b.heap order).Live
  refused : out.accepted = false → out.state.toOrderBook = b ∧ out.callbacks = []
  symbol : out.state.symbol = b.symbol
  tickSize : out.state.tickSize = b.tickSize
  nextPtr : out.state.nextPtr = b.nextPtr

/-- The callbacks report the pending trades and updates, and the incoming order. -/
theorem mem_fireCallbacks_trade {order : OrderPtr} {t : Trade P} {s : MatchState P} :
    .trade t ∈ fireCallbacks order s ↔ t ∈ s.pendingTrades := by
  unfold fireCallbacks
  simp

theorem mem_fireCallbacks {order p : OrderPtr} {s : MatchState P} :
    .order p ∈ fireCallbacks order s ↔ p ∈ s.pendingOrderUpdates ∨ p = order := by
  unfold fireCallbacks
  simp only [List.mem_append, List.mem_map, List.mem_filter, List.mem_singleton, reduceCtorEq, and_false, exists_false,
    false_or, Callback.order.injEq, exists_eq_right, decide_eq_true_eq]
  by_cases hp : p = order <;> simp [hp]

theorem CallInv.effect {order : OrderPtr} {b : OrderBook P} {s : MatchState P} (h : CallInv order (entered order b) [] s)
    (hI : Inv [] s.toOrderBook) (hid : b.ordersById.find? (b.heap order).id = none) (hl : (b.heap order).Live) :
    CallEffect order b ⟨true, s, fireCallbacks order s⟩ where
  inv := hI
  static := h.static
  priced := h.priced
  untriggered := h.untriggered
  held p hp := h.known p (.inl hp)
  announced p hp := (mem_fireCallbacks.1 hp).elim (h.updates p) .inr
  frame := h.frame
  fate _ p hp := (h.fate p hp).imp_right fun hf => hf.resolve_left (List.not_mem_nil)
  trades t ht := by
    obtain ⟨h1, ⟨p, hp⟩, ⟨q, hq⟩⟩ := h.trades t (mem_fireCallbacks_trade.1 ht)
    exact ⟨h1, ⟨p, hp.known, hp.id, hp.side, hp.limit⟩, ⟨q, hq.known, hq.id, hq.side, hq.limit⟩⟩
  free _ := hid
  live _ := hl
  refused hf := by cases hf
  symbol := h.symbol
  tickSize := h.tickSize
  nextPtr := h.nextPtr

theorem addStopOrder_held {order p : OrderPtr} {s : MatchState P} :
    (s.addStopOrder order).Held p ↔ s.Held p ∨ p = order := by
  unfold Held OrderBook.queue
  simp only [addStopOrder_levels, addStopOrder_stopQueue]
  constructor
  · rintro (hp | ⟨d, k, hp⟩)
    · exact .inl (.inl hp)
    · split_ifs at hp
      · rcases List.mem_append.1 hp with hp | hp
        · exact .inl (.inr ⟨d, k, hp⟩)
        · exact .inr (List.mem_singleton.1 hp)
      · exact .inl (.inr ⟨d, k, hp⟩)
  · rintro ((hp | ⟨d, k, hp⟩) | rfl)
    · exact .inl hp
    · refine .inr ⟨d, k, ?_⟩
      split_ifs
      · exact List.mem_append_left _ hp
      · exact hp
    · refine .inr ⟨(s.heap p).side, (s.heap p).stopPrice, ?_⟩
      rw [if_pos ⟨rfl, rfl⟩]
      exact List.mem_append_right _ (List.mem_singleton.2 rfl)

/-- A call before its matching. -/
theorem CallInv.entered (order : OrderPtr) (b : OrderBook P) : CallInv order (entered order b) [order] (entered order b) := by
  refine ⟨fun _ => .refl _, fun _ => Iff.rfl, fun _ hp => hp, fun p hp => ?_, fun _ hp => (by cases hp), fun _ _ => rfl,
    fun p hp => ?_, fun _ ht => (by cases ht), rfl, rfl, rfl⟩
  · exact hp.imp_right List.mem_singleton.1
  · exact hp.imp_right fun hp => .inl (List.mem_singleton.2 hp)

theorem AddEffect.call {order : OrderPtr} {b : OrderBook P} {out : AddOutcome P} (he : AddEffect order b out)
    (hI : Inv [] b) : CallEffect order b out := by
  have hI' := he.inv hI
  cases he with
  | refused _ =>
    exact ⟨hI', fun _ => .refl _, fun _ => Iff.rfl, fun _ hp => hp, fun _ hp => .inl hp, fun _ hp => (by cases hp),
      fun _ _ => rfl, fun hf => (by cases hf), fun _ ht => (by cases ht), fun hf => (by cases hf), fun hf => (by cases hf),
      fun _ => ⟨rfl, rfl⟩, rfl, rfl, rfl⟩
  | stopped ha hid hs =>
    have hh : ((entered order b).addStopOrder order).heap = b.heap := addStopOrder_heap ..
    refine CallInv.effect ⟨fun p => ?_, fun p => ?_, fun p hp => ?_, fun p hp => ?_, fun p hp => ?_, fun p _ => ?_,
      fun p hp => ?_, fun t ht => ?_, setStops_symbol .., setStops_tickSize .., setStops_nextPtr ..⟩ hI' hid ha.live
    · rw [hh]; exact .refl _
    · rw [hh]; rfl
    · rw [hh] at hp; exact hp
    · exact addStopOrder_held.1 (hp.resolve_right (List.not_mem_nil))
    · rw [addStopOrder_pendingOrderUpdates] at hp; cases hp
    · rw [hh]; rfl
    · exact .inl (addStopOrder_held.2 hp)
    · rw [addStopOrder_pendingTrades] at ht; cases ht
  | matched ha hid hs hc =>
    exact (hc.callInv order (entered_inv hI ha hid hs) (.entered order b)).effect hI' hid ha.live

namespace CallEffect

variable {order : OrderPtr} {b : OrderBook P} {out : AddOutcome P}

/-- The index gains at most the incoming order. -/
theorem index (h : CallEffect order b out) (hI : Inv [] b) {id : String} {p : OrderPtr}
    (hp : out.state.ordersById.find? id = some p) :
    b.ordersById.find? id = some p ∨ p = order ∧ (b.heap order).id = id ∧ out.accepted = true := by
  obtain ⟨hid, hheld | hF⟩ := h.inv.index.1 hp
  · rw [(h.static p).id] at hid
    cases hacc : out.accepted with
    | false =>
      rw [(h.refused hacc).1] at hp
      exact .inl hp
    | true =>
      rcases h.held p hheld with hb | rfl
      · exact .inl (hI.index.2 ⟨hid, .inl hb⟩)
      · exact .inr ⟨rfl, hid, rfl⟩
  · cases hF

theorem accepted_of_mem (h : CallEffect order b out) {c : Callback P} (hc : c ∈ out.callbacks) : out.accepted = true := by
  cases hacc : out.accepted with
  | false => rw [(h.refused hacc).2] at hc; cases hc
  | true => rfl

/-- The orders of an accepted call are told apart by their ids. -/
theorem eq_of_id (h : CallEffect order b out) (hI : Inv [] b) (hacc : out.accepted = true) {p q : OrderPtr}
    (hp : b.Held p ∨ p = order) (hq : b.Held q ∨ q = order) (hid : (b.heap p).id = (b.heap q).id) : p = q := by
  have hfree := h.free hacc
  rcases hp with hp | rfl <;> rcases hq with hq | rfl
  · exact hI.eq_of_id (.inl hp) (.inl hq) hid
  · rw [hI.index.2 ⟨hid, .inl hp⟩] at hfree; cases hfree
  · rw [hI.index.2 ⟨hid.symm, .inl hq⟩] at hfree; cases hfree
  · rfl

/-- An announced order that is finished has left the index. -/
theorem finished_gone (h : CallEffect order b out) (hI : Inv [] b) {p : OrderPtr} (hp : .order p ∈ out.callbacks)
    (hf : (out.state.heap p).Finished) : out.state.ordersById.find? (b.heap p).id = none := by
  cases hid : out.state.ordersById.find? (b.heap p).id with
  | none => rfl
  | some p' =>
    obtain ⟨hid', hheld | hF⟩ := h.inv.index.1 hid
    · -- an order of the book with that id is the announced one, and that is not in the book
      rw [(h.static p').id] at hid'
      have heq := h.eq_of_id hI (h.accepted_of_mem hp) (h.held p' hheld) (h.announced p hp) hid'
      exact absurd hf (heq ▸ (h.inv.live hheld).not_finished)
    · cases hF

end CallEffect

end OrderbookGC
