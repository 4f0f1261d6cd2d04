/-
Which changes of a call of `addOrder` are announced through `order_callback_`. Only `executeTrade`
queues updates, so besides the incoming order exactly the orders that traded are announced; the
activation loop of `processStopOrders` changes the type of a triggered order, and cancels a market
remainder, without queueing it. A change is thus missed exactly when a stop order is activated and
takes part in no trade of the call (`run_notified_iff`). Which orders that concerns is decided by the
book before the call: price-time priority fixes the trades (`AddEffect.refTrades`).
-/
import OrderbookGC.Book.Call
import OrderbookGC.Book.Priority
import OrderbookGC.Book.Conservation
import OrderbookGC.Book.Stops

namespace OrderbookGC

open Container OrderBook MatchState

variable {P : Type} [LinearOrder P]

/-- The announced orders: everything changed by the call from `b` is passed to the order callback,
and the incoming order is passed exactly once, last. -/
structure Notified (order : OrderPtr) (b : OrderBook P) (out : AddOutcome P) : Prop where
  changed : ∀ p, ((out.state.heap p).status ≠ (b.heap p).status ∨
    (out.state.heap p).remainingQuantity ≠ (b.heap p).remainingQuantity ∨
    (out.state.heap p).orderType ≠ (b.heap p).orderType) → .order p ∈ out.callbacks
  once : out.callbacks.count (.order order) = 1
  last : out.callbacks.getLast? = some (.order order)

/-- Every stop order of the book that the trades of the call reach takes part in one of them; the
trades are those price-time priority makes from the book before the call. -/
def ActivationsTrade (order : OrderPtr) (b : OrderBook P) : Prop :=
  ∀ e, b.toRef.addOrder (b.heap order).ref = some e → ∀ d k p, p ∈ b.stopQueue d k →
    (∃ t ∈ e.trades, triggeredBy d t.price k = true) →
    ∃ t ∈ e.trades, t.buyOrderId = (b.heap p).id ∨ t.sellOrderId = (b.heap p).id

theorem mem_stopQueue_iff {b : OrderBook P} {d : OrderSide} {k : P} {p : OrderPtr} :
    p ∈ b.stopQueue d k ↔ ∃ q, (k, q) ∈ (b.stops d).entries ∧ p ∈ q := by
  simp only [← SortedMap.find?_eq_some_iff]
  unfold OrderBook.stopQueue
  cases (b.stops d).find? k <;> simp

instance (order : OrderPtr) (b : OrderBook P) : Decidable (ActivationsTrade order b) :=
  match h : b.toRef.addOrder (b.heap order).ref with
  | none => isTrue fun e he => by rw [h] at he; cases he
  | some e =>
    decidable_of_iff (∀ d ∈ [OrderSide.buy, .sell], ∀ l ∈ (b.stops d).entries, ∀ p ∈ l.2,
      (∃ t ∈ e.trades, triggeredBy d t.price l.1 = true) →
      ∃ t ∈ e.trades, t.buyOrderId = (b.heap p).id ∨ t.sellOrderId = (b.heap p).id) <| by
      constructor
      · intro hall e' he' d k p hp
        rw [h] at he'
        cases he'
        obtain ⟨q, hq, hpq⟩ := mem_stopQueue_iff.1 hp
        exact hall d (by cases d <;> simp) (k, q) hq p hpq
      · rintro hall d - ⟨k, q⟩ hq p hp
        exact hall e h d k p (mem_stopQueue_iff.2 ⟨q, hq, hp⟩)

/-! ## What a cascade changes -/

/-- The changes in the middle of a call that began in `s₀` with `order` incoming: `F` are in flight and
the first `n` trades have been looked at by the trigger loop. -/
structure ChangeInv (order : OrderPtr) (s₀ : MatchState P) (n : Nat) (F : List OrderPtr) (s : MatchState P) : Prop where
  /-- An object changes by trading, by being triggered, or because it is the incoming order. -/
  heap : ∀ p, p ≠ order → p ∉ s.pendingOrderUpdates → s.heap p ≠ s₀.heap p →
    ∃ d k, p ∈ s₀.stopQueue d k ∧ reachedBy d (s.pendingTrades.take n) k = true
  static : ∀ p, (s₀.heap p).SameStatic (s.heap p)
  /-- A triggered order is no stop order any more. -/
  untyped : ∀ d k p, p ∈ s₀.stopQueue d k → reachedBy d (s.pendingTrades.take n) k = true →
    (s.heap p).isStopOrder = false
  flight : ∀ p ∈ F, p = order ∨ ∃ d k, p ∈ s₀.stopQueue d k ∧ reachedBy d (s.pendingTrades.take n) k = true
  known : ∀ p, s.Held p → s₀.Held p ∨ p = order
  /-- The updates are the orders the trades name. -/
  names : ∀ p ∈ s.pendingOrderUpdates, ∃ t ∈ s.pendingTrades, t.Names (s₀.heap p).id
  named : ∀ t ∈ s.pendingTrades, ∀ id, t.Names id →
    ∃ p ∈ s.pendingOrderUpdates, (s₀.Held p ∨ p = order) ∧ (s₀.heap p).id = id

namespace ChangeInv

variable {order : OrderPtr} {s₀ s s' : MatchState P} {n : Nat} {F : List OrderPtr}

theorem inFlight_known (h : ChangeInv order s₀ n F s) {p : OrderPtr} (hp : s.Held p ∨ p ∈ F) :
    s₀.Held p ∨ p = order := by
  rcases hp with hp | hp
  · exact h.known p hp
  · rcases h.flight p hp with rfl | ⟨d, k, hk, -⟩
    · exact .inr rfl
    · exact .inl (.inr ⟨d, k, hk⟩)

theorem hit {taker maker : OrderPtr} {key : P} {rest : List OrderPtr} (h : ChangeInv order s₀ n (taker :: F) s)
    (hS : StopInv s₀ n F s) (hI : Inv (taker :: F) s.toOrderBook) (he : HitEffect taker key maker rest s s') :
    ChangeInv order s₀ n (taker :: F) s' := by
  have htake : s'.pendingTrades.take n = s.pendingTrades.take n := by
    rw [he.trades, List.take_append_of_le_length hS.le]
  have hm : s.Held maker := .inl ⟨_, key, by rw [he.makerMem]; exact List.mem_cons_self ..⟩
  have hid : ∀ p, (s.heap p).id = (s₀.heap p).id := fun p => (h.static p).id
  have hupd : ∀ p, p ∈ s'.pendingOrderUpdates ↔ p ∈ s.pendingOrderUpdates ∨ p = taker ∨ p = maker := fun p => by
    rw [he.updates, List.mem_append, mem_updatesOf]
  -- the new trade names the taker and the maker
  have hnew : ∀ id, (tradeOf (s.heap taker).side taker maker (hitQuantity taker maker s) s).Names id ↔
      (s₀.heap taker).id = id ∨ (s₀.heap maker).id = id := by
    intro id
    unfold Trade.Names tradeOf
    rw [← hid taker, ← hid maker]
    cases (s.heap taker).side
    · simp
    · simp [or_comm]
  rw [he.trades] at htake
  refine ⟨fun p hp hno hne => ?_, fun p => (h.static p).trans (he.static p), fun d k p hp hr => ?_, fun p hp => ?_,
    fun p hp => h.known p ((he.held_iff hI.toBookInv).1 hp).1, fun p hp => ?_, fun t ht id hn => ?_⟩
  · rw [hupd] at hno
    rw [he.heapOther p (fun hc => hno (.inr (.inl hc))) (fun hc => hno (.inr (.inr hc)))] at hne
    rw [he.trades, htake]
    exact h.heap p hp (fun hc => hno (.inl hc)) hne
  · rw [he.trades, htake] at hr
    rw [he.isStopOrder]; exact h.untyped d k p hp hr
  · rw [he.trades, htake]; exact h.flight p hp
  · rw [he.trades]
    rcases (hupd p).1 hp with hp | hp
    · obtain ⟨t, ht, hn⟩ := h.names p hp
      exact ⟨t, List.mem_append_left _ ht, hn⟩
    · refine ⟨_, List.mem_append_right _ (List.mem_singleton.2 rfl), (hnew _).2 ?_⟩
      rcases hp with rfl | rfl
      · exact .inl rfl
      · exact .inr rfl
  · rw [he.trades] at ht
    rcases List.mem_append.1 ht with ht | ht
    · obtain ⟨p, hp, h1⟩ := h.named t ht id hn
      exact ⟨p, (hupd p).2 (.inl hp), h1⟩
    · rw [List.mem_singleton.1 ht, hnew] at hn
      rcases hn with hn | hn
      · exact ⟨taker, (hupd _).2 (.inr (.inl rfl)), h.inFlight_known (.inr (List.mem_cons_self ..)), hn⟩
      · exact ⟨maker, (hupd _).2 (.inr (.inr rfl)), h.inFlight_known (.inl hm), hn⟩

theorem place {taker : OrderPtr} (h : ChangeInv order s₀ n (taker :: F) s) (he : PlaceEffect taker s s') :
    ChangeInv order s₀ n F s' := by
  obtain ⟨-, ht, hu, -, -⟩ := he.frame
  have hst : ∀ p, (s.heap p).SameStatic (s'.heap p) := fun p => by
    rcases he.heap p with heq | ⟨-, -, -, heq⟩
    · rw [heq]; exact .refl _
    · rw [heq]; exact ⟨rfl, rfl, rfl, rfl, rfl, rfl, rfl, rfl⟩
  refine ⟨fun p hp hno hne => ?_, fun p => (h.static p).trans (hst p), fun d k p hp hr => ?_, fun p hp => ?_,
    fun p hp => ?_, fun p hp => ?_, fun t htt id hn => ?_⟩
  · rw [hu] at hno
    rw [ht]
    rcases he.heap p with heq | ⟨rfl, -⟩
    · rw [heq] at hne; exact h.heap p hp hno hne
    · rcases h.flight p (List.mem_cons_self ..) with heq | hr
      · exact absurd heq hp
      · exact hr
  · rw [ht] at hr
    have hb := h.untyped d k p hp hr
    rcases he.heap p with heq | ⟨-, -, -, heq⟩ <;> rw [heq]
    · exact hb
    · exact hb
  · rw [ht]; exact h.flight p (List.mem_cons_of_mem _ hp)
  · rcases he.held hp with hp | rfl
    · exact h.known p hp
    · exact h.inFlight_known (.inr (List.mem_cons_self ..))
  · rw [hu] at hp
    rw [ht]; exact h.names p hp
  · rw [ht] at htt
    rw [hu]; exact h.named t htt id hn

theorem trigger {triggered : List OrderPtr} (h : ChangeInv order s₀ n [] s) (hS : StopInv s₀ n [] s)
    (hI : Inv [] s.toOrderBook) (he : TriggerEffect (newPrices n s) triggered s s') :
    ChangeInv order s₀ s.pendingTrades.length triggered s' := by
  have htake : s'.pendingTrades.take s.pendingTrades.length = s.pendingTrades := by rw [he.trades, List.take_length]
  have hold : ∀ d k, reachedBy d (s.pendingTrades.take n) k = true → reachedBy d s.pendingTrades k = true := by
    intro d k hr
    obtain ⟨t, ht, htr⟩ := reachedBy_iff.1 hr
    exact reachedBy_iff.2 ⟨t, List.mem_of_mem_take ht, htr⟩
  have htrig : ∀ p ∈ triggered, ∃ d k, p ∈ s₀.stopQueue d k ∧ reachedBy d s.pendingTrades k = true := by
    intro p hp
    obtain ⟨d, k, hk, hr⟩ := (he.mem p).1 hp
    refine ⟨d, k, ?_, ?_⟩
    · unfold OrderBook.stopQueue at hk ⊢
      rw [hS.stops] at hk
      split_ifs at hk
      · cases hk
      · exact hk
    · rw [reached_newPrices] at hr
      obtain ⟨t, ht, htr⟩ := reachedBy_iff.1 hr
      exact reachedBy_iff.2 ⟨t, List.mem_of_mem_drop ht, htr⟩
  have hI' := he.inv hI
  refine ⟨fun p hp hno hne => ?_, fun p => (h.static p).trans (he.static p), fun d k p hp hr => ?_, fun p hp => ?_,
    fun p hp => h.known p ((he.held_iff hI.toBookInv).1 hp).1, fun p hp => ?_, fun t ht id hn => ?_⟩
  · rw [he.updates] at hno
    rw [htake]
    by_cases hpt : p ∈ triggered
    · exact htrig p hpt
    · rw [he.heap, if_neg hpt] at hne
      obtain ⟨d, k, hk, hr⟩ := h.heap p hp hno hne
      exact ⟨d, k, hk, hold d k hr⟩
  · by_cases hpt : p ∈ triggered
    · exact hI'.flightType p hpt
    · rw [he.heap, if_neg hpt]
      rw [htake] at hr
      by_cases hro : reachedBy d (s.pendingTrades.take n) k = true
      · exact h.untyped d k p hp hro
      · -- reached only now, so it was still in its queue and is triggered
        refine absurd ((he.mem p).2 ⟨d, k, ?_, ?_⟩) hpt
        · unfold OrderBook.stopQueue at hp ⊢
          rw [hS.stops, if_neg hro]; exact hp
        · rw [reached_newPrices]
          obtain ⟨t, ht, htr⟩ := reachedBy_iff.1 hr
          rw [← List.take_append_drop n s.pendingTrades] at ht
          rcases List.mem_append.1 ht with ht | ht
          · exact absurd (reachedBy_iff.2 ⟨t, ht, htr⟩) hro
          · exact reachedBy_iff.2 ⟨t, ht, htr⟩
  · rw [htake]; exact .inr (htrig p hp)
  · rw [he.updates] at hp
    rw [he.trades]; exact h.names p hp
  · rw [he.trades] at ht
    rw [he.updates]; exact h.named t ht id hn

end ChangeInv

theorem MatchState.Cascade.changeInv (order : OrderPtr) {s₀ s s' : MatchState P} {n : Nat} {F : List OrderPtr}
    (h : Cascade n F s s') (hI : Inv F s.toOrderBook) (hS : StopInv s₀ n F s) (hC : ChangeInv order s₀ n F s) :
    ChangeInv order s₀ s'.pendingTrades.length [] s' :=
  (h.rule (J := fun n F t => StopInv s₀ n F t ∧ ChangeInv order s₀ n F t)
    (M := fun n taker F t => StopInv s₀ n F t ∧ ChangeInv order s₀ n (taker :: F) t)
    (fun _ _ _ _ _ hJ => ⟨hJ.1.log, hJ.2.heap, hJ.2.static, hJ.2.untyped, hJ.2.flight, hJ.2.known, hJ.2.names, hJ.2.named⟩)
    (fun _ _ _ _ _ _ _ _ hI hJ _ he => ⟨hJ.1.hit hI he, hJ.2.hit hJ.1 hI he⟩)
    (fun _ _ _ _ _ hI hJ _ he => ⟨hJ.1.place hI he, hJ.2.place he⟩)
    (fun _ _ _ _ hI hJ _ he => ⟨hJ.1.trigger hI he, hJ.2.trigger hJ.1 hI he⟩) hI ⟨hS, hC⟩).2.2

/-! ## The callbacks of a call -/

theorem fireCallbacks_last (order : OrderPtr) (s : MatchState P) :
    (fireCallbacks order s).getLast? = some (.order order) := by
  unfold fireCallbacks
  rw [List.getLast?_append]; rfl

theorem fireCallbacks_once [DecidableEq P] (order : OrderPtr) (s : MatchState P) :
    (fireCallbacks order s).count (.order order) = 1 := by
  unfold fireCallbacks
  have h1 : (s.pendingTrades.map Callback.trade).count (.order order) = 0 := List.count_eq_zero.2 (by simp)
  have h2 : ((s.pendingOrderUpdates.filter (· ≠ order)).map (Callback.order (P := P))).count (.order order) = 0 :=
    List.count_eq_zero.2 (by simp)
  rw [List.count_append, List.count_append, h1, h2]
  simp

/-- What an accepted call changes and announces. -/
structure Changes (order : OrderPtr) (b : OrderBook P) (out : AddOutcome P) : Prop where
  /-- Only a stop order that the trades reach changes without being announced. -/
  unannounced : ∀ p, .order p ∉ out.callbacks → out.state.heap p ≠ b.heap p →
    ∃ d k, p ∈ b.stopQueue d k ∧ reachedBy d out.state.pendingTrades k = true
  untyped : ∀ d k p, p ∈ b.stopQueue d k → reachedBy d out.state.pendingTrades k = true →
    (out.state.heap p).isStopOrder = false
  /-- Besides the incoming order, the announced orders are those the trades name. -/
  names : ∀ p, .order p ∈ out.callbacks → p = order ∨ ∃ t ∈ out.state.pendingTrades, t.Names (b.heap p).id
  named : ∀ t ∈ out.state.pendingTrades, ∀ id, t.Names id →
    ∃ p, .order p ∈ out.callbacks ∧ (b.Held p ∨ p = order) ∧ (b.heap p).id = id
  callbacks : out.callbacks = fireCallbacks order out.state

theorem AddEffect.changes {order : OrderPtr} {b : OrderBook P} {out : AddOutcome P} (he : AddEffect order b out)
    (hI : Inv [] b) (hacc : out.accepted = true) : Changes order b out := by
  cases he with
  | refused _ => cases hacc
  | stopped ha hid hs =>
    have hnone : ((entered order b).addStopOrder order).pendingTrades = [] := addStopOrder_pendingTrades ..
    refine ⟨fun p _ hne => absurd (congrFun (addStopOrder_heap order (entered order b)) p) hne, fun d k p _ hr => ?_,
      fun p hp => ?_, fun t ht => ?_, rfl⟩
    · rw [hnone] at hr
      cases hr
    · rcases mem_fireCallbacks.1 hp with hp | hp
      · rw [addStopOrder_pendingOrderUpdates] at hp
        cases hp
      · exact .inl hp
    · rw [hnone] at ht
      cases ht
  | @matched s' ha hid hs hc =>
    have hE := entered_inv hI ha hid hs
    have hS : StopInv (entered order b) 0 [order] (entered order b) :=
      ⟨Nat.zero_le _, fun _ _ => rfl, fun _ _ _ _ => rfl, fun _ _ _ _ hr => by cases hr⟩
    have hC := hc.changeInv order hE hS ⟨fun _ _ _ hne => absurd rfl hne, fun _ => .refl _,
      fun _ _ _ _ hr => (by cases hr), fun p hp => .inl (List.mem_singleton.1 hp), fun _ hp => .inl hp,
      fun _ hp => (by cases hp), fun _ ht => (by cases ht)⟩
    have hq : ∀ d k, (entered order b).stopQueue d k = b.stopQueue d k := fun d k => by cases d <;> rfl
    have htake : s'.pendingTrades.take s'.pendingTrades.length = s'.pendingTrades := List.take_length ..
    refine ⟨fun p hno hne => ?_, fun d k p hp hr => hC.untyped d k p (by rwa [hq]) (by rwa [htake]), fun p hp => ?_,
      fun t ht id hn => ?_, rfl⟩
    · rw [mem_fireCallbacks, not_or] at hno
      obtain ⟨d, k, hk, hr⟩ := hC.heap p hno.2 hno.1 hne
      exact ⟨d, k, by rwa [hq] at hk, by rwa [htake] at hr⟩
    · exact (mem_fireCallbacks.1 hp).symm.imp_right (hC.names p)
    · obtain ⟨p, hp, hk, hid'⟩ := hC.named t ht id hn
      exact ⟨p, mem_fireCallbacks.2 (.inl hp), hk, hid'⟩

/-- One call announces everything exactly when every stop order it activates trades. -/
theorem AddEffect.notified_iff {order : OrderPtr} {b : OrderBook P} {out : AddOutcome P} (he : AddEffect order b out)
    (hI : Inv [] b) (hacc : out.accepted = true) : Notified order b out ↔ ActivationsTrade order b := by
  obtain ⟨e, hre, htr⟩ := he.refTrades hI
  have hC := he.changes hI hacc
  have htrades : ∀ {Q : String → String → P → Prop}, (∃ t ∈ e.trades, Q t.buyOrderId t.sellOrderId t.price) ↔
      ∃ t ∈ out.state.pendingTrades, Q t.buyOrderId t.sellOrderId t.price := by
    intro Q
    rw [htr]
    simp only [List.mem_map, exists_exists_and_eq_and]
    rfl
  have hreach : ∀ d k, reachedBy d out.state.pendingTrades k = true ↔ ∃ t ∈ e.trades, triggeredBy d t.price k = true :=
    fun d k => by rw [reachedBy_iff, htrades (Q := fun _ _ x => triggeredBy d x k = true)]
  constructor
  · -- a reached stop order has changed its type, so it is announced, so it is named by a trade
    intro hN e' he' d k p hp ht
    rw [hre] at he'
    cases he'
    have hns := hC.untyped d k p hp ((hreach d k).2 ht)
    have hwas := (hI.toBookInv.stop hp).2.2
    have htype : (out.state.heap p).orderType ≠ (b.heap p).orderType := fun htype => by
      unfold Order.isStopOrder at hns hwas
      rw [htype, hwas] at hns; cases hns
    rcases hC.names p (hN.changed p (.inr (.inr htype))) with rfl | ⟨t, htm, hn⟩
    · have hfree := (he.call hI).free hacc
      rw [hI.index.2 ⟨rfl, .inl (.inr ⟨d, k, hp⟩)⟩] at hfree
      cases hfree
    · exact (htrades (Q := fun x y _ => x = (b.heap p).id ∨ y = (b.heap p).id)).2 ⟨t, htm, hn⟩
  · intro hA
    refine ⟨fun p hp => ?_, by rw [hC.callbacks]; exact fireCallbacks_once .., by rw [hC.callbacks]; exact fireCallbacks_last ..⟩
    by_contra hno
    have hne : out.state.heap p ≠ b.heap p := fun heq => by simp [heq] at hp
    obtain ⟨d, k, hk, hr⟩ := hC.unannounced p hno hne
    obtain ⟨t, htm, hn⟩ := (htrades (Q := fun x y _ => x = (b.heap p).id ∨ y = (b.heap p).id)).1
      (hA e hre d k p hk ((hreach d k).1 hr))
    -- the order that trade names is `p` itself: ids are unique among the orders of the call
    obtain ⟨p', hp', hheld, hid'⟩ := hC.named t htm (b.heap p).id hn
    exact hno ((he.call hI).eq_of_id hI hacc hheld (.inl (.inr ⟨d, k, hk⟩)) hid' ▸ hp')

/-- For every call on every reachable book that accepts its order: the call announces every change,
and the incoming order exactly once and last, if and only if every stop order it activates takes
part in one of its trades. -/
theorem run_notified_iff (symbol : String) (tickSize : P) (ops : List (BookOp P)) (hfresh : ∀ op ∈ ops, op.Fresh)
    (o : Order P) (ho : o.Fresh) :
    ∃ r out, run symbol tickSize ops = some r ∧
      addOrder (some (r.book.alloc o).1) (r.book.alloc o).2 = some out ∧
      (out.accepted = true → (Notified (r.book.alloc o).1 (r.book.alloc o).2 out ↔
        ActivationsTrade (r.book.alloc o).1 (r.book.alloc o).2)) := by
  obtain ⟨r, hr, hI⟩ := run_inv symbol tickSize hfresh
  obtain ⟨hI', out, hout, he⟩ := alloc_addOrder hI ho
  exact ⟨r, out, hr, hout, he.notified_iff hI'⟩

theorem run_notified_iff_cascadeOps : ∃ r out, run "S" 1 cascadeOps = some r ∧
    addOrder (some (r.book.alloc (.new "d" .sell 99 1 "S" "m" .limit 0 7)).1)
      (r.book.alloc (.new "d" .sell 99 1 "S" "m" .limit 0 7)).2 = some out ∧
    (out.accepted = true → (Notified (r.book.alloc (.new "d" .sell 99 1 "S" "m" .limit 0 7)).1
        (r.book.alloc (.new "d" .sell 99 1 "S" "m" .limit 0 7)).2 out ↔
      ActivationsTrade (r.book.alloc (.new "d" .sell 99 1 "S" "m" .limit 0 7)).1
        (r.book.alloc (.new "d" .sell 99 1 "S" "m" .limit 0 7)).2)) :=
  run_notified_iff "S" 1 cascadeOps cascadeOps_fresh _ (.inl rfl)

/-- A resting sell order and a buy stop at its price. -/
def silentOps : List (BookOp Nat) :=
  [.addOrder (.new "a" .sell 100 5 "S" "m" .limit 0 0), .addOrder (.new "s" .buy 0 3 "S" "n" .stop 100 1)]

/-- A buy order that takes all of the sell order: its trade triggers the stop, which becomes a
market order, finds nothing to buy and is cancelled, and is not announced. -/
theorem run_notified_fails : ∃ r out, run "S" 1 silentOps = some r ∧
    addOrder (some (r.book.alloc (.new "b" .buy 100 5 "S" "o" .limit 0 2)).1)
      (r.book.alloc (.new "b" .buy 100 5 "S" "o" .limit 0 2)).2 = some out ∧ out.accepted = true ∧
    (out.state.heap 1).status = .canceled ∧ (out.state.heap 1).orderType = .market ∧
    ¬ Notified (r.book.alloc (.new "b" .buy 100 5 "S" "o" .limit 0 2)).1
      (r.book.alloc (.new "b" .buy 100 5 "S" "o" .limit 0 2)).2 out := by
  refine ⟨_, _, rfl, rfl, by decide, by decide, by decide, fun h => ?_⟩
  have := h.changed 1 (.inl (by decide))
  revert this
  decide

end OrderbookGC
