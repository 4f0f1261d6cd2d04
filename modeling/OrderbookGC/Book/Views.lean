/-
What each primitive of the matching engine does to the book, field by field, and the view of the
price maps the proofs reason with: `queue d k`, the orders resting on side `d` at price `k` (none
where there is no level), and `stopQueue d k` for the stop maps.
-/
import OrderbookGC.Book.OrderBook

namespace OrderbookGC

open Container

variable {P : Type} [LinearOrder P]

namespace OrderBook

/-- The orders resting on side `d` at price `k`, oldest first. -/
def queue (b : OrderBook P) (d : OrderSide) (k : P) : List OrderPtr := ((b.levels d).find? k).getD []

/-- The untriggered stop orders of side `d` at stop price `k`, oldest first. -/
def stopQueue (b : OrderBook P) (d : OrderSide) (k : P) : List OrderPtr := ((b.stops d).find? k).getD []

/-- The order at `p` is in one of the book's queues. -/
def Held (b : OrderBook P) (p : OrderPtr) : Prop := (∃ d k, p ∈ b.queue d k) ∨ ∃ d k, p ∈ b.stopQueue d k

theorem queue_eq_of_find? {b : OrderBook P} {d : OrderSide} {k : P} {q : List OrderPtr}
    (h : (b.levels d).find? k = some q) : b.queue d k = q := by
  unfold queue; rw [h]; rfl

theorem find?_of_mem_queue {b : OrderBook P} {d : OrderSide} {k : P} {p : OrderPtr} (h : p ∈ b.queue d k) :
    (b.levels d).find? k = some (b.queue d k) := by
  unfold queue at h ⊢
  cases hf : (b.levels d).find? k with
  | none => rw [hf] at h; cases h
  | some q => rfl

theorem find?_of_mem_stopQueue {b : OrderBook P} {d : OrderSide} {k : P} {p : OrderPtr} (h : p ∈ b.stopQueue d k) :
    (b.stops d).find? k = some (b.stopQueue d k) := by
  unfold stopQueue at h ⊢
  cases hf : (b.stops d).find? k with
  | none => rw [hf] at h; cases h
  | some q => rfl

/-- `a` is at least as good as `b` for a taker meeting the resting side `d`. -/
def atLeast (d : OrderSide) (a b : P) : Prop :=
  match d with
  | .buy => b ≤ a
  | .sell => a ≤ b

theorem bestLevel_eq_some_iff {b : OrderBook P} {d : OrderSide} {k : P} {q : List OrderPtr} :
    b.bestLevel d = some (k, q) ↔
      (b.levels d).find? k = some q ∧ ∀ k' q', (b.levels d).find? k' = some q' → atLeast d k k' := by
  cases d
  · exact SortedMap.max?_eq_some_iff
  · exact SortedMap.min?_eq_some_iff

theorem bestLevel_eq_none_iff {b : OrderBook P} {d : OrderSide} :
    b.bestLevel d = none ↔ ∀ k, (b.levels d).find? k = none := by
  cases d
  · exact SortedMap.max?_eq_none_iff
  · exact SortedMap.min?_eq_none_iff

end OrderBook

namespace MatchState

open OrderBook

section Fields

variable (s : MatchState P) (d e : OrderSide) (m : SortedMap P (List OrderPtr)) (p : OrderPtr)
  (f : Order P → Bool × Order P) (id : String) (k : P) (q : List OrderPtr)

@[simp] theorem setLevels_levels : (s.setLevels d m).levels e = if e = d then m else s.levels e := by
  cases d <;> cases e <;> rfl
@[simp] theorem setLevels_stops : (s.setLevels d m).stops e = s.stops e := by cases d <;> cases e <;> rfl
@[simp] theorem setLevels_heap : (s.setLevels d m).heap = s.heap := by cases d <;> rfl
@[simp] theorem setLevels_nextPtr : (s.setLevels d m).nextPtr = s.nextPtr := by cases d <;> rfl
@[simp] theorem setLevels_symbol : (s.setLevels d m).symbol = s.symbol := by cases d <;> rfl
@[simp] theorem setLevels_tickSize : (s.setLevels d m).tickSize = s.tickSize := by cases d <;> rfl
@[simp] theorem setLevels_ordersById : (s.setLevels d m).ordersById = s.ordersById := by cases d <;> rfl
@[simp] theorem setLevels_pendingTrades : (s.setLevels d m).pendingTrades = s.pendingTrades := by cases d <;> rfl
@[simp] theorem setLevels_pendingOrderUpdates :
    (s.setLevels d m).pendingOrderUpdates = s.pendingOrderUpdates := by cases d <;> rfl
@[simp] theorem setLevels_matchCalls : (s.setLevels d m).matchCalls = s.matchCalls := by cases d <;> rfl

@[simp] theorem setStops_stops : (s.setStops d m).stops e = if e = d then m else s.stops e := by
  cases d <;> cases e <;> rfl
@[simp] theorem setStops_levels : (s.setStops d m).levels e = s.levels e := by cases d <;> cases e <;> rfl
@[simp] theorem setStops_heap : (s.setStops d m).heap = s.heap := by cases d <;> rfl
@[simp] theorem setStops_nextPtr : (s.setStops d m).nextPtr = s.nextPtr := by cases d <;> rfl
@[simp] theorem setStops_symbol : (s.setStops d m).symbol = s.symbol := by cases d <;> rfl
@[simp] theorem setStops_tickSize : (s.setStops d m).tickSize = s.tickSize := by cases d <;> rfl
@[simp] theorem setStops_ordersById : (s.setStops d m).ordersById = s.ordersById := by cases d <;> rfl
@[simp] theorem setStops_pendingTrades : (s.setStops d m).pendingTrades = s.pendingTrades := by cases d <;> rfl
@[simp] theorem setStops_pendingOrderUpdates :
    (s.setStops d m).pendingOrderUpdates = s.pendingOrderUpdates := by cases d <;> rfl
@[simp] theorem setStops_matchCalls : (s.setStops d m).matchCalls = s.matchCalls := by cases d <;> rfl

@[simp] theorem modify_heap : (s.modify p f).heap = Function.update s.heap p (f (s.heap p)).2 := rfl
@[simp] theorem modify_levels : (s.modify p f).levels e = s.levels e := by cases e <;> rfl
@[simp] theorem modify_stops : (s.modify p f).stops e = s.stops e := by cases e <;> rfl

@[simp] theorem eraseId_levels : (s.eraseId id).levels e = s.levels e := by cases e <;> rfl
@[simp] theorem eraseId_stops : (s.eraseId id).stops e = s.stops e := by cases e <;> rfl

@[simp] theorem logMatch_levels : (s.logMatch p).levels e = s.levels e := by cases e <;> rfl
@[simp] theorem logMatch_stops : (s.logMatch p).stops e = s.stops e := by cases e <;> rfl

@[simp] theorem setQueue_heap : (s.setQueue d k q).heap = s.heap := setLevels_heap ..
@[simp] theorem setQueue_stops : (s.setQueue d k q).stops e = s.stops e := setLevels_stops ..
@[simp] theorem setQueue_nextPtr : (s.setQueue d k q).nextPtr = s.nextPtr := setLevels_nextPtr ..
@[simp] theorem setQueue_ordersById : (s.setQueue d k q).ordersById = s.ordersById := setLevels_ordersById ..
@[simp] theorem setQueue_symbol : (s.setQueue d k q).symbol = s.symbol := setLevels_symbol ..
@[simp] theorem setQueue_tickSize : (s.setQueue d k q).tickSize = s.tickSize := setLevels_tickSize ..
@[simp] theorem setQueue_pendingTrades : (s.setQueue d k q).pendingTrades = s.pendingTrades :=
  setLevels_pendingTrades ..
@[simp] theorem setQueue_pendingOrderUpdates :
    (s.setQueue d k q).pendingOrderUpdates = s.pendingOrderUpdates := setLevels_pendingOrderUpdates ..
@[simp] theorem setQueue_matchCalls : (s.setQueue d k q).matchCalls = s.matchCalls := setLevels_matchCalls ..

end Fields

/-- The level map after a queue is written back. -/
theorem setQueue_find? (s : MatchState P) (d e : OrderSide) (key k : P) (q : List OrderPtr) :
    ((s.setQueue d key q).levels e).find? k =
      if e = d ∧ k = key then (if q = [] then none else some q) else (s.levels e).find? k := by
  unfold setQueue
  rw [setLevels_levels]
  by_cases he : e = d
  · subst he
    by_cases hq : q = []
    · simp [hq, SortedMap.find?_erase]
    · simp [hq, SortedMap.find?_insert]
  · simp [he]

theorem setQueue_queue (s : MatchState P) (d e : OrderSide) (key k : P) (q : List OrderPtr) :
    (s.setQueue d key q).queue e k = if e = d ∧ k = key then q else s.queue e k := by
  unfold queue
  rw [setQueue_find?]
  by_cases h : e = d ∧ k = key
  · rw [if_pos h, if_pos h]
    by_cases hq : q = [] <;> simp [hq]
  · rw [if_neg h, if_neg h]

/-- Two states with the same fields, the level maps compared by lookup. -/
theorem ext_levels {s t : MatchState P} (hl : ∀ d k, (s.levels d).find? k = (t.levels d).find? k)
    (hst : ∀ d, s.stops d = t.stops d) (hh : s.heap = t.heap) (hi : s.ordersById = t.ordersById)
    (hn : s.nextPtr = t.nextPtr) (hsy : s.symbol = t.symbol) (hti : s.tickSize = t.tickSize)
    (ht : s.pendingTrades = t.pendingTrades) (hu : s.pendingOrderUpdates = t.pendingOrderUpdates)
    (hm : s.matchCalls = t.matchCalls) : s = t := by
  have hb : s.bids = t.bids := SortedMap.ext_find? (hl .buy)
  have ha : s.asks = t.asks := SortedMap.ext_find? (hl .sell)
  have hsb : s.stopBuyOrders = t.stopBuyOrders := hst .buy
  have hss : s.stopSellOrders = t.stopSellOrders := hst .sell
  rcases s with ⟨⟨_, _, _, _, _, _, _, _, _⟩, _, _, _⟩
  rcases t with ⟨⟨_, _, _, _, _, _, _, _, _⟩, _, _, _⟩
  simp only at hb ha hsb hss hh hi hn hsy hti ht hu hm
  subst hb ha hsb hss hh hi hn hsy hti ht hu hm
  rfl

/-- Writing a level back twice keeps the last write. -/
theorem setQueue_setQueue (s : MatchState P) (d : OrderSide) (key : P) (q q' : List OrderPtr) :
    (s.setQueue d key q).setQueue d key q' = s.setQueue d key q' := by
  apply ext_levels <;> intros <;> simp only [setQueue_find?, setQueue_stops, setQueue_heap, setQueue_ordersById,
    setQueue_nextPtr, setQueue_symbol, setQueue_tickSize, setQueue_pendingTrades, setQueue_pendingOrderUpdates,
    setQueue_matchCalls]
  split_ifs <;> rfl

/-- Writing back the queue a level already holds changes nothing. -/
theorem setQueue_self {s : MatchState P} {d : OrderSide} {key : P} {q : List OrderPtr} (hq : q ≠ [])
    (h : (s.levels d).find? key = some q) : s.setQueue d key q = s := by
  apply ext_levels <;> intros <;> simp only [setQueue_find?, setQueue_stops, setQueue_heap, setQueue_ordersById,
    setQueue_nextPtr, setQueue_symbol, setQueue_tickSize, setQueue_pendingTrades, setQueue_pendingOrderUpdates,
    setQueue_matchCalls]
  split_ifs with hc
  · rw [hc.1, hc.2, h]
  · rfl

/-! ## A trade, both sides at once -/

/-- The record of a trade between the taker `order` of `side` and the resting order `matching`. -/
def tradeOf (side : OrderSide) (order matching : OrderPtr) (quantity : UInt32) (s : MatchState P) : Trade P :=
  { buyOrderId := (s.heap (if side = .buy then order else matching)).id
    sellOrderId := (s.heap (if side = .buy then matching else order)).id
    symbol := s.symbol, price := (s.heap matching).price, quantity }

def updatesOf (side : OrderSide) (order matching : OrderPtr) : List OrderPtr :=
  if side = .buy then [order, matching] else [matching, order]

theorem mem_updatesOf {side : OrderSide} {order matching p : OrderPtr} :
    p ∈ updatesOf side order matching ↔ p = order ∨ p = matching := by
  cases side <;> simp [updatesOf, or_comm]

/-- A trade between two different orders, in one equation for both sides. -/
theorem tradeWith_eq {side : OrderSide} {order matching : OrderPtr} (hne : order ≠ matching) (q : UInt32)
    (s : MatchState P) :
    tradeWith side order matching q s =
      { s with
        heap := Function.update (Function.update s.heap order ((s.heap order).fill q).2) matching
          ((s.heap matching).fill q).2
        pendingTrades := s.pendingTrades ++ [tradeOf side order matching q s]
        pendingOrderUpdates := s.pendingOrderUpdates ++ updatesOf side order matching } := by
  have ho := ((s.heap order).fill_static q).id
  have hm := ((s.heap matching).fill_static q).id
  cases side
  · simp [tradeWith, executeTrade, modify, tradeOf, updatesOf, Function.update_of_ne hne,
      Function.update_of_ne hne.symm, ho, hm]
  · simp [tradeWith, executeTrade, modify, tradeOf, updatesOf, Function.update_of_ne hne,
      Function.update_of_ne hne.symm, ho, hm, Function.update_comm hne]

end MatchState

end OrderbookGC
