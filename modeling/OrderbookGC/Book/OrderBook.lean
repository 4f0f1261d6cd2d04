/-
The matching engine of `orderbook.h`/`orderbook.cpp`. Orders are objects shared through pointers:
the heap holds them by address and every map and queue of the book holds addresses, so a fill is
seen through all of them. A queue is a `std::vector` in arrival order; each price map is a
`std::map` ascending by price. `addOrder` and `cancelOrder` are functions of the book and its heap;
the vectors of pending trades and updates they pass around are fields of `MatchState`.

A loop of the source that has no structural bound runs on fuel, `none` standing for a loop still
running when the fuel is spent; `addOrder` gives each loop the fuel its state needs.
-/
import OrderbookGC.Container.SortedMap
import OrderbookGC.Book.Order
import Mathlib.Data.String.Basic
import Mathlib.Logic.Function.Basic

namespace OrderbookGC

open Container

/-- The address of an order object. -/
abbrev OrderPtr := Nat

structure OrderBook (P : Type) [LinearOrder P] where
  symbol : String
  tickSize : P
  /-- The order objects handed to this book, by address; addresses from `nextPtr` on are free. -/
  heap : OrderPtr → Order P
  nextPtr : OrderPtr
  ordersById : SortedMap String OrderPtr
  bids : SortedMap P (List OrderPtr)
  asks : SortedMap P (List OrderPtr)
  stopBuyOrders : SortedMap P (List OrderPtr)
  stopSellOrders : SortedMap P (List OrderPtr)

/-- The book inside one call of `addOrder`, with the events collected so far. `matchCalls` is
specification only: the orders passed to `matchOrder`, each with the number of trades before it. -/
structure MatchState (P : Type) [LinearOrder P] extends OrderBook P where
  pendingTrades : List (Trade P)
  pendingOrderUpdates : List OrderPtr
  matchCalls : List (OrderPtr × Nat)

/-- An invocation of one of the book's two callbacks. -/
inductive Callback (P : Type)
  | trade (t : Trade P)
  | order (p : OrderPtr)
deriving DecidableEq

variable {P : Type} [LinearOrder P]

namespace OrderBook

/-- A book without orders; what free addresses hold is arbitrary. -/
def empty (symbol : String) (tickSize : P) : OrderBook P :=
  { symbol, tickSize, heap := fun _ => .new "" .buy tickSize 0 "" "" .limit tickSize 0, nextPtr := 0,
    ordersById := .empty, bids := .empty, asks := .empty, stopBuyOrders := .empty, stopSellOrders := .empty }

/-- `std::make_shared<Order>`: a new object at a free address. -/
def alloc (b : OrderBook P) (o : Order P) : OrderPtr × OrderBook P :=
  (b.nextPtr, { b with heap := Function.update b.heap b.nextPtr o, nextPtr := b.nextPtr + 1 })

/-- The resting orders of a side: `bids_` or `asks_`. -/
def levels (b : OrderBook P) : OrderSide → SortedMap P (List OrderPtr)
  | .buy => b.bids
  | .sell => b.asks

/-- The untriggered stop orders of a side. -/
def stops (b : OrderBook P) : OrderSide → SortedMap P (List OrderPtr)
  | .buy => b.stopBuyOrders
  | .sell => b.stopSellOrders

/-- The level a taker of the opposite side meets first: `rbegin` of the bids, `begin` of the asks. -/
def bestLevel (b : OrderBook P) : OrderSide → Option (P × List OrderPtr)
  | .buy => b.bids.max?
  | .sell => b.asks.min?

def getOrder (b : OrderBook P) (orderId : String) : Option OrderPtr := b.ordersById.find? orderId

end OrderBook

namespace MatchState

def start (b : OrderBook P) : MatchState P :=
  { b with pendingTrades := [], pendingOrderUpdates := [], matchCalls := [] }

def setLevels (s : MatchState P) (side : OrderSide) (m : SortedMap P (List OrderPtr)) : MatchState P :=
  match side with
  | .buy => { s with bids := m }
  | .sell => { s with asks := m }

def setStops (s : MatchState P) (side : OrderSide) (m : SortedMap P (List OrderPtr)) : MatchState P :=
  match side with
  | .buy => { s with stopBuyOrders := m }
  | .sell => { s with stopSellOrders := m }

/-- Run a mutator of the object at `p`. -/
def modify (s : MatchState P) (p : OrderPtr) (f : Order P → Bool × Order P) : MatchState P :=
  { s with heap := Function.update s.heap p (f (s.heap p)).2 }

def eraseId (s : MatchState P) (id : String) : MatchState P := { s with ordersById := s.ordersById.erase id }

/-- The vector at a price level: written back, or the level erased once it is empty. -/
def setQueue (s : MatchState P) (side : OrderSide) (key : P) (queue : List OrderPtr) : MatchState P :=
  s.setLevels side (if queue.isEmpty then (s.levels side).erase key else (s.levels side).insert key queue)

/-! ## Matching -/

/-- `executeTrade`: both fills, whose results the source ignores, then the trade and two updates. -/
def executeTrade (buyOrder sellOrder : OrderPtr) (quantity : UInt32) (price : P) (s : MatchState P) : MatchState P :=
  let s := s.modify buyOrder (·.fill quantity)
  let s := s.modify sellOrder (·.fill quantity)
  { s with
    pendingTrades := s.pendingTrades ++
      [{ buyOrderId := (s.heap buyOrder).id, sellOrderId := (s.heap sellOrder).id, symbol := s.symbol, price, quantity }]
    pendingOrderUpdates := s.pendingOrderUpdates ++ [buyOrder, sellOrder] }

/-- A taker of `side` against a resting order, at the resting order's price. -/
def tradeWith (side : OrderSide) (order matching : OrderPtr) (quantity : UInt32) (s : MatchState P) : MatchState P :=
  match side with
  | .buy => executeTrade order matching quantity (s.heap matching).price s
  | .sell => executeTrade matching order quantity (s.heap matching).price s

/-- The inner loop of `matchOrder`: the queue at one price from its front, until it is empty, the
taker is exhausted, or the front order keeps a remainder. The queue left over is returned; nothing
reads the map before the caller writes it back. -/
def matchLevel (side : OrderSide) (order : OrderPtr) : List OrderPtr → MatchState P → List OrderPtr × MatchState P
  | [], s => ([], s)
  | matching :: rest, s =>
    if 0 < (s.heap order).remainingQuantity then
      let quantity := min (s.heap order).remainingQuantity (s.heap matching).remainingQuantity
      let s := if 0 < quantity then tradeWith side order matching quantity s else s
      if (s.heap matching).remainingQuantity = 0 then
        matchLevel side order rest (s.eraseId (s.heap matching).id)
      else (matching :: rest, s)
    else (matching :: rest, s)

/-- A limit taker of `side` accepts a resting price: not `price < ask`, not `price > bid`. -/
def accepts (side : OrderSide) (price key : P) : Bool :=
  match side with
  | .buy => !decide (price < key)
  | .sell => !decide (price > key)

/-- The outer loop of `matchOrder`, from the best opposite level on. -/
def matchLoop (side : OrderSide) (isMarket : Bool) (order : OrderPtr) : Nat → MatchState P → Option (MatchState P)
  | 0, _ => none
  | fuel + 1, s =>
    if 0 < (s.heap order).remainingQuantity then
      match s.bestLevel side.opposite with
      | none => some s
      | some (key, queue) =>
        if !isMarket && !accepts side (s.heap order).price key then some s
        else
          let (queue, s) := matchLevel side order queue s
          matchLoop side isMarket order fuel (s.setQueue side.opposite key queue)
    else some s

def logMatch (s : MatchState P) (order : OrderPtr) : MatchState P :=
  { s with matchCalls := s.matchCalls ++ [(order, s.pendingTrades.length)] }

def matchOrder (order : OrderPtr) (s : MatchState P) : Option (MatchState P) :=
  let o := s.heap order
  matchLoop o.side (o.orderType = .market) order ((s.levels o.side.opposite).entries.length + 1) (s.logMatch order)

/-- `bids_[price].push_back(order)`, or the same on `asks_`. -/
def addOrderToBook (order : OrderPtr) (s : MatchState P) : MatchState P :=
  let o := s.heap order
  s.setLevels o.side ((s.levels o.side).insert o.price (((s.levels o.side).find? o.price).getD [] ++ [order]))

def addStopOrder (order : OrderPtr) (s : MatchState P) : MatchState P :=
  let o := s.heap order
  s.setStops o.side ((s.stops o.side).insert o.stopPrice (((s.stops o.side).find? o.stopPrice).getD [] ++ [order]))

/-- What `addOrder` and `processStopOrders` do with an order after matching it: a limit remainder
rests, a market remainder is cancelled, a finished order leaves the index. -/
def placeRemainder (order : OrderPtr) (s : MatchState P) : MatchState P :=
  let o := s.heap order
  if 0 < o.remainingQuantity && o.status ≠ .filled && o.status ≠ .canceled then
    if o.orderType = .market then (s.modify order (·.cancel)).eraseId o.id
    else s.addOrderToBook order
  else s.eraseId o.id

/-! ## Stop orders -/

/-- One price of the trigger loop: the buy stops at or below it from the lowest, then the sell
stops at or above it from the highest; each removed level hands over its queue in order. -/
def takeTriggered {β : Type} (price : P) (stops : SortedMap P (List β) × SortedMap P (List β)) :
    List β × SortedMap P (List β) × SortedMap P (List β) :=
  let (buys, stopBuys) := stops.1.popMinWhile fun k => decide (k ≤ price)
  let (sells, stopSells) := stops.2.popMaxWhile fun k => !decide (k < price)
  (buys.flatMap (·.2) ++ sells.flatMap (·.2), stopBuys, stopSells)

/-- The trigger loop over the batch's prices: the orders taken out of the stop maps, in order. -/
def takeAllTriggered {β : Type} : List P → SortedMap P (List β) × SortedMap P (List β) →
    List β × SortedMap P (List β) × SortedMap P (List β)
  | [], stops => ([], stops)
  | price :: prices, stops =>
    let (triggered, stops) := takeTriggered price stops
    let (later, stops) := takeAllTriggered prices stops
    (triggered ++ later, stops)

def triggerOrders (triggered : List OrderPtr) (s : MatchState P) : MatchState P :=
  triggered.foldl (fun s p => s.modify p (·.trigger)) s

/-- The first half of `processStopOrders`: `triggered` and the state with these orders taken out
of the stop maps and triggered. -/
def triggerStops (prices : List P) (s : MatchState P) : List OrderPtr × MatchState P :=
  let (triggered, stopBuys, stopSells) := takeAllTriggered prices (s.stopBuyOrders, s.stopSellOrders)
  (triggered, triggerOrders triggered { s with stopBuyOrders := stopBuys, stopSellOrders := stopSells })

/-- The body of the activation loop of `processStopOrders`. -/
def activate (s : MatchState P) (order : OrderPtr) : Option (MatchState P) :=
  (matchOrder order s).map (placeRemainder order)

/-- `std::set<double>` of the trade prices, ascending. -/
def priceSet (trades : List (Trade P)) : List P := (SortedMap.ofKeys (trades.map (·.price))).keys

/-- `processStopOrders`, one unit of fuel for each invocation. -/
def processStopOrders : Nat → List P → MatchState P → Option (MatchState P)
  | 0, _, _ => none
  | fuel + 1, prices, s =>
    let (triggered, s) := triggerStops prices s
    if triggered.isEmpty then some s
    else
      let prevTradeCount := s.pendingTrades.length
      (triggered.foldlM activate s).bind fun s =>
        if prevTradeCount < s.pendingTrades.length then
          processStopOrders fuel (priceSet (s.pendingTrades.drop prevTradeCount)) s
        else some s

/-- The number of orders in the stop maps. -/
def stopCount (s : MatchState P) : Nat :=
  (s.stopBuyOrders.entries.map (·.2.length)).sum + (s.stopSellOrders.entries.map (·.2.length)).sum

end MatchState

/-! ## The public operations -/

/-- What a call of `addOrder` leaves behind: its result, the state, the callbacks in order. -/
structure AddOutcome (P : Type) [LinearOrder P] where
  accepted : Bool
  state : MatchState P
  callbacks : List (Callback P)

namespace OrderBook

open MatchState

/-- The callbacks fired after the lock is released: all trades, every update other than the
incoming order, then the incoming order. -/
def fireCallbacks (order : OrderPtr) (s : MatchState P) : List (Callback P) :=
  s.pendingTrades.map .trade ++ (s.pendingOrderUpdates.filter (· ≠ order)).map .order ++ [.order order]

/-- The locked section of `addOrder` for an order whose id is not taken. -/
def insertOrder (order : OrderPtr) (b : OrderBook P) : Option (MatchState P) :=
  let o := b.heap order
  let s := start { b with ordersById := b.ordersById.insert o.id order }
  if o.isStopOrder then some (s.addStopOrder order)
  else
    (s.activate order).bind fun s =>
      if s.pendingTrades.isEmpty then some s
      else processStopOrders (s.stopCount + 1) (priceSet s.pendingTrades) s

/-- `addOrder`; a null pointer is `none`. -/
def addOrder (order : Option OrderPtr) (b : OrderBook P) : Option (AddOutcome P) :=
  match order with
  | none => some ⟨false, start b, []⟩
  | some order =>
    if (b.heap order).remainingQuantity = 0 then some ⟨false, start b, []⟩
    else if (b.ordersById.find? (b.heap order).id).isSome then some ⟨false, start b, []⟩
    else (insertOrder order b).map fun s => ⟨true, s, fireCallbacks order s⟩

/-- Take a cancelled order out of the vector at its price, with the level when that empties it. -/
def removeFrom (m : SortedMap P (List OrderPtr)) (key : P) (order : OrderPtr) : SortedMap P (List OrderPtr) :=
  match m.find? key with
  | none => m
  | some queue =>
    if order ∈ queue then
      let queue := queue.erase order
      if queue.isEmpty then m.erase key else m.insert key queue
    else m

/-- The removal of `cancelOrder` from the one map the order's type and side name. -/
def removeOrder (order : OrderPtr) (o : Order P) (b : OrderBook P) : OrderBook P :=
  match o.isStopOrder, o.side with
  | true, .buy => { b with stopBuyOrders := removeFrom b.stopBuyOrders o.stopPrice order }
  | true, .sell => { b with stopSellOrders := removeFrom b.stopSellOrders o.stopPrice order }
  | false, .buy => { b with bids := removeFrom b.bids o.price order }
  | false, .sell => { b with asks := removeFrom b.asks o.price order }

/-- `cancelOrder`: its result, the book, the callbacks. -/
def cancelOrder (orderId : String) (b : OrderBook P) : Bool × OrderBook P × List (Callback P) :=
  match b.ordersById.find? orderId with
  | none => (false, b, [])
  | some order =>
    let (ok, o) := (b.heap order).cancel
    if !ok then (false, b, [])
    else
      let b := { b with heap := Function.update b.heap order o, ordersById := b.ordersById.erase orderId }
      (true, removeOrder order o b, [.order order])

end OrderBook

end OrderbookGC
