/-
The reference engine: price-time priority as one selection rule. It keeps one flat list of resting
orders, each stamped with the sequence number at which it came to rest, and executes a taker by
choosing again and again, among the opposite orders whose price the taker accepts, the one with the
best price and among equal prices the smallest stamp. Orders are plain values and quantities are
natural numbers; there are no price levels, no queues and no index. The stop maps and the order in
which stop orders are activated are those of `processStopOrders`.
-/
import OrderbookGC.Book.OrderBook

namespace OrderbookGC

open Container

variable {P : Type}

structure RefOrder (P : Type) where
  id : String
  side : OrderSide
  orderType : OrderType
  price : P
  stopPrice : P
  remaining : Nat
deriving DecidableEq

structure Resting (P : Type) where
  order : RefOrder P
  stamp : Nat
deriving DecidableEq

structure RefTrade (P : Type) where
  buyOrderId : String
  sellOrderId : String
  price : P
  quantity : Nat
deriving DecidableEq

structure RefEngine (P : Type) [LinearOrder P] where
  resting : List (Resting P)
  stopBuys : SortedMap P (List (RefOrder P))
  stopSells : SortedMap P (List (RefOrder P))
  nextStamp : Nat
  trades : List (RefTrade P)
deriving DecidableEq

namespace RefOrder

def isStop (o : RefOrder P) : Bool := o.orderType = .stop || o.orderType = .stopLimit

def trigger (o : RefOrder P) : RefOrder P :=
  match o.orderType with
  | .stop => { o with orderType := .market }
  | .stopLimit => { o with orderType := .limit }
  | _ => o

variable [LinearOrder P]

/-- A buy limit accepts prices up to its own, a sell limit prices from its own on, a market order
any price. -/
def accepts (taker : RefOrder P) (price : P) : Bool :=
  taker.orderType = .market ||
    match taker.side with
    | .buy => price ≤ taker.price
    | .sell => taker.price ≤ price

def candidate (taker : RefOrder P) (r : Resting P) : Bool :=
  r.order.side = taker.side.opposite && taker.accepts r.order.price

end RefOrder

variable [LinearOrder P]

/-- Best price for a taker of `side`, then smallest stamp. -/
def Resting.precedes (side : OrderSide) (a b : Resting P) : Bool :=
  match side with
  | .buy => a.order.price < b.order.price || (a.order.price = b.order.price && a.stamp < b.stamp)
  | .sell => b.order.price < a.order.price || (a.order.price = b.order.price && a.stamp < b.stamp)

/-- What a trade of quantity `q` with the order stamped `stamp` leaves of a resting order. -/
def Resting.reduce (stamp q : Nat) (r : Resting P) : Option (Resting P) :=
  if r.stamp = stamp then
    if r.order.remaining = q then none
    else some { r with order := { r.order with remaining := r.order.remaining - q } }
  else some r

namespace RefEngine

def empty : RefEngine P := ⟨[], .empty, .empty, 0, []⟩

/-- The selection rule. -/
def choose (taker : RefOrder P) (e : RefEngine P) : Option (Resting P) :=
  (e.resting.filter taker.candidate).foldr
    (fun r best => match best with
      | none => some r
      | some c => if r.precedes taker.side c then some r else some c) none

def tradeOf (taker : RefOrder P) (maker : RefOrder P) (q : Nat) : RefTrade P :=
  match taker.side with
  | .buy => ⟨taker.id, maker.id, maker.price, q⟩
  | .sell => ⟨maker.id, taker.id, maker.price, q⟩

/-- One trade of the taker with the chosen order. -/
def trade (taker : RefOrder P) (r : Resting P) (e : RefEngine P) : RefOrder P × RefEngine P :=
  let q := min taker.remaining r.order.remaining
  ({ taker with remaining := taker.remaining - q },
    { e with resting := e.resting.filterMap (·.reduce r.stamp q), trades := e.trades ++ [tradeOf taker r.order q] })

/-- Trade until the taker is exhausted or no acceptable order is left. -/
def sweep : Nat → RefOrder P → RefEngine P → Option (RefOrder P × RefEngine P)
  | 0, _, _ => none
  | fuel + 1, taker, e =>
    if taker.remaining = 0 then some (taker, e)
    else match e.choose taker with
      | none => some (taker, e)
      | some r => sweep fuel (trade taker r e).1 (trade taker r e).2

/-- A limit remainder rests with a new stamp, a market remainder is cancelled. -/
def place (o : RefOrder P) (e : RefEngine P) : RefEngine P :=
  if o.remaining = 0 || o.orderType = .market then e
  else { e with resting := e.resting ++ [⟨o, e.nextStamp⟩], nextStamp := e.nextStamp + 1 }

def activate (e : RefEngine P) (o : RefOrder P) : Option (RefEngine P) :=
  (sweep (e.resting.length + 1) o e).map fun r => r.2.place r.1

/-- The set of the prices of the trades from the `n`th on, ascending. -/
def newPrices (n : Nat) (e : RefEngine P) : List P := (SortedMap.ofKeys ((e.trades.drop n).map (·.price))).keys

def stopCount (e : RefEngine P) : Nat :=
  (e.stopBuys.entries.map (·.2.length)).sum + (e.stopSells.entries.map (·.2.length)).sum

/-- Activate the stop orders reached by the trades from the `n`th on, and go on with the trades
this makes. -/
def processStops : Nat → Nat → RefEngine P → Option (RefEngine P)
  | 0, _, _ => none
  | fuel + 1, n, e =>
    let (triggered, stopBuys, stopSells) := MatchState.takeAllTriggered (e.newPrices n) (e.stopBuys, e.stopSells)
    let e := { e with stopBuys, stopSells }
    let n := e.trades.length
    ((triggered.map (·.trigger)).foldlM activate e).bind fun e =>
      if n < e.trades.length then processStops fuel n e else some e

/-- An order with this id is resting or waiting in a stop map. -/
def holds (e : RefEngine P) (id : String) : Bool :=
  e.resting.any (·.order.id = id) || e.stopBuys.entries.any (·.2.any (·.id = id)) ||
    e.stopSells.entries.any (·.2.any (·.id = id))

def addStop (o : RefOrder P) (e : RefEngine P) : RefEngine P :=
  match o.side with
  | .buy => { e with stopBuys := e.stopBuys.insert o.stopPrice ((e.stopBuys.find? o.stopPrice).getD [] ++ [o]) }
  | .sell => { e with stopSells := e.stopSells.insert o.stopPrice ((e.stopSells.find? o.stopPrice).getD [] ++ [o]) }

def addOrder (o : RefOrder P) (e : RefEngine P) : Option (RefEngine P) :=
  if o.remaining = 0 || e.holds o.id then some e
  else if o.isStop then some (e.addStop o)
  else (e.activate o).bind fun e' =>
    if e.trades.length < e'.trades.length then processStops (e'.stopCount + 1) e.trades.length e' else some e'

/-- A queue of stop orders without the order of an id, if anything is left. -/
def dropId (id : String) (q : List (RefOrder P)) : Option (List (RefOrder P)) :=
  if (q.filter (·.id ≠ id)).isEmpty then none else some (q.filter (·.id ≠ id))

def cancelOrder (id : String) (e : RefEngine P) : RefEngine P :=
  { e with
    resting := e.resting.filter (·.order.id ≠ id)
    stopBuys := e.stopBuys.filterMapVals (dropId id)
    stopSells := e.stopSells.filterMapVals (dropId id) }

end RefEngine

/-! ## The selection rule -/

theorem Resting.precedes_asymm {side : OrderSide} {a b : Resting P} (h : a.precedes side b = true) :
    b.precedes side a = false := by
  unfold precedes at *
  cases side <;> simp only [Bool.or_eq_true, Bool.and_eq_true, decide_eq_true_eq, Bool.or_eq_false_iff,
    Bool.and_eq_false_iff, decide_eq_false_iff_not, not_lt] at h ⊢
  · rcases h with h | ⟨h1, h2⟩
    · exact ⟨h.le, .inl h.ne'⟩
    · exact ⟨h1.le, .inr h2.le⟩
  · rcases h with h | ⟨h1, h2⟩
    · exact ⟨h.le, .inl h.ne⟩
    · exact ⟨h1.ge, .inr h2.le⟩

theorem Resting.precedes_trans {side : OrderSide} {a b c : Resting P} (h : a.precedes side b = true)
    (h' : b.precedes side c = true) : a.precedes side c = true := by
  unfold precedes at *
  cases side <;> simp only [Bool.or_eq_true, Bool.and_eq_true, decide_eq_true_eq] at h h' ⊢
  · rcases h with h | ⟨h1, h2⟩ <;> rcases h' with h' | ⟨h1', h2'⟩
    · exact .inl (h.trans h')
    · exact .inl (h1' ▸ h)
    · exact .inl (h1 ▸ h')
    · exact .inr ⟨h1.trans h1', h2.trans h2'⟩
  · rcases h with h | ⟨h1, h2⟩ <;> rcases h' with h' | ⟨h1', h2'⟩
    · exact .inl (h'.trans h)
    · exact .inl (h1' ▸ h)
    · exact .inl (h1 ▸ h')
    · exact .inr ⟨h1.trans h1', h2.trans h2'⟩

namespace RefEngine

/-- The chosen order is acceptable and no acceptable resting order precedes it. -/
theorem choose_spec {taker : RefOrder P} {e : RefEngine P} {r : Resting P} (h : e.choose taker = some r) :
    r ∈ e.resting ∧ taker.candidate r = true ∧
      ∀ c ∈ e.resting, taker.candidate c = true → c.precedes taker.side r = false := by
  have hfold : ∀ (l : List (Resting P)) (r : Resting P), l.foldr (fun r best => match best with
      | none => some r
      | some c => if r.precedes taker.side c then some r else some c) none = some r →
      r ∈ l ∧ ∀ c ∈ l, c.precedes taker.side r = false := by
    intro l
    induction l with
    | nil => intro r h; cases h
    | cons x l ih =>
      intro r h
      have hself : x.precedes taker.side x = false := by
        by_contra hx
        have hx := Bool.eq_true_of_not_eq_false hx
        rw [Resting.precedes_asymm hx] at hx; cases hx
      rw [List.foldr_cons] at h
      split at h
      · next hn =>
        cases h
        have hl : l = [] := by
          cases l with
          | nil => rfl
          | cons y l =>
            rw [List.foldr_cons] at hn
            split at hn
            · cases hn
            · split_ifs at hn
        subst hl
        exact ⟨List.mem_cons_self .., fun c hc => by rw [List.mem_singleton.1 hc]; exact hself⟩
      · next y hy =>
        obtain ⟨hyl, hmin⟩ := ih y hy
        split_ifs at h with hp
        · cases h
          refine ⟨List.mem_cons_self .., fun c hc => ?_⟩
          rcases List.mem_cons.1 hc with rfl | hc
          · exact hself
          · by_contra hcx
            have := Resting.precedes_trans (Bool.eq_true_of_not_eq_false hcx) hp
            rw [hmin c hc] at this; cases this
        · cases h
          refine ⟨List.mem_cons_of_mem _ hyl, fun c hc => ?_⟩
          rcases List.mem_cons.1 hc with rfl | hc
          · exact Bool.eq_false_of_not_eq_true hp
          · exact hmin c hc
  obtain ⟨h1, h2⟩ := hfold _ r h
  obtain ⟨h3, h4⟩ := List.mem_filter.1 h1
  exact ⟨h3, h4, fun c hc hcand => h2 c (List.mem_filter.2 ⟨hc, hcand⟩)⟩

/-- A candidate that precedes all others is chosen. -/
theorem choose_eq_some {taker : RefOrder P} {e : RefEngine P} {r : Resting P} (hr : r ∈ e.resting)
    (hc : taker.candidate r = true)
    (hmin : ∀ c ∈ e.resting, taker.candidate c = true → c ≠ r → r.precedes taker.side c = true) :
    e.choose taker = some r := by
  cases hch : e.choose taker with
  | none =>
    have hne : e.resting.filter taker.candidate ≠ [] := List.ne_nil_of_mem (List.mem_filter.2 ⟨hr, hc⟩)
    unfold choose at hch
    obtain ⟨x, l, hl⟩ := List.exists_cons_of_ne_nil hne
    rw [hl, List.foldr_cons] at hch
    split at hch
    · cases hch
    · split_ifs at hch
  | some c =>
    obtain ⟨h1, h2, h3⟩ := choose_spec hch
    by_cases hcr : c = r
    · rw [hcr]
    · have h4 := hmin c h1 h2 hcr
      rw [h3 r hr hc] at h4; cases h4

theorem choose_eq_none {taker : RefOrder P} {e : RefEngine P}
    (h : ∀ c ∈ e.resting, taker.candidate c = false) : e.choose taker = none := by
  have : e.resting.filter taker.candidate = [] := List.filter_eq_nil_iff.2 fun c hc => by simp [h c hc]
  unfold choose
  rw [this]; rfl

end RefEngine

end OrderbookGC
