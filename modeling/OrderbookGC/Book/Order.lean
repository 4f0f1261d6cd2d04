/-
The order object of `order.h`/`order.cpp`: its fields, its three mutators `fill`, `cancel` and
`trigger`, and what each of them can change. Prices are an arbitrary ordered type; quantities are
the source's `uint32_t`.
-/
import Mathlib.Data.UInt
import Mathlib.Order.Defs.LinearOrder
import Mathlib.Tactic.Common

namespace OrderbookGC

inductive OrderSide
  | buy | sell
deriving DecidableEq, Repr

inductive OrderType
  | limit | market | stop | stopLimit
deriving DecidableEq, Repr

inductive OrderStatus
  | pending | partialFill | filled | canceled | rejected
deriving DecidableEq, Repr

def OrderSide.opposite : OrderSide → OrderSide
  | .buy => .sell
  | .sell => .buy

@[simp] theorem OrderSide.opposite_opposite (d : OrderSide) : d.opposite.opposite = d := by cases d <;> rfl

@[simp] theorem OrderSide.opposite_ne (d : OrderSide) : d.opposite ≠ d := by cases d <;> simp [opposite]

@[simp] theorem OrderSide.ne_opposite (d : OrderSide) : d ≠ d.opposite := d.opposite_ne.symm

theorem OrderSide.eq_or_opposite (d e : OrderSide) : e = d ∨ e = d.opposite := by
  cases d <;> cases e <;> simp [opposite]

structure Order (P : Type) where
  id : String
  clientId : String
  symbol : String
  side : OrderSide
  orderType : OrderType
  price : P
  stopPrice : P
  quantity : UInt32
  remainingQuantity : UInt32
  status : OrderStatus
  timestamp : Int
deriving DecidableEq, Repr

/-- A trade record; the wall-clock time the source stamps it with is read by nothing modelled. -/
structure Trade (P : Type) where
  buyOrderId : String
  sellOrderId : String
  symbol : String
  price : P
  quantity : UInt32
deriving DecidableEq, Repr

namespace Order

variable {P : Type}

/-- The constructor `Order::Order`: nothing filled, status `PENDING`, stamped with the clock. -/
def new (id : String) (side : OrderSide) (price : P) (quantity : UInt32) (symbol clientId : String)
    (type : OrderType) (stopPrice : P) (now : Int) : Order P :=
  { id, clientId, symbol, side, orderType := type, price, stopPrice, quantity,
    remainingQuantity := quantity, status := .pending, timestamp := now }

def isStopOrder (o : Order P) : Bool := o.orderType = .stop || o.orderType = .stopLimit

/-- `Order::fill`: refused on a finished order and on more than what remains. -/
def fill (o : Order P) (quantity : UInt32) : Bool × Order P :=
  if o.status = .canceled || o.status = .rejected || o.status = .filled then (false, o)
  else if o.remainingQuantity < quantity then (false, o)
  else
    let remaining := o.remainingQuantity - quantity
    (true, { o with remainingQuantity := remaining, status := if remaining = 0 then .filled else .partialFill })

def cancel (o : Order P) : Bool × Order P :=
  if o.status = .filled || o.status = .canceled || o.status = .rejected then (false, o)
  else (true, { o with status := .canceled })

/-- `Order::trigger`: `STOP` becomes `MARKET`, `STOP_LIMIT` becomes `LIMIT`. -/
def trigger (o : Order P) : Bool × Order P :=
  match o.orderType with
  | .stop => (true, { o with orderType := .market })
  | .stopLimit => (true, { o with orderType := .limit })
  | _ => (false, o)

/-- An order that can still trade: status `PENDING` or `PARTIAL` and a positive remainder. -/
structure Live (o : Order P) : Prop where
  status : o.status = .pending ∨ o.status = .partialFill
  remaining : 0 < o.remainingQuantity

instance (o : Order P) : Decidable o.Live :=
  decidable_of_iff ((o.status = .pending ∨ o.status = .partialFill) ∧ 0 < o.remainingQuantity)
    ⟨fun h => ⟨h.1, h.2⟩, fun h => ⟨h.1, h.2⟩⟩

/-- The state of an order while it is matched: live, or filled with nothing left. -/
def Sound (o : Order P) : Prop := o.Live ∨ (o.status = .filled ∧ o.remainingQuantity = 0)

theorem Live.sound {o : Order P} (h : o.Live) : o.Sound := .inl h

/-- The fields no operation changes. -/
structure SameStatic (a b : Order P) : Prop where
  id : b.id = a.id
  clientId : b.clientId = a.clientId
  symbol : b.symbol = a.symbol
  side : b.side = a.side
  price : b.price = a.price
  stopPrice : b.stopPrice = a.stopPrice
  quantity : b.quantity = a.quantity
  timestamp : b.timestamp = a.timestamp

theorem SameStatic.refl (a : Order P) : SameStatic a a := ⟨rfl, rfl, rfl, rfl, rfl, rfl, rfl, rfl⟩

theorem SameStatic.trans {a b c : Order P} (h : SameStatic a b) (h' : SameStatic b c) : SameStatic a c :=
  ⟨h'.id.trans h.id, h'.clientId.trans h.clientId, h'.symbol.trans h.symbol, h'.side.trans h.side,
    h'.price.trans h.price, h'.stopPrice.trans h.stopPrice, h'.quantity.trans h.quantity,
    h'.timestamp.trans h.timestamp⟩

theorem Sound.live_of_pos {o : Order P} (h : o.Sound) (hr : 0 < o.remainingQuantity) : o.Live := by
  rcases h with h | ⟨-, h⟩
  · exact h
  · rw [h] at hr; exact absurd hr (by decide)

theorem fill_static (o : Order P) (q : UInt32) : SameStatic o (o.fill q).2 := by
  unfold fill
  split_ifs
  · exact .refl o
  · exact .refl o
  · exact ⟨rfl, rfl, rfl, rfl, rfl, rfl, rfl, rfl⟩

theorem fill_orderType (o : Order P) (q : UInt32) : (o.fill q).2.orderType = o.orderType := by
  unfold fill; split_ifs <;> rfl

theorem cancel_static (o : Order P) : SameStatic o o.cancel.2 := by
  unfold cancel
  split_ifs
  · exact .refl o
  · exact ⟨rfl, rfl, rfl, rfl, rfl, rfl, rfl, rfl⟩

theorem cancel_of_live {o : Order P} (h : o.Live) : o.cancel = (true, { o with status := .canceled }) := by
  unfold cancel
  rcases h.status with hs | hs <;> simp [hs]

theorem trigger_static (o : Order P) : SameStatic o o.trigger.2 := by
  unfold trigger
  split <;> exact ⟨rfl, rfl, rfl, rfl, rfl, rfl, rfl, rfl⟩

theorem trigger_remainingQuantity (o : Order P) : o.trigger.2.remainingQuantity = o.remainingQuantity := by
  unfold trigger; split <;> rfl

theorem trigger_status (o : Order P) : o.trigger.2.status = o.status := by
  unfold trigger; split <;> rfl

theorem trigger_trigger (o : Order P) : o.trigger.2.trigger.2 = o.trigger.2 := by
  unfold trigger
  cases h : o.orderType <;> simp [h]

theorem Live.trigger {o : Order P} (h : o.Live) : o.trigger.2.Live :=
  ⟨by rw [trigger_status]; exact h.status, by rw [trigger_remainingQuantity]; exact h.remaining⟩

theorem trigger_not_stop {o : Order P} (h : o.isStopOrder = true) :
    (o.trigger.2.orderType = .market ∧ o.orderType = .stop) ∨
      (o.trigger.2.orderType = .limit ∧ o.orderType = .stopLimit) := by
  unfold isStopOrder at h
  unfold Order.trigger
  cases ho : o.orderType <;> simp [ho] at h ⊢

/-- A fill within the remainder of a live order succeeds: the remainder drops by exactly the
quantity, without wrapping, and the order is finished exactly when nothing is left. -/
theorem fill_of_live {o : Order P} (h : o.Live) {q : UInt32} (hq : q ≤ o.remainingQuantity) :
    (o.fill q).1 = true ∧ (o.fill q).2.Sound ∧
      (o.fill q).2.remainingQuantity.toNat + q.toNat = o.remainingQuantity.toNat := by
  have hst : (o.status = .canceled || o.status = .rejected || o.status = .filled) = false := by
    rcases h.status with hs | hs <;> simp [hs]
  have hlt : ¬ o.remainingQuantity < q := UInt32.not_lt.2 hq
  have hsub : (o.remainingQuantity - q).toNat = o.remainingQuantity.toNat - q.toNat := UInt32.toNat_sub_of_le _ _ hq
  have hle : q.toNat ≤ o.remainingQuantity.toNat := UInt32.le_iff_toNat_le.1 hq
  unfold fill
  rw [if_neg (by simp [hst]), if_neg hlt]
  refine ⟨rfl, ?_, by simp only [hsub]; omega⟩
  by_cases h0 : o.remainingQuantity - q = 0
  · exact .inr ⟨by simp [h0], h0⟩
  · exact .inl ⟨.inr (by simp [h0]), UInt32.pos_iff_ne_zero.2 h0⟩

end Order

end OrderbookGC
