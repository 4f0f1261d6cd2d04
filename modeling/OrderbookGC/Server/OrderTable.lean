/-
Table `orders` as SQLite holds it, with the enumerations as text, and the round trip of one order: saved, filled,
triggered and updated, and read back. The store of the server model holds the values these texts name; `encode` ties the
two. What comes back is the order with its remainder for its quantity: the loader builds it from what remained, so the
filled part is forgotten, and a fill of nothing marks it `PARTIAL` when there was one.
-/
import OrderbookGC.Server.Store

namespace OrderbookGC

/-! ## Enumerations as text -/

def sideToString : OrderSide → String
  | .buy => "BUY"
  | .sell => "SELL"

def stringToSide (s : String) : OrderSide := if s = "BUY" then .buy else .sell

def typeToString : OrderType → String
  | .market => "MARKET"
  | .stop => "STOP"
  | .stopLimit => "STOP_LIMIT"
  | .limit => "LIMIT"

def stringToType (s : String) : OrderType :=
  if s = "MARKET" then .market else if s = "STOP" then .stop else if s = "STOP_LIMIT" then .stopLimit else .limit

def statusToString : OrderStatus → String
  | .pending => "PENDING"
  | .partialFill => "PARTIAL"
  | .filled => "FILLED"
  | .canceled => "CANCELED"
  | .rejected => "REJECTED"

@[simp] theorem stringToSide_sideToString (d : OrderSide) : stringToSide (sideToString d) = d := by cases d <;> rfl

@[simp] theorem stringToType_typeToString (t : OrderType) : stringToType (typeToString t) = t := by cases t <;> rfl

theorem statusToString_active (s : OrderStatus) :
    statusToString s = "PENDING" ∨ statusToString s = "PARTIAL" ↔ s = .pending ∨ s = .partialFill := by
  cases s <;> decide

/-! ## The table -/

structure StoredOrder where
  id : String
  clientId : String
  symbol : String
  side : String
  orderType : String
  price : ℚ
  stopPrice : ℚ
  quantity : Int
  remainingQuantity : Int
  status : String
  createdAt : Int
deriving DecidableEq

namespace OrderTable

/-- The row `saveOrder` binds. -/
def storedOrder (o : Order ℚ) (now : Int) : StoredOrder :=
  { id := cStr o.id, clientId := cStr o.clientId, symbol := cStr o.symbol, side := sideToString o.side
    orderType := typeToString o.orderType, price := o.price, stopPrice := o.stopPrice, quantity := bindInt o.quantity
    remainingQuantity := bindInt o.remainingQuantity, status := statusToString o.status, createdAt := nowIso now }

def saveOrder (o : Order ℚ) (now : Int) (t : List StoredOrder) : List StoredOrder :=
  t.filter (·.id ≠ cStr o.id) ++ [storedOrder o now]

def updateRow (o : Order ℚ) (r : StoredOrder) : StoredOrder :=
  { r with remainingQuantity := bindInt o.remainingQuantity, status := statusToString o.status
           orderType := typeToString o.orderType }

def updateOrder (o : Order ℚ) (t : List StoredOrder) : List StoredOrder :=
  t.map fun r => if r.id = cStr o.id then updateRow o r else r

/-- One row of the loop of `loadAllActiveOrders`. -/
def loadRow (now : Int) (r : StoredOrder) : Order ℚ :=
  let remaining := columnInt r.remainingQuantity
  let o := Order.new r.id (stringToSide r.side) r.price remaining r.symbol r.clientId (stringToType r.orderType) r.stopPrice now
  if remaining < columnInt r.quantity then (o.fill 0).2 else o

def isActive (r : StoredOrder) : Bool := r.status = "PENDING" || r.status = "PARTIAL"

def loadAllActiveOrders (now : Int) (t : List StoredOrder) : List (Order ℚ) :=
  ((t.filter isActive).insertionSort fun a b => a.createdAt ≤ b.createdAt).map (loadRow now)

/-! ## The store of the server model -/

/-- A row of the model as the table holds it. -/
def encode (r : OrderRow) : StoredOrder :=
  { id := r.id, clientId := r.clientId, symbol := r.symbol, side := sideToString r.side
    orderType := typeToString r.orderType, price := r.price, stopPrice := r.stopPrice, quantity := r.quantity
    remainingQuantity := r.remainingQuantity, status := statusToString r.status, createdAt := r.createdAt }

theorem isActive_encode (r : OrderRow) : isActive (encode r) = Db.isActive r := by
  have h := statusToString_active r.status
  unfold isActive Db.isActive encode
  rw [Bool.eq_iff_iff]
  simpa using h

theorem isActive_storedOrder (o : Order ℚ) (now : Int) :
    isActive (storedOrder o now) = true ↔ o.status = .pending ∨ o.status = .partialFill := by
  unfold isActive storedOrder
  rw [Bool.or_eq_true, decide_eq_true_iff, decide_eq_true_iff]
  exact statusToString_active o.status

theorem saveOrder_encode (o : Order ℚ) (now : Int) (db : Db) :
    (Db.saveOrder true o now db).2.orders.map encode = saveOrder o now (db.orders.map encode) := by
  unfold Db.saveOrder saveOrder
  rw [if_pos rfl, List.map_append, List.filter_map]
  rfl

theorem updateOrder_encode (o : Order ℚ) (db : Db) :
    (Db.updateOrder true o db).2.orders.map encode = updateOrder o (db.orders.map encode) := by
  unfold Db.updateOrder updateOrder
  rw [if_pos rfl, List.map_map, List.map_map]
  refine List.map_congr_left fun r _ => ?_
  show encode (if r.id = cStr o.id then Db.OrderRow.update r o else r) =
    if (encode r).id = cStr o.id then updateRow o (encode r) else encode r
  by_cases hid : r.id = cStr o.id
  · rw [if_pos hid, if_pos (show (encode r).id = _ from hid)]
    rfl
  · rw [if_neg hid, if_neg (show ¬ (encode r).id = _ from hid)]

theorem loadRow_encode (now : Int) (r : OrderRow) : loadRow now (encode r) = Db.restoreOrder now r := by
  unfold loadRow Db.restoreOrder encode
  simp

theorem loadAllActiveOrders_encode (now : Int) (db : Db) :
    loadAllActiveOrders now (db.orders.map encode) = db.loadAllActiveOrders now := by
  unfold loadAllActiveOrders Db.loadAllActiveOrders Db.activeRows
  have hfilter : (db.orders.map encode).filter isActive = (db.orders.filter Db.isActive).map encode := by
    rw [List.filter_map]
    refine congrArg _ (List.filter_congr fun r _ => ?_)
    exact isActive_encode r
  rw [hfilter, ← List.map_insertionSort (fun a b : OrderRow => a.createdAt ≤ b.createdAt) _ encode _ fun a _ b _ => Iff.rfl,
    List.map_map]
  exact List.map_congr_left fun r _ => loadRow_encode now r

end OrderTable

/-! ## One order and its row -/

/-- What happens to an order object. -/
inductive OrderOp
  | fill (quantity : UInt32)
  | trigger
  | cancel
deriving DecidableEq

def OrderOp.apply (o : Order ℚ) : OrderOp → Order ℚ
  | .fill quantity => (o.fill quantity).2
  | .trigger => o.trigger.2
  | .cancel => o.cancel.2

/-- A write to the table: the order's own, after something happened to it, or that of another order. -/
inductive StoreOp
  | own (op : OrderOp)
  | save (other : Order ℚ) (now : Int)
  | update (other : Order ℚ)
deriving DecidableEq

namespace StoreOp

/-- The writes of other orders are under other ids. -/
def Apart (id : String) : StoreOp → Prop
  | .own _ => True
  | .save other _ => cStr other.id ≠ id
  | .update other => cStr other.id ≠ id

instance (id : String) : ∀ op : StoreOp, Decidable (op.Apart id)
  | .own _ => inferInstanceAs (Decidable True)
  | .save other _ => inferInstanceAs (Decidable (cStr other.id ≠ id))
  | .update other => inferInstanceAs (Decidable (cStr other.id ≠ id))

def apply (s : Order ℚ × List StoredOrder) : StoreOp → Order ℚ × List StoredOrder
  | .own op => (op.apply s.1, OrderTable.updateOrder (op.apply s.1) s.2)
  | .save other now => (s.1, OrderTable.saveOrder other now s.2)
  | .update other => (s.1, OrderTable.updateOrder other s.2)

end StoreOp

/-- What an order can be: nothing filled while it is `PENDING`, and nothing left exactly when it is `FILLED`, orders of
nothing aside. -/
structure Order.Consistent (o : Order ℚ) : Prop where
  le : o.remainingQuantity ≤ o.quantity
  pending : o.status = .pending → o.remainingQuantity = o.quantity
  partially : o.status = .partialFill → 0 < o.remainingQuantity

namespace OrderOp

theorem static (o : Order ℚ) (op : OrderOp) : o.SameStatic (op.apply o) := by
  cases op with
  | fill q => exact o.fill_static q
  | trigger => exact o.trigger_static
  | cancel => exact o.cancel_static

theorem consistent {o : Order ℚ} (h : o.Consistent) (op : OrderOp) : (op.apply o).Consistent := by
  cases op with
  | fill q =>
    show (o.fill q).2.Consistent
    unfold Order.fill
    split_ifs with hs hq
    · exact h
    · exact h
    · have hle : o.remainingQuantity - q ≤ o.remainingQuantity := by
        rw [UInt32.le_iff_toNat_le, UInt32.toNat_sub_of_le _ _ (UInt32.not_lt.1 hq)]
        omega
      refine ⟨UInt32.le_trans hle h.le, fun hp => ?_, fun hp => ?_⟩
      · simp only at hp
        split_ifs at hp
      · simp only at hp ⊢
        split_ifs at hp with h0
        exact UInt32.pos_iff_ne_zero.2 h0
  | trigger =>
    show o.trigger.2.Consistent
    exact ⟨by rw [o.trigger_remainingQuantity, o.trigger_static.quantity]; exact h.le,
      by rw [o.trigger_status, o.trigger_remainingQuantity, o.trigger_static.quantity]; exact h.pending,
      by rw [o.trigger_status, o.trigger_remainingQuantity]; exact h.partially⟩
  | cancel =>
    show o.cancel.2.Consistent
    unfold Order.cancel
    split_ifs
    · exact h
    · exact ⟨h.le, fun hp => (by cases hp), fun hp => (by cases hp)⟩

end OrderOp

/-- The one row under the order's id says what the order is. -/
def Tracks (o : Order ℚ) (t : List StoredOrder) : Prop :=
  ∃ now, (t.filter fun r => r.id = cStr o.id) = [OrderTable.storedOrder o now]

namespace Tracks

variable {o : Order ℚ} {t : List StoredOrder}

theorem saved (o : Order ℚ) (now : Int) (t : List StoredOrder) : Tracks o (OrderTable.saveOrder o now t) := by
  refine ⟨now, ?_⟩
  unfold OrderTable.saveOrder
  have hnone : (t.filter (·.id ≠ cStr o.id)).filter (fun r => r.id = cStr o.id) = [] := by
    rw [List.filter_eq_nil_iff]
    intro r hr
    simpa using (List.mem_filter.1 hr).2
  rw [List.filter_append, hnone, List.nil_append, List.filter_cons_of_pos (by simp [OrderTable.storedOrder]), List.filter_nil]

/-- An update rewrites rows in place and keeps their ids. -/
theorem filter_updateOrder (o' : Order ℚ) (id : String) (t : List StoredOrder) :
    (OrderTable.updateOrder o' t).filter (fun r => r.id = id) =
      (t.filter fun r => r.id = id).map fun r => if r.id = cStr o'.id then OrderTable.updateRow o' r else r := by
  unfold OrderTable.updateOrder
  rw [List.filter_map]
  refine congrArg _ (List.filter_congr fun r _ => ?_)
  by_cases hr : r.id = cStr o'.id
  · simp [hr, OrderTable.updateRow]
  · simp [hr]

theorem own (h : Tracks o t) (op : OrderOp) : Tracks (op.apply o) (OrderTable.updateOrder (op.apply o) t) := by
  obtain ⟨now, h⟩ := h
  have hst := op.static o
  refine ⟨now, ?_⟩
  rw [filter_updateOrder, hst.id, h, List.map_singleton]
  unfold OrderTable.storedOrder OrderTable.updateRow
  rw [hst.id, hst.clientId, hst.symbol, hst.side, hst.price, hst.stopPrice, hst.quantity, if_pos rfl]

theorem save (h : Tracks o t) {other : Order ℚ} (hne : cStr other.id ≠ cStr o.id) (now : Int) :
    Tracks o (OrderTable.saveOrder other now t) := by
  obtain ⟨now', h⟩ := h
  refine ⟨now', ?_⟩
  have hnew : ([OrderTable.storedOrder other now].filter fun r => r.id = cStr o.id) = [] :=
    List.filter_cons_of_neg fun h => hne (of_decide_eq_true h)
  unfold OrderTable.saveOrder
  rw [List.filter_append, List.filter_filter, hnew, List.append_nil, ← h]
  refine List.filter_congr fun r _ => ?_
  by_cases hr : r.id = cStr o.id
  · simp [hr, hne.symm]
  · simp [hr]

theorem update (h : Tracks o t) {other : Order ℚ} (hne : cStr other.id ≠ cStr o.id) :
    Tracks o (OrderTable.updateOrder other t) := by
  obtain ⟨now, h⟩ := h
  refine ⟨now, ?_⟩
  rw [filter_updateOrder, h, List.map_singleton, if_neg (show ¬ (OrderTable.storedOrder o now).id = _ from hne.symm)]

/-- What the loader returns under the order's id: its row, when that is active. -/
theorem load (h : Tracks o t) (now : Int) : ∃ now', (OrderTable.loadAllActiveOrders now t).filter (fun r => r.id = cStr o.id) =
    if o.status = .pending ∨ o.status = .partialFill then [OrderTable.loadRow now (OrderTable.storedOrder o now')] else [] := by
  obtain ⟨now', h⟩ := h
  refine ⟨now', ?_⟩
  have hid : ∀ r, (OrderTable.loadRow now r).id = r.id := fun r => by
    unfold OrderTable.loadRow
    dsimp only
    split_ifs
    · exact (Order.fill_static _ 0).id
    · rfl
  unfold OrderTable.loadAllActiveOrders
  rw [List.filter_map]
  have hfun : ((fun r : Order ℚ => decide (r.id = cStr o.id)) ∘ OrderTable.loadRow now) = fun r => decide (r.id = cStr o.id) := by
    funext r
    exact congrArg (fun x => decide (x = cStr o.id)) (hid r)
  rw [hfun]
  have hperm := ((t.filter OrderTable.isActive).perm_insertionSort fun a b => a.createdAt ≤ b.createdAt).filter
    fun r => decide (r.id = cStr o.id)
  have hrow : (t.filter OrderTable.isActive).filter (fun r => decide (r.id = cStr o.id)) =
      [OrderTable.storedOrder o now'].filter OrderTable.isActive := by
    rw [← h, List.filter_filter, List.filter_filter]
    exact List.filter_congr fun r _ => Bool.and_comm ..
  have hact := OrderTable.isActive_storedOrder o now'
  rw [hrow] at hperm
  by_cases ha : o.status = .pending ∨ o.status = .partialFill
  · rw [List.filter_cons_of_pos (hact.2 ha), List.filter_nil] at hperm
    rw [List.perm_singleton.1 hperm, if_pos ha]
    rfl
  · rw [List.filter_cons_of_neg fun hc => ha (hact.1 hc), List.filter_nil] at hperm
    rw [List.perm_nil.1 hperm, if_neg ha]
    rfl

end Tracks

/-- The order that comes back for an order: its remainder is its quantity, and its status says whether it was filled. -/
structure Restored (o r : Order ℚ) : Prop where
  id : r.id = o.id
  clientId : r.clientId = o.clientId
  symbol : r.symbol = o.symbol
  side : r.side = o.side
  orderType : r.orderType = o.orderType
  price : r.price = o.price
  stopPrice : r.stopPrice = o.stopPrice
  remainingQuantity : r.remainingQuantity = o.remainingQuantity
  quantity : r.quantity = o.remainingQuantity
  status : r.status = if o.remainingQuantity < o.quantity then .partialFill else .pending
  sameStatus : o.remainingQuantity < o.quantity ∨ o.status = .pending → r.status = o.status

theorem loadRow_restored {o : Order ℚ} (hc : o.Consistent) (ha : o.status = .pending ∨ o.status = .partialFill)
    (hid : '\x00' ∉ o.id.toList) (hclient : '\x00' ∉ o.clientId.toList) (hsymbol : '\x00' ∉ o.symbol.toList)
    (now now' : Int) : Restored o (OrderTable.loadRow now (OrderTable.storedOrder o now')) := by
  have hrow : OrderTable.loadRow now (OrderTable.storedOrder o now') =
      let r := Order.new o.id o.side o.price o.remainingQuantity o.symbol o.clientId o.orderType o.stopPrice now
      if o.remainingQuantity < o.quantity then (r.fill 0).2 else r := by
    unfold OrderTable.loadRow OrderTable.storedOrder
    simp [cStr_of_free hid, cStr_of_free hclient, cStr_of_free hsymbol]
  rw [hrow]
  dsimp only
  by_cases hlt : o.remainingQuantity < o.quantity
  · -- a `PENDING` order has its whole quantity left, so this one is `PARTIAL`
    have hpartial : o.status = .partialFill := ha.resolve_left fun hp => by
      rw [hc.pending hp] at hlt
      exact UInt32.lt_irrefl _ hlt
    have hne : o.remainingQuantity ≠ 0 := UInt32.pos_iff_ne_zero.1 (hc.partially hpartial)
    have hfill : ((Order.new o.id o.side o.price o.remainingQuantity o.symbol o.clientId o.orderType o.stopPrice now).fill 0).2 =
        { Order.new o.id o.side o.price o.remainingQuantity o.symbol o.clientId o.orderType o.stopPrice now with
          status := .partialFill } := by
      unfold Order.fill Order.new
      simp [hne]
    rw [if_pos hlt, hfill]
    exact ⟨rfl, rfl, rfl, rfl, rfl, rfl, rfl, rfl, rfl, by rw [if_pos hlt], fun _ => hpartial.symm⟩
  · rw [if_neg hlt]
    refine ⟨rfl, rfl, rfl, rfl, rfl, rfl, rfl, rfl, rfl, by rw [if_neg hlt]; rfl, fun h => ?_⟩
    exact (h.resolve_left hlt).symm

/-- An order and its row after any writes to the table. -/
theorem foldl_storeOp : ∀ (ops : List StoreOp) (s : Order ℚ × List StoredOrder), (∀ op ∈ ops, op.Apart (cStr s.1.id)) →
    s.1.Consistent → Tracks s.1 s.2 → s.1.SameStatic (ops.foldl StoreOp.apply s).1 ∧
      (ops.foldl StoreOp.apply s).1.Consistent ∧ Tracks (ops.foldl StoreOp.apply s).1 (ops.foldl StoreOp.apply s).2
  | [], s, _, hc, ht => ⟨.refl _, hc, ht⟩
  | op :: ops, s, ha, hc, ht => by
    have hop := ha op (List.mem_cons_self ..)
    have hstep : s.1.SameStatic (StoreOp.apply s op).1 ∧ (StoreOp.apply s op).1.Consistent ∧
        Tracks (StoreOp.apply s op).1 (StoreOp.apply s op).2 := by
      cases op with
      | own op => exact ⟨op.static s.1, op.consistent hc, ht.own op⟩
      | save other now => exact ⟨.refl _, hc, ht.save hop now⟩
      | update other => exact ⟨.refl _, hc, ht.update hop⟩
    obtain ⟨h1, h2, h3⟩ := hstep
    obtain ⟨i1, i2, i3⟩ := foldl_storeOp ops (StoreOp.apply s op)
      (fun op hmem => by rw [h1.id]; exact ha op (List.mem_cons_of_mem _ hmem)) h2 h3
    exact ⟨h1.trans i1, i2, i3⟩

theorem foldl_orderOp : ∀ (ops : List OrderOp) (o : Order ℚ), o.Consistent →
    o.SameStatic (ops.foldl OrderOp.apply o) ∧ (ops.foldl OrderOp.apply o).Consistent
  | [], o, hc => ⟨.refl _, hc⟩
  | op :: ops, o, hc => by
    obtain ⟨h1, h2⟩ := foldl_orderOp ops (op.apply o) (op.consistent hc)
    exact ⟨(op.static o).trans h1, h2⟩

/-- An order with any past is saved, and then things happen to it, each followed by its update, with the writes of other
orders in between. While it is active the loader returns one order under its id, the same but for its quantity, which is
what remained; once it is finished, none. -/
theorem loadAllActiveOrders_saved {id clientId symbol : String} (hid : '\x00' ∉ id.toList)
    (hclient : '\x00' ∉ clientId.toList) (hsymbol : '\x00' ∉ symbol.toList) (side : OrderSide) (price : ℚ)
    (quantity : UInt32) (type : OrderType) (stopPrice : ℚ) (created : Int) (past : List OrderOp) (saved : Int)
    (t : List StoredOrder) (ops : List StoreOp) (ha : ∀ op ∈ ops, op.Apart id) (now : Int) (o : Order ℚ)
    (ho : o = past.foldl OrderOp.apply (.new id side price quantity symbol clientId type stopPrice created))
    (s : Order ℚ × List StoredOrder) (hs : s = ops.foldl StoreOp.apply (o, OrderTable.saveOrder o saved t)) :
    o.SameStatic s.1 ∧
    ((s.1.status = .pending ∨ s.1.status = .partialFill) →
      ∃ r, (OrderTable.loadAllActiveOrders now s.2).filter (fun r => r.id = id) = [r] ∧ Restored s.1 r) ∧
    ((s.1.status = .filled ∨ s.1.status = .canceled) →
      (OrderTable.loadAllActiveOrders now s.2).filter (fun r => r.id = id) = []) := by
  have hnew : (Order.new id side price quantity symbol clientId type stopPrice created).Consistent :=
    ⟨UInt32.le_refl _, fun _ => rfl, fun h => by cases h⟩
  obtain ⟨hst₀, hc₀⟩ := foldl_orderOp past _ hnew
  rw [← ho] at hst₀ hc₀
  have hid₀ : o.id = id := hst₀.id
  obtain ⟨hst, hc, htr⟩ := foldl_storeOp ops (o, OrderTable.saveOrder o saved t)
    (fun op hmem => by rw [hid₀, cStr_of_free hid]; exact ha op hmem) hc₀ (Tracks.saved o saved t)
  rw [← hs] at hst hc htr
  obtain ⟨now', hload⟩ := htr.load now
  have hid' : s.1.id = id := hst.id.trans hid₀
  rw [hid', cStr_of_free hid] at hload
  refine ⟨hst, fun hact => ?_, fun hfin => ?_⟩
  · rw [if_pos hact] at hload
    refine ⟨_, hload, loadRow_restored hc hact ?_ ?_ ?_ now now'⟩
    · rw [hid']; exact hid
    · rw [hst.clientId, hst₀.clientId]; exact hclient
    · rw [hst.symbol, hst₀.symbol]; exact hsymbol
  · rw [hload, if_neg]
    rintro (h | h) <;> rcases hfin with hf | hf <;> rw [h] at hf <;> cases hf

/-- A stop-limit order for ten, triggered and filled for three. -/
def samplePast : Order ℚ := .new "a" .buy 101 10 "SYM" "m" .stopLimit 100 0

def sampleWrites : List StoreOp :=
  [.own .trigger, .save (.new "b" .sell 100 3 "SYM" "n" .limit 0 1) 1, .own (.fill 3)]

theorem loadAllActiveOrders_saved_sampleWrites : ∃ r,
    (OrderTable.loadAllActiveOrders 9 (sampleWrites.foldl StoreOp.apply (samplePast, OrderTable.saveOrder samplePast 0 [])).2).filter
      (fun r => r.id = "a") = [r] ∧
    Restored (sampleWrites.foldl StoreOp.apply (samplePast, OrderTable.saveOrder samplePast 0 [])).1 r :=
  (loadAllActiveOrders_saved (by decide) (by decide) (by decide) .buy 101 10 .stopLimit 100 0 [] 0 [] sampleWrites (by decide) 9
    samplePast rfl _ rfl).2.1 (.inr (by decide))

/-- It comes back as an order for seven of which nothing is filled. -/
theorem loadAllActiveOrders_forgets :
    let s := sampleWrites.foldl StoreOp.apply (samplePast, OrderTable.saveOrder samplePast 0 [])
    (s.1.quantity, s.1.remainingQuantity, s.1.status) = (10, 7, .partialFill) ∧
      ((OrderTable.loadAllActiveOrders 9 s.2).filter fun r => r.id = "a").map
        (fun r => (r.quantity, r.remainingQuantity, r.status)) = [(7, 7, .partialFill)] := by
  decide +kernel

end OrderbookGC
