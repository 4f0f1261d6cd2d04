/-
The payloads the server sends, and how long they are. A message echoes strings of requests inside a longer text; what
stands around them has a fixed length, and the numbers have few digits. The reports of an order change with its status,
its type and what is filled of it, and none is longer than `Order.reportLength`.
-/
import OrderbookGC.Book.Reported
import OrderbookGC.Server.Server
import OrderbookGC.Session.Framing
import OrderbookGC.Wire.Length

namespace OrderbookGC

open Framing Text

/-! ## Messages on the wire -/

/-- The bytes of a `std::string`. -/
def bytes (s : String) : List UInt8 := encodeUtf8 s.toList

@[simp] theorem length_bytes (s : String) : (bytes s).length = s.utf8ByteSize := length_encodeUtf8 s

def PriceLevel.toWire (l : PriceLevel) : Wire.PriceLevel := ⟨l.price, l.quantity, l.orderCount⟩

def OrderStatusMessage.toWire (m : OrderStatusMessage) : Wire.OrderStatusMessage UInt8 :=
  { orderId := bytes m.orderId, clientId := bytes m.clientId, symbol := bytes m.symbol, side := m.side
    orderType := m.orderType, price := m.price, stopPrice := m.stopPrice, quantity := m.quantity
    filledQuantity := m.filledQuantity, status := m.status, orderTimestamp := m.orderTimestamp }

/-- The message as it is serialized; a trade carries the time it was made. -/
def Response.toWire (now : Int) : Response → Wire.Message UInt8
  | .orderStatus m => .orderStatus m.toWire
  | .orderbookSnapshot symbol bids asks =>
    .orderbookSnapshot ⟨bytes symbol, bids.map PriceLevel.toWire, asks.map PriceLevel.toWire⟩
  | .tradeNotification t =>
    .tradeNotification ⟨bytes t.buyOrderId, bytes t.sellOrderId, bytes t.symbol, t.price, t.quantity, now⟩
  | .error errorCode description => .error ⟨bytes errorCode, bytes description⟩
  | .loginResponse success sessionToken username errorMessage =>
    .loginResponse ⟨success, bytes sessionToken, bytes username, bytes errorMessage⟩
  | .registerResponse success username errorMessage => .registerResponse ⟨success, bytes username, bytes errorMessage⟩

/-- What `Session::sendMessage` puts in a frame. -/
def Response.payload (localtime : Int → Wire.Tm) (now : Int) (r : Response) : List UInt8 :=
  (r.toWire now).serialize localtime

/-! ## Lengths -/

/-- The length of an order's type, of its status and of what is filled of it, at their longest: `CANCELED` with all but one
filled; a stop order is reported as a market order once it is triggered. An order of quantity 0 stays `PENDING`. -/
def outcomeLength (t : OrderType) (quantity : UInt32) : Nat :=
  if quantity = 0 then (Wire.orderTypeToWireString t).toList.length + 8
  else
    match t with
    | .limit => 13 + digitCount (quantity.toNat - 1)
    | .market => 14 + digitCount (quantity.toNat - 1)
    | .stop => 14 + digitCount (quantity.toNat - 1)
    | .stopLimit => max 19 (13 + digitCount (quantity.toNat - 1))

namespace Order

/-- The length of the longest report of an order. -/
def reportLength (o : Order ℚ) : Nat :=
  176 + o.clientId.utf8ByteSize + o.symbol.utf8ByteSize + (Wire.sideToWireString o.side).toList.length +
    Wire.priceLength o.price + Wire.stopPriceLength o.stopPrice + digitCount o.quantity.toNat +
    outcomeLength o.orderType o.quantity

/-- The length of the longest notification of a trade at an order's price. -/
def noticeLength (o : Order ℚ) : Nat :=
  183 + o.symbol.utf8ByteSize + Wire.priceLength o.price + digitCount o.quantity.toNat

/-- Every report of the order fits in a frame. -/
structure Reportable (localtime : Int → Wire.Tm) (o : Order ℚ) : Prop where
  time : Wire.timeLength localtime o.timestamp = 23
  length : o.reportLength ≤ maxMessageSize

end Order

/-- The length of the longest notification of a trade at the price of a row. -/
def OrderRow.noticeLength (r : OrderRow) : Nat :=
  183 + r.symbol.utf8ByteSize + Wire.priceLength r.price + digitCount (columnInt r.quantity).toNat

theorem length_generateUuid (d : UuidDraws) : (generateUuid d).utf8ByteSize = 36 := by
  have hdigit : ∀ n, (hexDigit n).toNat < 128 := by decide
  have hhex : ∀ i n, ∀ c ∈ d.hex i n, c.toNat < 128 := by
    intro i n c hc
    obtain ⟨k, -, hk⟩ := List.mem_filterMap.1 hc
    split_ifs at hk
    cases hk
    exact hdigit _
  rw [← length_encodeUtf8, generateUuid, String.toList_ofList, length_encodeUtf8_ascii]
  · simp only [List.length_append, List.length_cons, List.length_nil]
    rfl
  · intro c hc
    simp only [List.mem_append, List.mem_cons, List.not_mem_nil, or_false] at hc
    rcases hc with (((((hc | rfl | hc) | rfl | rfl) | hc) | rfl | rfl) | hc) | rfl | hc
    all_goals first | exact hhex _ _ c hc | exact hdigit _ | decide

/-- The text a C string carries is no longer than the string. -/
theorem cStr_utf8ByteSize_le (s : String) : (cStr s).utf8ByteSize ≤ s.utf8ByteSize := by
  rw [← length_encodeUtf8, ← length_encodeUtf8]
  unfold cStr
  rw [String.toList_ofList]
  have hsplit := encodeUtf8_append (s.toList.takeWhile (· ≠ '\x00')) (s.toList.dropWhile (· ≠ '\x00'))
  rw [List.takeWhile_append_dropWhile] at hsplit
  rw [hsplit, List.length_append]
  exact Nat.le_add_right ..

/-- A report of an order, against its longest. -/
theorem Order.Accounted.outcome_le {o : Order ℚ} (h : o.Accounted) :
    (Wire.orderTypeToWireString o.orderType).toList.length + (Wire.statusToWireString o.status).toList.length +
      digitCount (o.quantity - o.remainingQuantity).toNat ≤ outcomeLength o.orderType o.quantity := by
  have hle := UInt32.le_iff_toNat_le.1 h.le
  have hstatus : (Wire.statusToWireString o.status).toList.length ≤ 8 := by cases o.status <;> decide
  rw [UInt32.toNat_sub_of_le _ _ h.le]
  unfold outcomeLength
  by_cases h0 : o.quantity = 0
  · -- nothing to fill: only a filled order has no remainder
    have hr : o.remainingQuantity = 0 := UInt32.toNat_inj.1 (by rw [h0] at hle; exact Nat.le_zero.1 hle)
    have hf : o.status = .filled := h.left.resolve_right (by rw [hr]; decide)
    rw [if_pos h0, h0, hr, hf]
    show _ + 6 + 1 ≤ _
    omega
  · rw [if_neg h0]
    have hq : 0 < o.quantity.toNat := UInt32.lt_iff_toNat_lt.1 (UInt32.pos_iff_ne_zero.2 h0)
    have hsum : (Wire.statusToWireString o.status).toList.length + digitCount (o.quantity.toNat - o.remainingQuantity.toNat) ≤
        8 + digitCount (o.quantity.toNat - 1) := by
      rcases h.left with hf | hr
      · have hall : digitCount (o.quantity.toNat - o.remainingQuantity.toNat) ≤ digitCount (o.quantity.toNat - 1 + 1) :=
          digitCount_mono (by omega)
        have hsucc := digitCount_succ_le (o.quantity.toNat - 1)
        rw [hf]
        show 6 + _ ≤ _
        omega
      · have hr : 0 < o.remainingQuantity.toNat := UInt32.lt_iff_toNat_lt.1 hr
        have hsome : digitCount (o.quantity.toNat - o.remainingQuantity.toNat) ≤ digitCount (o.quantity.toNat - 1) :=
          digitCount_mono (by omega)
        omega
    cases ht : o.orderType with
    | limit | market | stop =>
      simp only [Wire.orderTypeToWireString, String.reduceToList, List.length_cons, List.length_nil]
      omega
    | stopLimit =>
      -- it waits with all of its quantity
      have hr : o.remainingQuantity = o.quantity := h.waiting (by unfold Order.isStopOrder; rw [ht]; rfl)
      rw [hr, Nat.sub_self]
      have h1 : digitCount 0 = 1 := by decide
      simp only [Wire.orderTypeToWireString, String.reduceToList, List.length_cons, List.length_nil]
      omega

theorem outcomeLength_ge (t : OrderType) (quantity : UInt32) : 12 ≤ outcomeLength t quantity := by
  have h := digitCount_pos (quantity.toNat - 1)
  unfold outcomeLength
  split_ifs
  · cases t <;> decide
  · cases t <;> dsimp only <;> omega

namespace Order

/-- A notification is shorter than a report. -/
theorem noticeLength_le (o : Order ℚ) : o.noticeLength + 8 ≤ o.reportLength := by
  have h := outcomeLength_ge o.orderType o.quantity
  have hside : 3 ≤ (Wire.sideToWireString o.side).toList.length := by cases o.side <;> decide
  unfold noticeLength reportLength
  omega

/-- What a call leaves of an order has no longer reports. -/
theorem Reportable.later {localtime : Int → Wire.Tm} {o o' : Order ℚ} (h : o.Reportable localtime) (hs : o.SameStatic o')
    (hp : o'.Priced ↔ o.Priced) (hw : o'.isStopOrder = true → o.isStopOrder = true) (hq : o.quantity ≠ 0) :
    o'.Reportable localtime := by
  refine ⟨by rw [hs.timestamp]; exact h.time, le_trans ?_ h.length⟩
  have hout : outcomeLength o'.orderType o.quantity ≤ outcomeLength o.orderType o.quantity := by
    unfold outcomeLength
    rw [if_neg hq, if_neg hq]
    unfold Priced at hp
    unfold isStopOrder at hw
    cases ht : o.orderType <;> cases ht' : o'.orderType <;> simp [ht, ht'] at hp hw ⊢
  unfold reportLength
  rw [hs.clientId, hs.symbol, hs.side, hs.price, hs.stopPrice, hs.quantity]
  omega

theorem noticeLength_later {o o' : Order ℚ} (hs : o.SameStatic o') : o'.noticeLength = o.noticeLength := by
  unfold noticeLength
  rw [hs.symbol, hs.price, hs.quantity]

end Order

/-! ## Payloads -/

section Payload

variable {localtime : Int → Wire.Tm} {now : Int}

theorem sendable_iff {payload : List UInt8} {n : Nat} (h : payload.length = n) (h1 : 1 ≤ n) :
    Sendable payload ↔ n ≤ maxMessageSize := by
  subst h
  exact and_iff_right h1

theorem sendable_of_le {payload : List UInt8} {n : Nat} (h : payload.length = n) (h1 : 1 ≤ n) (hn : n ≤ maxMessageSize) :
    Sendable payload := (sendable_iff h h1).2 hn

theorem length_report (m : OrderStatusMessage) :
    ((Response.orderStatus m).payload localtime now).length = 117 + m.orderId.utf8ByteSize + m.clientId.utf8ByteSize +
      m.symbol.utf8ByteSize + (Wire.sideToWireString m.side).toList.length +
      (Wire.orderTypeToWireString m.orderType).toList.length + Wire.priceLength m.price + Wire.stopPriceLength m.stopPrice +
      digitCount m.quantity.toNat + digitCount m.filledQuantity.toNat + (Wire.statusToWireString m.status).toList.length +
      Wire.timeLength localtime m.orderTimestamp := by
  refine (Wire.OrderStatusMessage.length_serialize localtime m.toWire).trans ?_
  simp only [OrderStatusMessage.toWire, length_bytes]

theorem report_of_outcome {o : Order ℚ} (hr : o.Reportable localtime) (hid : o.id.utf8ByteSize = 36)
    (hout : (Wire.orderTypeToWireString o.orderType).toList.length + (Wire.statusToWireString o.status).toList.length +
      digitCount (o.quantity - o.remainingQuantity).toNat ≤ outcomeLength o.orderType o.quantity) :
    Sendable ((Response.orderStatus o.statusMessage).payload localtime now) := by
  refine sendable_of_le (length_report _) (by omega) (le_trans ?_ hr.length)
  have htime := hr.time
  unfold Order.reportLength Order.statusMessage
  dsimp only
  omega

/-- The report of an order that the server knows. -/
theorem Order.Accounted.report {o : Order ℚ} (h : o.Accounted) (hr : o.Reportable localtime) (hid : o.id.utf8ByteSize = 36) :
    Sendable ((Response.orderStatus o.statusMessage).payload localtime now) :=
  report_of_outcome hr hid h.outcome_le

/-- The report of an order that the book has refused. -/
theorem report_refused {o : Order ℚ} (hr : o.Reportable localtime) (hid : o.id.utf8ByteSize = 36) (hs : o.status = .pending)
    (hrem : o.remainingQuantity = o.quantity) (h0 : o.quantity = 0) :
    Sendable ((Response.orderStatus o.statusMessage).payload localtime now) := by
  refine report_of_outcome hr hid ?_
  unfold outcomeLength
  rw [if_pos h0, hs, hrem, h0]
  show _ + 7 + 1 ≤ _
  omega

theorem length_notification (t : Trade ℚ) :
    ((Response.tradeNotification t).payload localtime now).length = 88 + t.buyOrderId.utf8ByteSize +
      t.sellOrderId.utf8ByteSize + t.symbol.utf8ByteSize + Wire.priceLength t.price + digitCount t.quantity.toNat +
      Wire.timeLength localtime now := by
  refine (Wire.TradeNotificationMessage.length_serialize localtime _).trans ?_
  simp only [length_bytes]

/-- The notification of a trade at the price of an order that had what is traded. -/
theorem notification_sendable {o : Order ℚ} {t : Trade ℚ} (ho : o.noticeLength ≤ maxMessageSize)
    (hnow : Wire.timeLength localtime now = 23) (hb : t.buyOrderId.utf8ByteSize = 36) (hs : t.sellOrderId.utf8ByteSize = 36)
    (hsym : t.symbol = o.symbol) (hp : t.price = o.price) (hq : t.quantity ≤ o.quantity) :
    Sendable ((Response.tradeNotification t).payload localtime now) := by
  refine sendable_of_le (length_notification t) (by omega) (le_trans ?_ ho)
  have hdigits := digitCount_mono (UInt32.le_iff_toNat_le.1 hq)
  unfold Order.noticeLength
  rw [hsym, hp]
  omega

theorem length_error (errorCode description : String) :
    ((Response.error errorCode description).payload localtime now).length =
      35 + errorCode.utf8ByteSize + description.utf8ByteSize := by
  refine (Wire.ErrorMessage.length_serialize _).trans ?_
  simp only [length_bytes]

theorem length_loginResponse (success : Bool) (sessionToken username errorMessage : String) :
    ((Response.loginResponse success sessionToken username errorMessage).payload localtime now).length =
      68 + (Wire.boolToWireString success).toList.length + sessionToken.utf8ByteSize + username.utf8ByteSize +
        errorMessage.utf8ByteSize := by
  refine (Wire.LoginResponseMessage.length_serialize _).trans ?_
  simp only [length_bytes]

theorem length_registerResponse (success : Bool) (username errorMessage : String) :
    ((Response.registerResponse success username errorMessage).payload localtime now).length =
      56 + (Wire.boolToWireString success).toList.length + username.utf8ByteSize + errorMessage.utf8ByteSize := by
  refine (Wire.RegisterResponseMessage.length_serialize _).trans ?_
  simp only [length_bytes]

/-- The length of the levels that a snapshot of the book has. -/
def OrderBook.levelsLength (b : OrderBook ℚ) : Nat :=
  ((b.getBidLevels 10 ++ b.getAskLevels 10).map fun l => l.toWire.textLength).sum

theorem length_snapshotMessage (symbol : String) (b : OrderBook ℚ) :
    ((Server.snapshotMessage symbol b).payload localtime now).length = 44 + symbol.utf8ByteSize + b.levelsLength := by
  refine (Wire.OrderbookSnapshotMessage.length_serialize _).trans ?_
  unfold OrderBook.levelsLength
  rw [length_bytes, ← List.map_append, List.map_map]
  rfl

end Payload

end OrderbookGC
