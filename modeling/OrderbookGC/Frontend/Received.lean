/-
What the bridge passes to the browsers and what a page reads there. `on_server_message` forwards the dictionary of a
message, a trade marked as one that needs no notification; `json.dumps` and `JSON.parse` give the page the same fields.
Whatever the prices, the page gets an order as the server reported it, the prices as they are written, and from no other
message does it take an order (`reads_row`).
-/
import OrderbookGC.Bridge.CashFlow
import OrderbookGC.Frontend.Screen
import OrderbookGC.Server.Payload

namespace OrderbookGC

open Text Wire

/-! ## The status message in the bridge -/

namespace Bridge

/-- The dictionary of a status message: the prices have the two decimals that the server writes. -/
def statusDict {α : Type} [Alphabet α] (localtime : Int → Tm) (m : Wire.OrderStatusMessage α) : PyDict α :=
  [("type", .str (lit "ORDER_STATUS")), ("order_id", .str m.orderId), ("client_id", .str m.clientId),
    ("symbol", .str m.symbol), ("side", .str (lit (sideToWireString m.side))),
    ("order_type", .str (lit (orderTypeToWireString m.orderType))), ("price", .float (.finite (shownPrice m.price)))] ++
  (if 0 < m.stopPrice then [("stop_price", .float (.finite (shownPrice m.stopPrice)))] else []) ++
  [("quantity", .int m.quantity.toNat), ("filled_quantity", .int m.filledQuantity.toNat),
    ("status", .str (lit (statusToWireString m.status))),
    ("timestamp", .str (timePointToString localtime m.orderTimestamp))]

section Parse

variable {α : Type} [Alphabet α] [DecidableEq α]

theorem extractFloat_shown {k : String} (hk : IsKey k) (x : ℚ) :
    extractFloat (lit k ++ showFixed2 x : List α) = .finite (shownPrice x) := by
  unfold extractFloat
  rw [extractString_key hk, pyFloat_shown]
  rfl

theorem foldl_stopPrice_shown (d : PyDict α) (hd : ∀ v, d.set "stop_price" v = d ++ [("stop_price", v)]) (x : ℚ) (rest : List α) :
    ((stopPriceLine x ++ rest).splitOn newline).foldl readOrderStatus d =
      (rest.splitOn newline).foldl readOrderStatus
        (d ++ if 0 < x then [("stop_price", .float (.finite (shownPrice x)))] else []) := by
  unfold stopPriceLine
  by_cases hpos : 0 < x
  · rw [if_pos hpos, if_pos hpos, splitOn_line (by decide) (newline_not_mem_showFixed2 _)]
    simp (disch := (simp only [IsAscii, IsKey, String.reduceToList]; decide)) only
      [List.foldl_cons, readOrderStatus, isEmpty_lit, startsWith_self, startsWith_other, Bool.false_eq_true, if_true, if_false,
        hd]
    rw [extractFloat_shown (by decide)]
  · rw [if_neg hpos, if_neg hpos, List.nil_append, List.append_nil]

/-- A status message, whatever its prices. -/
theorem parse_orderStatus_shown (localtime : Int → Tm) (m : Wire.OrderStatusMessage α) (hid : newline ∉ m.orderId)
    (hc : newline ∉ m.clientId) (hs : newline ∉ m.symbol) :
    parseMessage (m.serialize localtime) = some (statusDict localtime m) := by
  unfold Wire.OrderStatusMessage.serialize parseMessage
  rw [splitOn_line (by decide) (newline_not_mem_lit (by decide)), splitOn_line (by decide) hid, splitOn_line (by decide) hc,
    splitOn_line (by decide) hs, splitOn_line (by decide) (newline_not_mem_side _),
    splitOn_line (by decide) (newline_not_mem_type _), splitOn_line (by decide) (newline_not_mem_showFixed2 _)]
  simp (disch := (simp only [IsAscii, IsKey, String.reduceToList]; decide)) only
    [lit_inj, String.reduceEq, if_true, if_false, List.foldl_cons, readOrderStatus, isEmpty_lit, startsWith_self,
      startsWith_other, Bool.false_eq_true, extractString_key, PyDict.set]
  rw [extractFloat_shown (by decide), foldl_stopPrice_shown _ (fun _ => rfl), foldl_statusTail]
  unfold statusDict
  by_cases hpos : 0 < m.stopPrice
  · simp only [if_pos hpos, PyDict.set, String.reduceEq, if_false, List.cons_append, List.nil_append]
  · simp only [if_neg hpos, PyDict.set, String.reduceEq, if_false, List.cons_append, List.nil_append]

/-! ## The types of messages -/

omit [Alphabet α] [DecidableEq α] in
theorem PyDict.get?_set (d : PyDict α) (key key' : String) (value : PyValue α) :
    (d.set key value).get? key' = if key = key' then some value else d.get? key' := by
  unfold PyDict.get?
  induction d with
  | nil => by_cases h : key = key' <;> simp [PyDict.set, h]
  | cons e d ih =>
    unfold PyDict.set
    by_cases he : e.1 = key
    · subst he
      by_cases h : e.1 = key' <;> simp [h]
    · rw [if_neg he, List.find?_cons, List.find?_cons]
      by_cases hk : e.1 = key'
      · have hne : ¬ key = key' := fun h => he (hk.trans h.symm)
        simp [hk, hne]
      · simpa [hk] using ih

/-- The dictionary has the type. -/
def HasType (type : List α) (d : PyDict α) : Prop := d.get? "type" = some (.str type)

omit [Alphabet α] [DecidableEq α] in
theorem HasType.ite {c : Prop} [Decidable c] {type : List α} {t e : PyDict α} (ht : HasType type t) (he : HasType type e) :
    HasType type (if c then t else e) := by
  split_ifs
  · exact ht
  · exact he

omit [Alphabet α] [DecidableEq α] in
theorem HasType.set {type : List α} {d : PyDict α} (h : HasType type d) {key : String} (hkey : key ≠ "type")
    (value : PyValue α) : HasType type (d.set key value) := by
  unfold HasType
  rw [PyDict.get?_set, if_neg hkey]
  exact h

theorem HasType.readTrade {type : List α} {d : PyDict α} (h : HasType type d) (l : List α) : HasType type (readTrade d l) := by
  unfold Bridge.readTrade
  repeat' refine .ite ?_ ?_
  all_goals first | exact h | exact h.set (by decide) _

theorem HasType.readError {type : List α} {d : PyDict α} (h : HasType type d) (l : List α) : HasType type (readError d l) := by
  unfold Bridge.readError
  repeat' refine .ite ?_ ?_
  all_goals first | exact h | exact h.set (by decide) _

theorem HasType.readLoginResponse {type : List α} {d : PyDict α} (h : HasType type d) (l : List α) :
    HasType type (readLoginResponse d l) := by
  unfold Bridge.readLoginResponse
  repeat' refine .ite ?_ ?_
  all_goals first | exact h | exact h.set (by decide) _

theorem HasType.readRegisterResponse {type : List α} {d : PyDict α} (h : HasType type d) (l : List α) :
    HasType type (readRegisterResponse d l) := by
  unfold Bridge.readRegisterResponse
  repeat' refine .ite ?_ ?_
  all_goals first | exact h | exact h.set (by decide) _

omit [Alphabet α] [DecidableEq α] in
/-- A reader keeps the type. -/
theorem HasType.foldl {type : List α} {read : PyDict α → List α → PyDict α}
    (hread : ∀ {d}, HasType type d → ∀ l, HasType type (read d l)) (rest : List (List α)) {d : PyDict α} (h : HasType type d) :
    HasType type (rest.foldl read d) := by
  induction rest generalizing d with
  | nil => exact h
  | cons l rest ih => exact ih (hread h l)

theorem HasType.readOrderStatus {type : List α} {d : PyDict α} (h : HasType type d) (l : List α) :
    HasType type (readOrderStatus d l) := by
  unfold Bridge.readOrderStatus
  repeat' refine .ite ?_ ?_
  all_goals first | exact h | exact h.set (by decide) _

/-- The types of the dictionaries that `parse_message` returns. -/
def messageTypes : List String :=
  ["ORDER_STATUS", "ORDERBOOK_SNAPSHOT", "TRADE_NOTIFICATION", "ERROR", "LOGIN_RESPONSE", "REGISTER_RESPONSE", "UNKNOWN"]

/-- Only a text that begins with the type of status messages becomes a status message. -/
theorem parse_type {first : List α} {rest : List (List α)} {data : List α} {d : PyDict α}
    (hdata : data.splitOn newline = first :: rest) (hd : parseMessage data = some d) :
    ∃ type ∈ messageTypes, HasType (lit type) d ∧ (type = "ORDER_STATUS" → extractString first = lit "ORDER_STATUS") := by
  unfold parseMessage at hd
  rw [hdata] at hd
  dsimp only at hd
  split_ifs at hd with hfirst <;> cases hd
  · exact ⟨"ORDER_STATUS", by decide, .foldl .readOrderStatus rest rfl, fun _ => hfirst⟩
  · exact ⟨"ORDERBOOK_SNAPSHOT", by decide, rfl, fun h => absurd h (by decide)⟩
  · exact ⟨"TRADE_NOTIFICATION", by decide, .foldl .readTrade rest rfl, fun h => absurd h (by decide)⟩
  · exact ⟨"ERROR", by decide, .foldl .readError rest rfl, fun h => absurd h (by decide)⟩
  · exact ⟨"LOGIN_RESPONSE", by decide, .foldl .readLoginResponse rest rfl, fun h => absurd h (by decide)⟩
  · exact ⟨"REGISTER_RESPONSE", by decide, .foldl .readRegisterResponse rest rfl, fun h => absurd h (by decide)⟩
  · exact ⟨"UNKNOWN", by decide, rfl, fun h => absurd h (by decide)⟩

end Parse

/-! ## What is forwarded -/

def PyDict.getString (d : PyDict Char) (key : String) : Option String :=
  match d.get? key with
  | some (.str s) => some (String.ofList s)
  | _ => none

/-- What `on_server_message` broadcasts. -/
def forwarded (msg : PyDict Char) : PyDict Char :=
  if msg.getString "type" = some "TRADE_NOTIFICATION" then msg.set "notify" (.bool false) else msg

end Bridge

namespace Frontend

open Bridge

/-! ## What a page reads -/

/-- A number is an `int` or a finite `float`. -/
def getNumber (d : PyDict Char) (key : String) : Option ℚ :=
  match d.get? key with
  | some (.int i) => some i
  | some (.float (.finite x)) => some x
  | _ => none

def getInt (d : PyDict Char) (key : String) : Option Int :=
  match d.get? key with
  | some (.int i) => some i
  | _ => none

def getBool (d : PyDict Char) (key : String) : Option Bool :=
  match d.get? key with
  | some (.bool b) => some b
  | _ => none

def getFlag (d : PyDict Char) (key : String) : Option Flag :=
  match d.get? key with
  | some (.bool b) => some (.bool b)
  | some (.str s) => some (.str (String.ofList s))
  | _ => none

def getLevel : PyValue Char → Option PriceLevel
  | .dict d => do
    let price ← getNumber d "price"
    let quantity ← getInt d "quantity"
    let orderCount ← getInt d "order_count"
    some ⟨price, quantity, orderCount⟩
  | _ => none

def getLevels (d : PyDict Char) (key : String) : Option (List PriceLevel) :=
  match d.get? key with
  | some (.list l) => l.mapM getLevel
  | _ => none

/-- The message that a dictionary is to `handleMessage`; `none` if it lacks a field that TypeScript declares. -/
def Message.ofDict (d : PyDict Char) : Option Message :=
  let type := d.getString "type"
  if type = some "ORDERBOOK_SNAPSHOT" then some (.orderbookSnapshot (getLevels d "bids") (getLevels d "asks"))
  else if type = some "TRADE_NOTIFICATION" then do
    let buyOrderId ← d.getString "buy_order_id"
    let sellOrderId ← d.getString "sell_order_id"
    let symbol ← d.getString "symbol"
    let price ← getNumber d "price"
    let quantity ← getInt d "quantity"
    let timestamp ← d.getString "timestamp"
    some (.tradeNotification buyOrderId sellOrderId symbol price quantity timestamp (getBool d "notify"))
  else if type = some "ORDER_STATUS" then do
    let orderId ← d.getString "order_id"
    let clientId ← d.getString "client_id"
    let symbol ← d.getString "symbol"
    let side ← d.getString "side"
    let price ← getNumber d "price"
    let quantity ← getInt d "quantity"
    let filledQuantity ← getInt d "filled_quantity"
    let status ← d.getString "status"
    let timestamp ← d.getString "timestamp"
    some (.orderStatus orderId clientId symbol side (d.getString "order_type") price (getNumber d "stop_price") quantity
      filledQuantity status timestamp)
  else if type = some "ERROR" then some (.error (d.getString "description") (d.getString "error_message"))
  else if type = some "PNL_UPDATE" then some .pnlUpdate
  else if type = some "LOGIN_RESPONSE" then
    some (.loginResponse (getFlag d "success") (d.getString "username") (d.getString "session_token") (d.getString "error_message"))
  else if type = some "REGISTER_RESPONSE" then
    some (.registerResponse (getFlag d "success") (d.getString "username") (d.getString "error_message"))
  else some .other

/-- The order that a message brings to the table. -/
def Message.orderInfo : Message → Option OrderInfo
  | .orderStatus orderId clientId symbol side orderType price stopPrice quantity filledQuantity status timestamp =>
    some ⟨orderId, clientId, symbol, side, orderType.getD "LIMIT", price, stopPrice.getD 0, quantity, filledQuantity, status,
      timestamp⟩
  | _ => none

def messageOf : Clock × Page.Event → Option Message
  | (_, .message msg) => some msg
  | _ => none

theorem orderOf_eq (e : Clock × Page.Event) : orderOf e = (messageOf e).bind Message.orderInfo := by
  obtain ⟨clock, event⟩ := e
  cases event with
  | message msg => cases msg <;> rfl
  | _ => rfl

/-- The order of a dictionary. -/
def orderInDict (d : PyDict Char) : Option OrderInfo := (Message.ofDict (forwarded d)).bind Message.orderInfo

/-- The row of the table for a status message: the prices as they are written. -/
def OrderInfo.shown (localtime : Int → Tm) (m : OrderStatusMessage) : OrderInfo :=
  { orderId := m.orderId, clientId := m.clientId, symbol := m.symbol, side := sideToWireString m.side
    orderType := orderTypeToWireString m.orderType, price := shownPrice m.price
    stopPrice := if 0 < m.stopPrice then shownPrice m.stopPrice else 0, quantity := m.quantity.toNat
    filledQuantity := m.filledQuantity.toNat, status := statusToWireString m.status
    timestamp := String.ofList (timePointToString localtime m.orderTimestamp) }

theorem orderInDict_status (localtime : Int → Tm) (m : OrderStatusMessage) :
    orderInDict (statusDict localtime (wireStatus m)) = some (.shown localtime m) := by
  have hlit : ∀ s : String, String.ofList (lit s) = s := fun s => by
    unfold lit
    rw [show (Alphabet.ofChar : Char → Char) = id from rfl, List.map_id, String.ofList_toList]
  unfold orderInDict forwarded Message.ofDict PyDict.getString getNumber getInt PyDict.get? statusDict wireStatus OrderInfo.shown
  by_cases hpos : 0 < m.stopPrice
  · simp [hlit, hpos, Message.orderInfo]
  · simp [hlit, hpos, Message.orderInfo]

/-- The type is forwarded. -/
theorem getString_forwarded {d : PyDict Char} {type : String} (h : HasType (lit type) d) :
    (forwarded d).getString "type" = some type := by
  have hf : HasType (lit type) (forwarded d) := .ite (h.set (by decide) _) h
  unfold PyDict.getString
  rw [show (forwarded d).get? "type" = _ from hf]
  exact congrArg some ((congrArg String.ofList (List.map_id _)).trans String.ofList_toList)

theorem orderInDict_other {d : PyDict Char} {type : String} (h : HasType (lit type) d) (hne : type ≠ "ORDER_STATUS") :
    orderInDict d = none := by
  have hstatus : ¬ some type = some "ORDER_STATUS" := fun he => hne (Option.some.inj he)
  unfold orderInDict
  cases hm : Message.ofDict (forwarded d) with
  | none => rfl
  | some m =>
    unfold Message.ofDict at hm
    rw [getString_forwarded h] at hm
    dsimp only at hm
    rw [if_neg hstatus] at hm
    split_ifs at hm
    · cases hm; rfl
    · simp only [Option.bind_eq_bind, Option.bind_eq_some_iff] at hm
      obtain ⟨_, -, _, -, _, -, _, -, _, -, _, -, hm⟩ := hm
      cases hm; rfl
    all_goals cases hm; rfl

/-! ## From the server -/

/-- The bridge reads the dictionary in the frame of a response, whenever the response is serialized. -/
def Reads (localtime : Int → Tm) (r : Response) (d : PyDict Char) : Prop :=
  ∃ now, parseMessage (decodeUtf8 (r.payload localtime now)) = some d

/-- The row that a response brings to the table. -/
def rowOf (localtime : Int → Tm) : Response → Option OrderInfo
  | .orderStatus m => some (.shown localtime m)
  | _ => none

/-- The text of a response, before it is encoded. -/
def textOf (now : Int) : Response → Wire.Message Char
  | .orderStatus m => .orderStatus (wireStatus m)
  | .orderbookSnapshot symbol bids asks =>
    .orderbookSnapshot ⟨symbol.toList, bids.map OrderbookGC.PriceLevel.toWire, asks.map OrderbookGC.PriceLevel.toWire⟩
  | .tradeNotification t =>
    .tradeNotification ⟨t.buyOrderId.toList, t.sellOrderId.toList, t.symbol.toList, t.price, t.quantity, now⟩
  | .error errorCode description => .error ⟨errorCode.toList, description.toList⟩
  | .loginResponse success sessionToken username errorMessage =>
    .loginResponse ⟨success, sessionToken.toList, username.toList, errorMessage.toList⟩
  | .registerResponse success username errorMessage =>
    .registerResponse ⟨success, username.toList, errorMessage.toList⟩

theorem decode_payload (localtime : Int → Tm) (now : Int) (r : Response) :
    decodeUtf8 (r.payload localtime now) = (textOf now r).serialize localtime := by
  have hwire : r.toWire now = mapText encodeUtf8 (textOf now r) := by cases r <;> rfl
  unfold Response.payload
  rw [hwire, show (mapText encodeUtf8 (textOf now r)).serialize localtime = _ from serialize_map utf8Hom localtime _]
  exact decodeUtf8_encodeUtf8 _

theorem reads_row {localtime : Int → Tm} {r : Response} {d : PyDict Char} (h : Reads localtime r d)
    (hline : ∀ m, r = .orderStatus m → newline ∉ m.orderId.toList ∧ newline ∉ m.clientId.toList ∧ newline ∉ m.symbol.toList) :
    orderInDict d = rowOf localtime r := by
  obtain ⟨now, hd⟩ := h
  rw [decode_payload] at hd
  have hother : ∀ type : String, IsPlain type → IsAscii type → type ≠ "ORDER_STATUS" → ∀ rest : List Char,
      (textOf now r).serialize localtime = line "type=" (lit type) ++ rest → orderInDict d = none := by
    intro type hp ha hne rest htext
    have hsplit := splitOn_line (k := "type=") (by decide) (newline_not_mem_lit (α := Char) hp) rest
    rw [← htext] at hsplit
    obtain ⟨t, -, ht, hfirst⟩ := parse_type hsplit hd
    rw [Bridge.extractString_key (by decide)] at hfirst
    exact orderInDict_other ht fun he => hne ((lit_inj ha (by decide)).1 (hfirst he))
  cases r with
  | orderStatus m =>
    obtain ⟨h1, h2, h3⟩ := hline m rfl
    have hparse := parse_orderStatus_shown localtime (wireStatus m) h1 h2 h3
    cases hd.symm.trans hparse
    exact orderInDict_status localtime m
  | orderbookSnapshot symbol bids asks => exact hother "ORDERBOOK_SNAPSHOT" (by decide) (by decide) (by decide) _ rfl
  | tradeNotification t => exact hother "TRADE_NOTIFICATION" (by decide) (by decide) (by decide) _ rfl
  | error errorCode description => exact hother "ERROR" (by decide) (by decide) (by decide) _ rfl
  | loginResponse success sessionToken username errorMessage =>
    exact hother "LOGIN_RESPONSE" (by decide) (by decide) (by decide) _ rfl
  | registerResponse success username errorMessage =>
    exact hother "REGISTER_RESPONSE" (by decide) (by decide) (by decide) _ rfl

end Frontend

end OrderbookGC
