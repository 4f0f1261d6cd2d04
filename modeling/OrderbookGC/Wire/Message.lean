/-
The text format of `message.cpp`: the eleven message classes, `serialize` and `parseMessage`. A
`std::string` is a list over an alphabet that contains ASCII (bytes in the C++ programs). Prices are
exact decimals, printed with two places; numbers are read as a stream extracts them. What a time
point looks like on the wall clock, and what a text says about it, depends on the time zone of the
host, so both are parameters.
-/
import OrderbookGC.Book.Order
import OrderbookGC.Text.Decimal

namespace OrderbookGC.Wire

open Text

variable {α : Type} [Alphabet α]

/-! ## Messages -/

structure PriceLevel where
  price : ℚ
  quantity : UInt32
  orderCount : Int
deriving DecidableEq

structure OrderSubmitMessage (α : Type) where
  clientId : List α
  symbol : List α
  side : OrderSide
  orderType : OrderType
  price : ℚ
  stopPrice : ℚ
  quantity : UInt32
deriving DecidableEq

structure OrderCancelMessage (α : Type) where
  orderId : List α
  clientId : List α
deriving DecidableEq

structure OrderStatusMessage (α : Type) where
  orderId : List α
  clientId : List α
  symbol : List α
  side : OrderSide
  orderType : OrderType
  price : ℚ
  stopPrice : ℚ
  quantity : UInt32
  filledQuantity : UInt32
  status : OrderStatus
  orderTimestamp : Int
deriving DecidableEq

structure OrderbookSnapshotMessage (α : Type) where
  symbol : List α
  bids : List PriceLevel
  asks : List PriceLevel
deriving DecidableEq

structure TradeNotificationMessage (α : Type) where
  buyOrderId : List α
  sellOrderId : List α
  symbol : List α
  price : ℚ
  quantity : UInt32
  tradeTimestamp : Int
deriving DecidableEq

structure ErrorMessage (α : Type) where
  errorCode : List α
  description : List α
deriving DecidableEq

structure SnapshotRequestMessage (α : Type) where
  symbol : List α
deriving DecidableEq

structure LoginMessage (α : Type) where
  username : List α
  password : List α
deriving DecidableEq

structure LoginResponseMessage (α : Type) where
  success : Bool
  sessionToken : List α
  username : List α
  errorMessage : List α
deriving DecidableEq

structure RegisterMessage (α : Type) where
  username : List α
  password : List α
deriving DecidableEq

structure RegisterResponseMessage (α : Type) where
  success : Bool
  username : List α
  errorMessage : List α
deriving DecidableEq

inductive Message (α : Type)
  | orderSubmit (m : OrderSubmitMessage α)
  | orderCancel (m : OrderCancelMessage α)
  | orderStatus (m : OrderStatusMessage α)
  | orderbookSnapshot (m : OrderbookSnapshotMessage α)
  | tradeNotification (m : TradeNotificationMessage α)
  | error (m : ErrorMessage α)
  | snapshotRequest (m : SnapshotRequestMessage α)
  | login (m : LoginMessage α)
  | loginResponse (m : LoginResponseMessage α)
  | register (m : RegisterMessage α)
  | registerResponse (m : RegisterResponseMessage α)
deriving DecidableEq

/-! ## Time -/

/-- The fields of a `std::tm` as `put_time` prints them. -/
structure Tm where
  year : Int
  month : Int
  day : Int
  hour : Int
  minute : Int
  second : Int

/-- `setfill('0')` and `setw(n)`. -/
def zeroFill (n : Nat) (l : List α) : List α := List.replicate (n - l.length) (Alphabet.ofChar '0') ++ l

/-- A time point in nanoseconds as `%Y-%m-%d %H:%M:%S` and milliseconds; `localtime` is the wall clock of the host. -/
def timePointToString (localtime : Int → Tm) (tp : Int) : List α :=
  let tm := localtime (tp.tdiv (10 ^ 9))
  let ms := (tp.tdiv (10 ^ 6)).tmod 1000
  showInt tm.year ++ lit "-" ++ zeroFill 2 (showInt tm.month) ++ lit "-" ++ zeroFill 2 (showInt tm.day) ++ lit " " ++
    zeroFill 2 (showInt tm.hour) ++ lit ":" ++ zeroFill 2 (showInt tm.minute) ++ lit ":" ++
    zeroFill 2 (showInt tm.second) ++ lit "." ++ zeroFill 3 (showInt ms)

/-! ## Serialization -/

def sideToWireString : OrderSide → String
  | .buy => "BUY"
  | .sell => "SELL"

def orderTypeToWireString : OrderType → String
  | .market => "MARKET"
  | .stop => "STOP"
  | .stopLimit => "STOP_LIMIT"
  | .limit => "LIMIT"

def statusToWireString : OrderStatus → String
  | .pending => "PENDING"
  | .partialFill => "PARTIAL"
  | .filled => "FILLED"
  | .canceled => "CANCELED"
  | .rejected => "REJECTED"

def boolToWireString (b : Bool) : String := if b then "true" else "false"

/-- The line of a stop price, written when there is one. -/
def stopPriceLine (stopPrice : ℚ) : List α := if 0 < stopPrice then line "stop_price=" (showFixed2 stopPrice) else []

def OrderSubmitMessage.serialize (m : OrderSubmitMessage α) : List α :=
  line "type=" (lit "ORDER_SUBMIT") ++
  (line "client_id=" m.clientId ++
  (line "symbol=" m.symbol ++
  (line "side=" (lit (sideToWireString m.side)) ++
  (line "order_type=" (lit (orderTypeToWireString m.orderType)) ++
  (line "price=" (showFixed2 m.price) ++
  (stopPriceLine m.stopPrice ++
  (lit "quantity=" ++ showNat m.quantity.toNat)))))))

def OrderCancelMessage.serialize (m : OrderCancelMessage α) : List α :=
  line "type=" (lit "ORDER_CANCEL") ++
  (line "order_id=" m.orderId ++
  (lit "client_id=" ++ m.clientId))

def OrderStatusMessage.serialize (localtime : Int → Tm) (m : OrderStatusMessage α) : List α :=
  line "type=" (lit "ORDER_STATUS") ++
  (line "order_id=" m.orderId ++
  (line "client_id=" m.clientId ++
  (line "symbol=" m.symbol ++
  (line "side=" (lit (sideToWireString m.side)) ++
  (line "order_type=" (lit (orderTypeToWireString m.orderType)) ++
  (line "price=" (showFixed2 m.price) ++
  (stopPriceLine m.stopPrice ++
  (line "quantity=" (showNat m.quantity.toNat) ++
  (line "filled_quantity=" (showNat m.filledQuantity.toNat) ++
  (line "status=" (lit (statusToWireString m.status)) ++
  (lit "timestamp=" ++ timePointToString localtime m.orderTimestamp)))))))))))

/-- The three lines of a level. -/
def PriceLevel.serialize (l : PriceLevel) : List α :=
  line "price=" (showFixed2 l.price) ++
  (line "quantity=" (showNat l.quantity.toNat) ++
  line "order_count=" (showInt l.orderCount))

def OrderbookSnapshotMessage.serialize (m : OrderbookSnapshotMessage α) : List α :=
  line "type=" (lit "ORDERBOOK_SNAPSHOT") ++
  (line "symbol=" m.symbol ++
  (line "BIDS:" [] ++
  (m.bids.flatMap PriceLevel.serialize ++
  (line "ASKS:" [] ++
  m.asks.flatMap PriceLevel.serialize))))

def TradeNotificationMessage.serialize (localtime : Int → Tm) (m : TradeNotificationMessage α) : List α :=
  line "type=" (lit "TRADE_NOTIFICATION") ++
  (line "buy_order_id=" m.buyOrderId ++
  (line "sell_order_id=" m.sellOrderId ++
  (line "symbol=" m.symbol ++
  (line "price=" (showFixed2 m.price) ++
  (line "quantity=" (showNat m.quantity.toNat) ++
  (lit "timestamp=" ++ timePointToString localtime m.tradeTimestamp))))))

def ErrorMessage.serialize (m : ErrorMessage α) : List α :=
  line "type=" (lit "ERROR") ++
  (line "error_code=" m.errorCode ++
  (lit "description=" ++ m.description))

def SnapshotRequestMessage.serialize (m : SnapshotRequestMessage α) : List α :=
  line "type=" (lit "SNAPSHOT_REQUEST") ++
  line "symbol=" m.symbol

def LoginMessage.serialize (m : LoginMessage α) : List α :=
  line "type=" (lit "LOGIN") ++
  (line "username=" m.username ++
  (lit "password=" ++ m.password))

def LoginResponseMessage.serialize (m : LoginResponseMessage α) : List α :=
  line "type=" (lit "LOGIN_RESPONSE") ++
  (line "success=" (lit (boolToWireString m.success)) ++
  (line "session_token=" m.sessionToken ++
  (line "username=" m.username ++
  (lit "error_message=" ++ m.errorMessage))))

def RegisterMessage.serialize (m : RegisterMessage α) : List α :=
  line "type=" (lit "REGISTER") ++
  (line "username=" m.username ++
  (lit "password=" ++ m.password))

def RegisterResponseMessage.serialize (m : RegisterResponseMessage α) : List α :=
  line "type=" (lit "REGISTER_RESPONSE") ++
  (line "success=" (lit (boolToWireString m.success)) ++
  (line "username=" m.username ++
  (lit "error_message=" ++ m.errorMessage)))

/-- `Message::serialize`. -/
def Message.serialize (localtime : Int → Tm) : Message α → List α
  | .orderSubmit m => m.serialize
  | .orderCancel m => m.serialize
  | .orderStatus m => m.serialize localtime
  | .orderbookSnapshot m => m.serialize
  | .tradeNotification m => m.serialize localtime
  | .error m => m.serialize
  | .snapshotRequest m => m.serialize
  | .login m => m.serialize
  | .loginResponse m => m.serialize
  | .register m => m.serialize
  | .registerResponse m => m.serialize

/-! ## Values of lines -/

variable [DecidableEq α]

def extractString (l : List α) : List α := afterEquals l

def extractDouble (l : List α) : ℚ := readDecimal (extractString l)

def extractUInt32 (l : List α) : UInt32 := readUInt32 (extractString l)

def extractInt (l : List α) : Int := readInt32 (extractString l)

def extractSide (l : List α) : OrderSide :=
  let value := extractString l
  if value = lit "BUY" then .buy
  else if value = lit "SELL" then .sell
  else .buy

def extractStatus (l : List α) : OrderStatus :=
  let value := extractString l
  if value = lit "PENDING" then .pending
  else if value = lit "PARTIAL" then .partialFill
  else if value = lit "FILLED" then .filled
  else if value = lit "CANCELED" then .canceled
  else if value = lit "REJECTED" then .rejected
  else .pending

def extractType (l : List α) : OrderType :=
  let value := extractString l
  if value = lit "MARKET" then .market
  else if value = lit "STOP" then .stop
  else if value = lit "STOP_LIMIT" then .stopLimit
  else .limit

/-! ## Parsing

Each class reads the lines after the first, one by one, into a message whose fields are zero, empty
or their default: `make_shared` value-initializes. Lines with other keys are ignored. -/

def OrderSubmitMessage.readLine (m : OrderSubmitMessage α) (l : List α) : OrderSubmitMessage α :=
  if startsWith "client_id=" l then { m with clientId := extractString l }
  else if startsWith "symbol=" l then { m with symbol := extractString l }
  else if startsWith "side=" l then { m with side := extractSide l }
  else if startsWith "order_type=" l then { m with orderType := extractType l }
  else if startsWith "price=" l then { m with price := extractDouble l }
  else if startsWith "quantity=" l then { m with quantity := extractUInt32 l }
  else if startsWith "stop_price=" l then { m with stopPrice := extractDouble l }
  else m

def OrderCancelMessage.readLine (m : OrderCancelMessage α) (l : List α) : OrderCancelMessage α :=
  if startsWith "order_id=" l then { m with orderId := extractString l }
  else if startsWith "client_id=" l then { m with clientId := extractString l }
  else m

def OrderStatusMessage.readLine (stringToTimePoint : List α → Int) (m : OrderStatusMessage α) (l : List α) : OrderStatusMessage α :=
  if startsWith "order_id=" l then { m with orderId := extractString l }
  else if startsWith "client_id=" l then { m with clientId := extractString l }
  else if startsWith "symbol=" l then { m with symbol := extractString l }
  else if startsWith "side=" l then { m with side := extractSide l }
  else if startsWith "price=" l then { m with price := extractDouble l }
  else if startsWith "quantity=" l then { m with quantity := extractUInt32 l }
  else if startsWith "filled_quantity=" l then { m with filledQuantity := extractUInt32 l }
  else if startsWith "status=" l then { m with status := extractStatus l }
  else if startsWith "order_type=" l then { m with orderType := extractType l }
  else if startsWith "stop_price=" l then { m with stopPrice := extractDouble l }
  else if startsWith "timestamp=" l then { m with orderTimestamp := stringToTimePoint (extractString l) }
  else m

/-- The state of the snapshot loop: `in_bids`, `in_asks` and `current_level`. -/
structure SnapshotState (α : Type) where
  message : OrderbookSnapshotMessage α
  inBids : Bool
  inAsks : Bool
  currentLevel : PriceLevel

/-- A line of a level; `order_count` is its last. -/
def SnapshotState.readLevel (s : SnapshotState α) (l : List α) : SnapshotState α :=
  if startsWith "price=" l then { s with currentLevel.price := extractDouble l }
  else if startsWith "quantity=" l then { s with currentLevel.quantity := extractUInt32 l }
  else if startsWith "order_count=" l then
    let level := { s.currentLevel with orderCount := extractInt l }
    if s.inBids then { s with message.bids := s.message.bids ++ [level], currentLevel := ⟨0, 0, 0⟩ }
    else { s with message.asks := s.message.asks ++ [level], currentLevel := ⟨0, 0, 0⟩ }
  else s

def SnapshotState.readLine (s : SnapshotState α) (l : List α) : SnapshotState α :=
  if startsWith "symbol=" l then { s with message.symbol := extractString l }
  else if l = lit "BIDS:" then { s with inBids := true, inAsks := false }
  else if l = lit "ASKS:" then { s with inBids := false, inAsks := true }
  else if s.inBids || s.inAsks then s.readLevel l
  else s

def TradeNotificationMessage.readLine (stringToTimePoint : List α → Int) (m : TradeNotificationMessage α) (l : List α) :
    TradeNotificationMessage α :=
  if startsWith "buy_order_id=" l then { m with buyOrderId := extractString l }
  else if startsWith "sell_order_id=" l then { m with sellOrderId := extractString l }
  else if startsWith "symbol=" l then { m with symbol := extractString l }
  else if startsWith "price=" l then { m with price := extractDouble l }
  else if startsWith "quantity=" l then { m with quantity := extractUInt32 l }
  else if startsWith "timestamp=" l then { m with tradeTimestamp := stringToTimePoint (extractString l) }
  else m

def ErrorMessage.readLine (m : ErrorMessage α) (l : List α) : ErrorMessage α :=
  if startsWith "error_code=" l then { m with errorCode := extractString l }
  else if startsWith "description=" l then { m with description := extractString l }
  else m

def SnapshotRequestMessage.readLine (m : SnapshotRequestMessage α) (l : List α) : SnapshotRequestMessage α :=
  if startsWith "symbol=" l then { m with symbol := extractString l } else m

def LoginMessage.readLine (m : LoginMessage α) (l : List α) : LoginMessage α :=
  if startsWith "username=" l then { m with username := extractString l }
  else if startsWith "password=" l then { m with password := extractString l }
  else m

def LoginResponseMessage.readLine (m : LoginResponseMessage α) (l : List α) : LoginResponseMessage α :=
  if startsWith "success=" l then { m with success := extractString l = lit "true" }
  else if startsWith "session_token=" l then { m with sessionToken := extractString l }
  else if startsWith "username=" l then { m with username := extractString l }
  else if startsWith "error_message=" l then { m with errorMessage := extractString l }
  else m

def RegisterMessage.readLine (m : RegisterMessage α) (l : List α) : RegisterMessage α :=
  if startsWith "username=" l then { m with username := extractString l }
  else if startsWith "password=" l then { m with password := extractString l }
  else m

def RegisterResponseMessage.readLine (m : RegisterResponseMessage α) (l : List α) : RegisterResponseMessage α :=
  if startsWith "success=" l then { m with success := extractString l = lit "true" }
  else if startsWith "username=" l then { m with username := extractString l }
  else if startsWith "error_message=" l then { m with errorMessage := extractString l }
  else m

/-- The message of a type name and the lines after it. -/
def parseBody (stringToTimePoint : List α → Int) (messageType : List α) (rest : List (List α)) : Message α :=
  if messageType = lit "ORDER_SUBMIT" then
    .orderSubmit (rest.foldl OrderSubmitMessage.readLine ⟨[], [], .buy, .limit, 0, 0, 0⟩)
  else if messageType = lit "ORDER_CANCEL" then .orderCancel (rest.foldl OrderCancelMessage.readLine ⟨[], []⟩)
  else if messageType = lit "ORDER_STATUS" then
    .orderStatus (rest.foldl (OrderStatusMessage.readLine stringToTimePoint) ⟨[], [], [], .buy, .limit, 0, 0, 0, 0, .pending, 0⟩)
  else if messageType = lit "ORDERBOOK_SNAPSHOT" then
    .orderbookSnapshot (rest.foldl SnapshotState.readLine ⟨⟨[], [], []⟩, false, false, ⟨0, 0, 0⟩⟩).message
  else if messageType = lit "TRADE_NOTIFICATION" then
    .tradeNotification (rest.foldl (TradeNotificationMessage.readLine stringToTimePoint) ⟨[], [], [], 0, 0, 0⟩)
  else if messageType = lit "ERROR" then .error (rest.foldl ErrorMessage.readLine ⟨[], []⟩)
  else if messageType = lit "SNAPSHOT_REQUEST" then .snapshotRequest (rest.foldl SnapshotRequestMessage.readLine ⟨[]⟩)
  else if messageType = lit "LOGIN" then .login (rest.foldl LoginMessage.readLine ⟨[], []⟩)
  else if messageType = lit "LOGIN_RESPONSE" then
    .loginResponse (rest.foldl LoginResponseMessage.readLine ⟨false, [], [], []⟩)
  else if messageType = lit "REGISTER" then .register (rest.foldl RegisterMessage.readLine ⟨[], []⟩)
  else if messageType = lit "REGISTER_RESPONSE" then
    .registerResponse (rest.foldl RegisterResponseMessage.readLine ⟨false, [], []⟩)
  else .error ⟨lit "PARSE_ERROR", lit "Unknown message type: " ++ messageType⟩

def parseMessage (stringToTimePoint : List α → Int) (data : List α) : Message α :=
  match lines data with
  | [] => .error ⟨lit "PARSE_ERROR", lit "Empty message"⟩
  | first :: rest => parseBody stringToTimePoint (extractString first) rest

end OrderbookGC.Wire
