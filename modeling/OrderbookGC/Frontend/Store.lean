/-
The browser: the store of `orderbookStore.ts` and the handlers of `useWebSocket.ts` that fill it. A message has the fields
that TypeScript declares for its type; a field that `handleMessage` has a default for may be missing. A price is an exact
number, where JavaScript has a double. The handlers of one connection stand for those of all: the next connection has the
same, and neither the store nor the counter of the notifications starts again.
-/
import OrderbookGC.Container.InsertionMap
import OrderbookGC.Frontend.Candles

namespace OrderbookGC.Frontend

open Container

/-! ## The store -/

structure PriceLevel where
  price : ℚ
  quantity : Int
  orderCount : Int
deriving DecidableEq

structure Trade where
  buyOrderId : String
  sellOrderId : String
  symbol : String
  price : ℚ
  quantity : Int
  timestamp : String
  receivedAt : Int
deriving DecidableEq

structure OrderInfo where
  orderId : String
  clientId : String
  symbol : String
  side : String
  orderType : String
  price : ℚ
  stopPrice : ℚ
  quantity : Int
  filledQuantity : Int
  status : String
  timestamp : String
deriving DecidableEq

inductive NotificationType
  | success
  | error
  | info
deriving DecidableEq

structure Notification where
  id : String
  message : String
  type : NotificationType
  time : Int
deriving DecidableEq

structure OrderbookState where
  isAuthenticated : Bool
  username : String
  sessionToken : String
  authError : String
  connected : Bool
  bids : List PriceLevel
  asks : List PriceLevel
  trades : List Trade
  priceHistory : List PricePoint
  orders : InsertionMap String OrderInfo
  notifications : List Notification

def maxTrades : Nat := 100

def maxPriceHistory : Nat := 2000

def maxNotifications : Nat := 50

namespace OrderbookState

def initial : OrderbookState := ⟨false, "", "", "", false, [], [], [], [], .empty, []⟩

def setAuth (success : Bool) (username token error : String) (state : OrderbookState) : OrderbookState :=
  { state with
    isAuthenticated := success
    username := if success then username else ""
    sessionToken := if success then token else ""
    authError := error }

def logout (state : OrderbookState) : OrderbookState :=
  { state with isAuthenticated := false, username := "", sessionToken := "", authError := "" }

def setConnected (v : Bool) (state : OrderbookState) : OrderbookState := { state with connected := v }

def setSnapshot (bids asks : List PriceLevel) (state : OrderbookState) : OrderbookState :=
  { state with bids := bids, asks := asks }

def addTrade (t : Trade) (state : OrderbookState) : OrderbookState :=
  { state with
    trades := (t :: state.trades).take maxTrades
    priceHistory := List.rtake (state.priceHistory ++ [⟨t.price, t.quantity, t.receivedAt⟩]) maxPriceHistory }

def updateOrder (o : OrderInfo) (state : OrderbookState) : OrderbookState :=
  { state with orders := state.orders.set o.orderId o }

def addNotification (n : Notification) (state : OrderbookState) : OrderbookState :=
  { state with notifications := (n :: state.notifications).take maxNotifications }

def removeNotification (id : String) (state : OrderbookState) : OrderbookState :=
  { state with notifications := state.notifications.filter (·.id ≠ id) }

end OrderbookState

/-! ## Messages -/

/-- `msg.success`, which the bridge sends as a boolean. -/
inductive Flag
  | bool (b : Bool)
  | str (s : String)
deriving DecidableEq

/-- `msg.success === true || msg.success === 'true'`. -/
def isSuccess (flag : Option Flag) : Bool := flag = some (.bool true) || flag = some (.str "true")

inductive Message
  | orderbookSnapshot (bids asks : Option (List PriceLevel))
  | tradeNotification (buyOrderId sellOrderId symbol : String) (price : ℚ) (quantity : Int) (timestamp : String)
      (notify : Option Bool)
  | orderStatus (orderId clientId symbol side : String) (orderType : Option String) (price : ℚ) (stopPrice : Option ℚ)
      (quantity filledQuantity : Int) (status timestamp : String)
  | error (description errorMessage : Option String)
  | pnlUpdate
  | loginResponse (success : Option Flag) (username sessionToken errorMessage : Option String)
  | registerResponse (success : Option Flag) (username errorMessage : Option String)
  | other
deriving DecidableEq

/-- What `Date.now()` returns in a handler: for a trade, for the id of a notification and for its time. -/
structure Clock where
  received : Int
  id : Int
  time : Int

/-- `x.toFixed(2)`: the nearest two decimals, the higher of two that are as near. -/
def toFixed2 (x : ℚ) : String :=
  let n := (|x| * 100 + 1 / 2).floor.toNat
  (if x < 0 then "-" else "") ++ toString (n / 100) ++ "." ++ padStart2 (n % 100)

def statusLabel (status : String) : String :=
  if status = "FILLED" then "filled"
  else if status = "CANCELED" then "canceled"
  else if status = "PARTIAL" then "partially filled"
  else "accepted"

/-! ## The hook -/

/-- The page: its store, the counter of its notifications, and how often it has asked the bridge for all snapshots. -/
structure Page where
  store : OrderbookState
  idCounter : Nat
  snapshotRequests : Nat

namespace Page

def loaded : Page := ⟨.initial, 0, 0⟩

def update (page : Page) (f : OrderbookState → OrderbookState) : Page := { page with store := f page.store }

/-- `nextId` after a reading of the clock. -/
def nextId (now : Int) (idCounter : Nat) : String := "n-" ++ toString now ++ "-" ++ toString idCounter

def notify (page : Page) (clock : Clock) (message : String) (type : NotificationType) : Page :=
  { page with
    store := page.store.addNotification ⟨nextId clock.id page.idCounter, message, type, clock.time⟩
    idCounter := page.idCounter + 1 }

/-- `ws.onopen`. -/
def onOpen (page : Page) (clock : Clock) : Page :=
  (page.update (.setConnected true)).notify clock "Connected to server" .success

/-- `ws.onclose`; it also schedules the next connection. -/
def onClose (page : Page) (clock : Clock) : Page :=
  (page.update (.setConnected false)).notify clock "Disconnected — reconnecting…" .error

def handleMessage (page : Page) (clock : Clock) : Message → Page
  | .orderbookSnapshot bids asks => page.update (.setSnapshot (bids.getD []) (asks.getD []))
  | .tradeNotification buyOrderId sellOrderId symbol price quantity timestamp notify =>
    let page := page.update (.addTrade ⟨buyOrderId, sellOrderId, symbol, price, quantity, timestamp, clock.received⟩)
    if notify ≠ some false then page.notify clock ("Trade: " ++ toString quantity ++ "@" ++ toFixed2 price) .info else page
  | .orderStatus orderId clientId symbol side orderType price stopPrice quantity filledQuantity status timestamp =>
    let page := page.update (.updateOrder ⟨orderId, clientId, symbol, side, orderType.getD "LIMIT", price, stopPrice.getD 0,
      quantity, filledQuantity, status, timestamp⟩)
    page.notify clock ("Order " ++ String.ofList (orderId.toList.take 8) ++ "… " ++ statusLabel status)
      (if status = "CANCELED" then .error else .success)
  | .error description errorMessage =>
    page.notify clock ("Error: " ++ (description <|> errorMessage).getD "unknown") .error
  | .pnlUpdate => page
  | .loginResponse success username sessionToken errorMessage =>
    let error := errorMessage.getD ""
    let page := page.update (.setAuth (isSuccess success) (username.getD "") (sessionToken.getD "") error)
    let page := page.notify clock
      (if isSuccess success then "Logged in as " ++ username.getD ""
        else "Login failed: " ++ if error = "" then "unknown" else error)
      (if isSuccess success then .success else .error)
    if isSuccess success then { page with snapshotRequests := page.snapshotRequests + 1 } else page
  | .registerResponse success username errorMessage =>
    let error := errorMessage.getD ""
    page.notify clock
      (if isSuccess success then "Registered as " ++ username.getD "undefined" ++ ". You can now log in."
        else "Registration failed: " ++ if error = "" then "unknown" else error)
      (if isSuccess success then .success else .error)
  | .other => page

/-- What happens to a page: its connection opens and closes, a message comes, a notification has been shown for five
seconds, the user logs out. -/
inductive Event
  | opened
  | closed
  | message (msg : Message)
  | dismiss (id : String)
  | logout

def step (page : Page) : Clock × Event → Page
  | (clock, .opened) => page.onOpen clock
  | (clock, .closed) => page.onClose clock
  | (clock, .message msg) => page.handleMessage clock msg
  | (_, .dismiss id) => page.update (.removeNotification id)
  | (_, .logout) => page.update .logout

def run (events : List (Clock × Event)) : Page := events.foldl step loaded

end Page

end OrderbookGC.Frontend
