/-
The server of `server.cpp` with its sessions, its order generator and its store, as a state machine.
An event is what the io thread, the generator thread or the operator does at one time; what the
random generator draws, the clock, and which writes of the store succeed come with each event. A
restart is a new process on the same database: `main` creates the configured books, restores the
active orders and configures the generator.

Messages are values: framing and text are not part of this model, and neither are the counters and
the output streams. `sent`, `uuids`, `submissions` and `trades` are specification only: the messages
passed to `Session::sendMessage`, the ids `generateUuid` has returned, the orders clients have
submitted and the trades the books have reported, over the whole history.
-/
import OrderbookGC.Book.Quotes
import OrderbookGC.Server.Store

namespace OrderbookGC

open Container

/-! ## Messages -/

structure OrderSubmitMessage where
  clientId : String
  symbol : String
  side : OrderSide
  orderType : OrderType
  price : ℚ
  stopPrice : ℚ
  quantity : UInt32
deriving DecidableEq

structure OrderStatusMessage where
  orderId : String
  clientId : String
  symbol : String
  side : OrderSide
  orderType : OrderType
  price : ℚ
  stopPrice : ℚ
  quantity : UInt32
  filledQuantity : UInt32
  status : OrderStatus
  orderTimestamp : Int
deriving DecidableEq

/-- The status message about an order, as every handler builds it. -/
def Order.statusMessage (o : Order ℚ) : OrderStatusMessage :=
  { orderId := o.id, clientId := o.clientId, symbol := o.symbol, side := o.side, orderType := o.orderType
    price := o.price, stopPrice := o.stopPrice, quantity := o.quantity
    filledQuantity := o.quantity - o.remainingQuantity, status := o.status, orderTimestamp := o.timestamp }

/-- A received message; `other` is one of the classes only the server sends. -/
inductive Request
  | login (username password : String)
  | register (username password : String)
  | snapshotRequest (symbol : String)
  | orderSubmit (m : OrderSubmitMessage)
  | orderCancel (orderId clientId : String)
  | orderStatus (orderId clientId : String)
  | other
deriving DecidableEq

inductive Response
  | orderStatus (m : OrderStatusMessage)
  | orderbookSnapshot (symbol : String) (bids asks : List PriceLevel)
  | tradeNotification (t : Trade ℚ)
  | error (errorCode description : String)
  | loginResponse (success : Bool) (sessionToken username errorMessage : String)
  | registerResponse (success : Bool) (username errorMessage : String)
deriving DecidableEq

/-! ## Sessions -/

/-- The address of a session object. -/
abbrev SessionPtr := Nat

structure Session where
  clientId : String
  authenticated : Bool
  username : String
  sessionToken : String
  permissions : String
  /-- `disconnect_callback_` has not fired yet. -/
  connected : Bool
deriving DecidableEq

def Session.new (clientId : String) : Session := ⟨clientId, false, "", "", "", true⟩

/-- `permissions_.find(perm) != npos`. -/
def Session.hasPermission (s : Session) (perm : String) : Bool := perm.toList <:+: s.permissions.toList

/-! ## The order generator -/

structure Generator where
  symbol : String
  tickSize : ℚ
  maxTracked : Nat
  lastPrice : ℚ
  tracked : List String

/-- What `generateOrder` draws; the distributions are not modelled. -/
structure GeneratorDraws where
  price : ℚ
  quantity : UInt32
  side : OrderSide

namespace Generator

/-- The drawn price, positive and on the tick. -/
def orderPrice (g : Generator) (draw : ℚ) : ℚ :=
  let price := if draw ≤ 0 then g.tickSize else draw
  let rounded := llround (price / g.tickSize) * g.tickSize
  if rounded ≤ 0 then g.tickSize else rounded

def generateOrder (g : Generator) (d : GeneratorDraws) (id : String) (now : Int) : Order ℚ :=
  .new id d.side (g.orderPrice d.price) d.quantity g.symbol "AUTO_GEN" .limit 0 now

def updateLastPrice (g : Generator) (price : ℚ) : Generator := { g with lastPrice := price }

/-- `tracked_order_ids_`, bounded by dropping from its front. -/
def track (g : Generator) (id : String) : Generator :=
  { g with tracked := (g.tracked ++ [id]).drop ((g.tracked ++ [id]).length - g.maxTracked) }

end Generator

/-! ## The server -/

/-- What `main` sets the server up with. The symbols are arguments of the program, so they hold no NUL. -/
structure Config where
  symbols : List String
  authRequired : Bool
  generator : Bool
  free : ∀ symbol ∈ symbols, '\x00' ∉ symbol.toList

/-- An order submitted by a client, with the tick size of the book at that moment. -/
structure Submission where
  orderId : String
  session : SessionPtr
  message : OrderSubmitMessage
  tickSize : ℚ

structure Server where
  config : Config
  orderbooks : SortedMap String (OrderBook ℚ)
  /-- The session objects; those of the current process lie between `firstSession` and `nextSession`. -/
  sessionAt : SessionPtr → Session
  firstSession : SessionPtr
  nextSession : SessionPtr
  sessions : SortedMap String SessionPtr
  subscriptions : SortedMap String (SortedMap String Unit)
  orderOwners : SortedMap String String
  generator : Option Generator
  /-- The generator's orders posted to the io thread and not handled yet. -/
  posted : List (Order ℚ)
  /-- `order_store_` is set. -/
  storeOpen : Bool
  disk : Db
  /-- The writes attempted so far. -/
  writes : Nat
  sent : List (SessionPtr × Response)
  uuids : List String
  submissions : List Submission
  trades : List (Trade ℚ)

/-- What an event takes from outside the program. -/
structure Env where
  uuid : UuidDraws
  now : Int
  salts : Nat → SaltDraws
  /-- The outcome of the `n`th write of the history. -/
  writeOk : Nat → Bool
  /-- The outcome of opening the database, first in `main` and then in `start`. -/
  opens : Bool × Bool

namespace Server

/-- Before the first process: nothing but an empty database. -/
def initial (config : Config) : Server :=
  { config, orderbooks := .empty, sessionAt := fun _ => .new "", firstSession := 0, nextSession := 0, sessions := .empty
    subscriptions := .empty, orderOwners := .empty, generator := none, posted := [], storeOpen := false, disk := .empty
    writes := 0, sent := [], uuids := [], submissions := [], trades := [] }

def clientId (sv : Server) (s : SessionPtr) : String := (sv.sessionAt s).clientId

def sendMessage (sv : Server) (s : SessionPtr) (r : Response) : Server := { sv with sent := sv.sent ++ [(s, r)] }

def setSession (sv : Server) (s : SessionPtr) (x : Session) : Server :=
  { sv with sessionAt := Function.update sv.sessionAt s x }

def setBook (sv : Server) (symbol : String) (b : OrderBook ℚ) : Server :=
  { sv with orderbooks := sv.orderbooks.insert symbol b }

def logUuid (sv : Server) (id : String) : Server := { sv with uuids := sv.uuids ++ [id] }

/-- A statement that writes to the store, when it is open. -/
def write (sv : Server) (env : Env) (stmt : Bool → Db → Bool × Db) : Bool × Server :=
  if sv.storeOpen then
    let (ok, disk) := stmt (env.writeOk sv.writes) sv.disk
    (ok, { sv with disk, writes := sv.writes + 1 })
  else (false, sv)

/-! ## Books -/

def getOrderbook (sv : Server) (symbol : String) : Option (OrderBook ℚ) := sv.orderbooks.find? symbol

def createOrderbook (sv : Server) (symbol : String) (tickSize : ℚ) : Bool × Server :=
  if (sv.orderbooks.find? symbol).isSome then (false, sv) else (true, sv.setBook symbol (.new symbol tickSize))

/-- The tick size of `createOrderbook(symbol)`. -/
def defaultTickSize : ℚ := 1 / 10

def setOrderbookTickSize (sv : Server) (symbol : String) (tickSize : ℚ) : Bool × Server :=
  if tickSize ≤ 0 then (false, sv)
  else
    match sv.orderbooks.find? symbol with
    | none => (false, sv)
    | some b => (true, sv.setBook symbol (b.setTickSize tickSize))

/-! ## Callbacks of the books -/

/-- The sessions subscribed to a symbol, in the order of their client ids. -/
def subscribers (sv : Server) (symbol : String) : List SessionPtr :=
  sv.subscriptions.entries.filterMap fun e => if (e.2.find? symbol).isSome then sv.sessions.find? e.1 else none

def broadcast (sv : Server) (symbol : String) (r : Response) : Server :=
  (sv.subscribers symbol).foldl (fun sv s => sv.sendMessage s r) sv

def onTradeExecuted (env : Env) (sv : Server) (t : Trade ℚ) : Server :=
  let sv := { sv with generator := sv.generator.map (Generator.updateLastPrice · t.price), trades := sv.trades ++ [t] }
  let sv := (sv.write env (Db.saveTrade · t env.now)).2
  sv.broadcast t.symbol (.tradeNotification t)

def onOrderUpdated (env : Env) (sv : Server) (o : Order ℚ) : Server :=
  let sv := (sv.write env (Db.updateOrder · o)).2
  match sv.orderOwners.find? o.id with
  | none => sv
  | some clientId =>
    -- finished orders leave the ownership map
    let sv := { sv with orderOwners :=
      if o.status = .filled || o.status = .canceled then sv.orderOwners.erase o.id else sv.orderOwners }
    if clientId.isEmpty then sv
    else
      match sv.sessions.find? clientId with
      | none => sv
      | some s => sv.sendMessage s (.orderStatus o.statusMessage)

/-- The callbacks of one call, in order; they see the objects as the call left them. -/
def dispatch (env : Env) (heap : OrderPtr → Order ℚ) (callbacks : List (Callback ℚ)) (sv : Server) : Server :=
  callbacks.foldl (fun sv c =>
    match c with
    | .trade t => onTradeExecuted env sv t
    | .order p => onOrderUpdated env sv (heap p)) sv

/-- `orderbook->addOrder(order)` on the book of the order's symbol: the order as the call leaves it. -/
def addOrder (sv : Server) (env : Env) (b : OrderBook ℚ) (o : Order ℚ) : Option (Order ℚ × Server) :=
  let (p, b) := b.alloc o
  (OrderBook.addOrder (some p) b).map fun out =>
    (out.state.heap p, dispatch env out.state.heap out.callbacks (sv.setBook o.symbol out.state.toOrderBook))

/-- `orderbook->cancelOrder(order_id)`. -/
def cancelOrder (sv : Server) (env : Env) (symbol : String) (b : OrderBook ℚ) (orderId : String) : Bool × Server :=
  let (ok, b, callbacks) := b.cancelOrder orderId
  (ok, dispatch env b.heap callbacks (sv.setBook symbol b))

/-! ## Handlers -/

def subscribe (sv : Server) (s : SessionPtr) (symbol : String) : Server :=
  let symbols := (sv.subscriptions.find? (sv.clientId s)).getD .empty
  { sv with subscriptions := sv.subscriptions.insert (sv.clientId s) (symbols.insert symbol ()) }

def requireAuth (sv : Server) (s : SessionPtr) (permission : String) : Bool × Server :=
  let session := sv.sessionAt s
  if !sv.config.authRequired then
    if session.authenticated then (true, sv)
    else (true, sv.setSession s { session with authenticated := true, permissions := "trade,view,admin", username := "auto" })
  else if !session.authenticated then
    (false, sv.sendMessage s (.error "AUTH_REQUIRED" "Login required before this operation"))
  else if !session.hasPermission permission then
    (false, sv.sendMessage s (.error "PERMISSION_DENIED" ("Missing permission: " ++ permission)))
  else (true, sv)

/-- The order `handleOrderSubmit` creates; 0 is the sentinel price of market orders. -/
def submittedOrder (env : Env) (m : OrderSubmitMessage) (tickSize : ℚ) : Order ℚ :=
  let orderPrice := if m.orderType = .market || m.orderType = .stop then 0 else adjustPrice tickSize m.price
  .new (generateUuid env.uuid) m.side orderPrice m.quantity m.symbol m.clientId m.orderType m.stopPrice env.now

/-- The submission as it is logged and persisted. -/
def saveSubmission (sv : Server) (env : Env) (x : Submission) (o : Order ℚ) : Server :=
  let sv := { sv.logUuid x.orderId with submissions := sv.submissions ++ [x] }
  (sv.write env (Db.saveOrder · o env.now)).2

/-- The owner is recorded and the order reported, once the book has handled it. -/
def acknowledge (sv : Server) (s : SessionPtr) (o : Order ℚ) : Server :=
  let sv := { sv with orderOwners := sv.orderOwners.insert o.id (sv.clientId s) }
  sv.sendMessage s (.orderStatus o.statusMessage)

def handleOrderSubmit (sv : Server) (env : Env) (m : OrderSubmitMessage) (s : SessionPtr) : Option Server :=
  match sv.getOrderbook m.symbol with
  | none => some (sv.sendMessage s (.error "INVALID_SYMBOL" ("Orderbook not found for symbol: " ++ m.symbol)))
  | some b =>
    let order := submittedOrder env m b.tickSize
    let sv := (sv.subscribe s m.symbol).saveSubmission env ⟨order.id, s, m, b.tickSize⟩ order
    (sv.addOrder env b order).map fun r => r.2.acknowledge s r.1

/-- The loop of `handleOrderCancel` over the books, up to the first that cancels the order. -/
def cancelLoop (env : Env) (orderId : String) : List (String × OrderBook ℚ) → Server → Bool × Server
  | [], sv => (false, sv)
  | (symbol, b) :: rest, sv =>
    let (ok, sv) := sv.cancelOrder env symbol b orderId
    if ok then (true, sv) else cancelLoop env orderId rest sv

/-- The recorded owner of an order is the session's client, whatever client id the message carries. -/
def owns (sv : Server) (s : SessionPtr) (orderId : String) : Bool := sv.orderOwners.find? orderId = some (sv.clientId s)

def handleOrderCancel (sv : Server) (env : Env) (orderId : String) (s : SessionPtr) : Server :=
  if sv.owns s orderId then
    let (ok, sv) := cancelLoop env orderId sv.orderbooks.entries sv
    if ok then sv else sv.sendMessage s (.error "INVALID_ORDER" "Order not found for cancellation")
  else sv.sendMessage s (.error "INVALID_ORDER" "Cannot cancel order: not found or not owned by this client")

/-- The snapshot message of a book: ten levels a side. -/
def snapshotMessage (symbol : String) (b : OrderBook ℚ) : Response :=
  .orderbookSnapshot symbol (b.getBidLevels 10) (b.getAskLevels 10)

def handleSnapshotRequest (sv : Server) (symbol : String) (s : SessionPtr) : Server :=
  let sv := sv.subscribe s symbol
  let (ok, sv) := if (sv.getOrderbook symbol).isSome then (true, sv) else sv.createOrderbook symbol defaultTickSize
  if !ok then
    sv.sendMessage s (.error "ORDERBOOK_CREATION_FAILED" ("Failed to create orderbook for symbol: " ++ symbol))
  else
    match sv.getOrderbook symbol with
    | none => sv
    | some b => sv.sendMessage s (snapshotMessage symbol b)

def handleOrderStatus (sv : Server) (orderId : String) (s : SessionPtr) : Server :=
  if sv.owns s orderId then
    match sv.orderbooks.entries.findSome? fun e => (e.2.getOrder orderId).map e.2.heap with
    | none => sv.sendMessage s (.error "INVALID_ORDER" "Order not found for status request")
    | some o => sv.sendMessage s (.orderStatus o.statusMessage)
  else sv.sendMessage s (.error "INVALID_ORDER" "Cannot get order status: not found or not owned by this client")

/-- The accepted login: the session's fields and a new token. -/
def login (sv : Server) (env : Env) (username permissions : String) (s : SessionPtr) : Server :=
  let token := generateUuid env.uuid
  let sv := sv.logUuid token
  let sv := sv.setSession s
    { sv.sessionAt s with authenticated := true, username, sessionToken := token, permissions }
  sv.sendMessage s (.loginResponse true token username "")

def handleLogin (sv : Server) (env : Env) (username password : String) (s : SessionPtr) : Server :=
  if !sv.storeOpen then sv.login env username "trade,view" s
  else if username = "guest" || sv.disk.authenticateUser username password then
    match sv.disk.getUser username with
    | some user => sv.login env username user.permissions s
    | none => sv.login env username "trade,view" s
  else sv.sendMessage s (.loginResponse false "" username "Invalid credentials")

def handleRegister (sv : Server) (env : Env) (username password : String) (s : SessionPtr) : Server :=
  let refuse (text : String) (sv : Server) := sv.sendMessage s (.registerResponse false username text)
  if username.isEmpty then refuse "Username cannot be empty" sv
  else if password.isEmpty then refuse "Password cannot be empty" sv
  else if 64 < username.utf8ByteSize || 128 < password.utf8ByteSize then refuse "Username or password too long" sv
  else if !sv.storeOpen then refuse "Registration unavailable (no persistence)" sv
  else if (sv.disk.getUser username).isSome then refuse "Username already taken" sv
  else
    let (ok, sv) := sv.write env (Db.saveUser · ⟨username, password, "trade,view"⟩ (env.salts 0))
    if ok then sv.sendMessage s (.registerResponse true username "") else refuse "Failed to create account" sv

def handleMessage (sv : Server) (env : Env) (m : Request) (s : SessionPtr) : Option Server :=
  match m with
  | .login username password => some (sv.handleLogin env username password s)
  | .register username password => some (sv.handleRegister env username password s)
  | .snapshotRequest symbol =>
    let (ok, sv) := sv.requireAuth s "view"
    if ok then some (sv.handleSnapshotRequest symbol s) else some sv
  | .orderSubmit m =>
    let (ok, sv) := sv.requireAuth s "trade"
    if ok then sv.handleOrderSubmit env m s else some sv
  | .orderCancel orderId _ =>
    let (ok, sv) := sv.requireAuth s "trade"
    if ok then some (sv.handleOrderCancel env orderId s) else some sv
  | .orderStatus orderId _ =>
    let (ok, sv) := sv.requireAuth s "view"
    if ok then some (sv.handleOrderStatus orderId s) else some sv
  | .other => some (sv.sendMessage s (.error "UNKNOWN_MESSAGE" "Unknown message type"))

/-! ## Connections -/

/-- An accepted connection: a session with a new client id. -/
def acceptConnection (sv : Server) (env : Env) : Server :=
  let clientId := generateUuid env.uuid
  let sv := sv.logUuid clientId
  { sv with sessionAt := Function.update sv.sessionAt sv.nextSession (.new clientId)
            sessions := sv.sessions.insert clientId sv.nextSession
            nextSession := sv.nextSession + 1 }

def removeSession (sv : Server) (s : SessionPtr) : Server :=
  { sv with sessions := sv.sessions.erase (sv.clientId s)
            subscriptions := sv.subscriptions.erase (sv.clientId s)
            orderOwners := sv.orderOwners.filterMapVals fun c => if c = sv.clientId s then none else some c }

/-- `Session::close`: the disconnect callback fires once. -/
def close (sv : Server) (s : SessionPtr) : Server :=
  if (sv.sessionAt s).connected then (sv.setSession s { sv.sessionAt s with connected := false }).removeSession s else sv

def sendOrderbookSnapshots (sv : Server) : Server :=
  sv.orderbooks.entries.foldl (fun sv e => sv.broadcast e.1 (snapshotMessage e.1 e.2)) sv

/-! ## The order generator's two threads of work -/

/-- One round of `generatorLoop` up to the callback, which posts the order to the io thread. -/
def generate (sv : Server) (env : Env) (d : GeneratorDraws) : Server :=
  match sv.generator with
  | none => sv
  | some g =>
    let id := generateUuid env.uuid
    let sv := sv.logUuid id
    { sv with generator := some (g.track id), posted := sv.posted ++ [g.generateOrder d id env.now] }

/-- The io thread handles the oldest posted order. -/
def handlePosted (sv : Server) (env : Env) : Option Server :=
  match sv.posted with
  | [] => some sv
  | o :: rest =>
    let sv := { sv with posted := rest }
    match sv.getOrderbook o.symbol with
    | none => some sv
    | some b => (sv.addOrder env b o).map (·.2)

/-- `tryCancel` with the drawn index. -/
def tryCancel (sv : Server) (env : Env) (i : Nat) : Server :=
  match sv.generator with
  | none => sv
  | some g =>
    match g.tracked[i]? with
    | none => sv
    | some id =>
      let sv := { sv with generator := some { g with tracked := g.tracked.eraseIdx i } }
      match sv.getOrderbook g.symbol with
      | none => sv
      | some b => (sv.cancelOrder env g.symbol b id).2

/-! ## Start of a process -/

def seedDefaultUsers (sv : Server) (env : Env) : Server :=
  if sv.disk.users.isEmpty then
    Db.defaultUsers.zipIdx.foldl (fun sv u => (sv.write env (Db.saveUser · u.1 (env.salts u.2))).2) sv
  else sv

/-- One order of the restore loop. -/
def restore (env : Env) (sv : Server) (o : Order ℚ) : Option Server :=
  match sv.getOrderbook o.symbol with
  | none => some sv
  | some b => (sv.addOrder env b o).map (·.2)

/-- `initPersistence`; nothing happens when the database cannot be opened. -/
def initPersistence (sv : Server) (env : Env) (opens : Bool) : Option Server :=
  if opens then
    let sv := seedDefaultUsers { sv with storeOpen := true } env
    (sv.disk.loadAllActiveOrders env.now).foldlM (restore env) sv
  else some sv

/-- The generator, on the first configured symbol. -/
def configureOrderGenerator (sv : Server) : Server :=
  match sv.config.generator, sv.config.symbols with
  | true, symbol :: _ =>
    match sv.getOrderbook symbol with
    | none => sv
    | some b => { sv with generator := some ⟨symbol, b.tickSize, 500, 100, []⟩ }
  | _, _ => sv

/-- A new process: only the database is left, and what the specification keeps. -/
def newProcess (sv : Server) : Server :=
  { sv with orderbooks := .empty, firstSession := sv.nextSession, sessions := .empty, subscriptions := .empty
            orderOwners := .empty, generator := none, posted := [], storeOpen := false }

/-- The books of `main`, in order. -/
def boot (sv : Server) : Server :=
  sv.config.symbols.foldl (fun sv symbol => (sv.createOrderbook symbol defaultTickSize).2) sv.newProcess

/-- `main` up to the event loop; `start` opens the store if that has not succeeded yet. -/
def restart (sv : Server) (env : Env) : Option Server :=
  (sv.boot.initPersistence env env.opens.1).bind fun sv =>
    let sv := sv.configureOrderGenerator
    if sv.storeOpen then some sv else sv.initPersistence env env.opens.2

/-! ## Events -/

inductive Event
  | connect
  | close (s : SessionPtr)
  | message (s : SessionPtr) (m : Request)
  | snapshotTimer
  | generate (d : GeneratorDraws)
  | posted
  | generatorCancel (i : Nat)
  | createOrderbook (symbol : String) (tickSize : ℚ)
  | setOrderbookTickSize (symbol : String) (tickSize : ℚ)
  | restart

/-- A session object of the running process. -/
def hasSession (sv : Server) (s : SessionPtr) : Bool := sv.firstSession ≤ s && s < sv.nextSession

/-- One event. Events of sessions that do not exist do not happen. -/
def step (sv : Server) (ev : Env × Event) : Option Server :=
  match ev with
  | (env, .connect) => some (sv.acceptConnection env)
  | (_, .close s) => some (if sv.hasSession s then sv.close s else sv)
  | (env, .message s m) => if sv.hasSession s then sv.handleMessage env m s else some sv
  | (_, .snapshotTimer) => some sv.sendOrderbookSnapshots
  | (env, .generate d) => some (sv.generate env d)
  | (env, .posted) => sv.handlePosted env
  | (env, .generatorCancel i) => some (sv.tryCancel env i)
  | (_, .createOrderbook symbol tickSize) => some (sv.createOrderbook symbol tickSize).2
  | (_, .setOrderbookTickSize symbol tickSize) => some (sv.setOrderbookTickSize symbol tickSize).2
  | (env, .restart) => sv.restart env

/-- A history: the first start, on an empty database, and the events after it. -/
def run (config : Config) (env : Env) (evs : List (Env × Event)) : Option Server :=
  ((env, .restart) :: evs).foldlM step (initial config)

end Server

end OrderbookGC
