/-
The server's entry points with the mutexes they take, in the order of the source: `orderbooks_mutex_`,
`sessions_mutex_`, `subscriptions_mutex_`, `order_owners_mutex_`, the mutex of each book and the write mutex of each
session. The callbacks run inside the calls that make them, with whatever the caller still holds. What is done between
the locks is what the functions of `Server` do; beside the server stand the sockets, whose state decides when a session
takes its write mutex.

An `async_write` never runs its handler inside the call that starts it, so the handler is an entry point of its own. A
session object whose last pointer goes away closes once more; it takes no mutex but its own, because its callback, if
it has not fired, needs a pointer to it.
-/
import OrderbookGC.Machine.Lock
import OrderbookGC.Server.Server

namespace OrderbookGC.Locked

open Container Machine.Lock

inductive Mutex
  | orderbooks
  | sessions
  | subscriptions
  | orderOwners
  | book (symbol : String)
  | write (s : SessionPtr)
deriving DecidableEq

/-- The socket and the write queue of a session; of the queue, its length. -/
structure Socket where
  isOpen : Bool
  writing : Bool
  writeMessages : Nat

structure Host where
  server : Server
  sockets : SessionPtr → Socket

abbrev Prog := LockM Mutex Host

def getServer : Prog Server := do return (← state).server

def modifyServer (f : Server → Server) : Prog Unit := change fun h => { h with server := f h.server }

/-- A function of the server that takes no mutex. -/
def call {α : Type} (f : Server → Option (α × Server)) : Prog α :=
  act fun h => (f h.server).map fun r => (r.1, { h with server := r.2 })

def modifySocket (s : SessionPtr) (f : Socket → Socket) : Prog Unit :=
  change fun h => { h with sockets := Function.update h.sockets s (f (h.sockets s)) }

/-! ## Sessions -/

def doWriteNext (s : SessionPtr) : Prog Unit :=
  withLock (.write s) (modifySocket s fun x => { x with writing := x.writing && x.writeMessages != 0 })

def sendMessage (s : SessionPtr) (r : Response) : Prog Unit := do
  modifyServer (·.sendMessage s r)
  let writing ← withLock (.write s) do
    let h ← state
    modifySocket s fun x => { x with writing := true, writeMessages := x.writeMessages + 1 }
    return (h.sockets s).writing
  if writing then return else doWriteNext s

/-- The completion handler of `async_write` without an error. -/
def written (s : SessionPtr) : Prog Unit := do
  let more ← withLock (.write s) do
    let h ← state
    let left := (h.sockets s).writeMessages - 1
    modifySocket s fun x => { x with writing := x.writing && left != 0, writeMessages := left }
    return left != 0
  if more then doWriteNext s else return

def removeSession (s : SessionPtr) : Prog Unit := do
  withLock .sessions (modifyServer fun sv => { sv with sessions := sv.sessions.erase (sv.clientId s) })
  withLock .subscriptions (modifyServer fun sv => { sv with subscriptions := sv.subscriptions.erase (sv.clientId s) })
  withLock .orderOwners (modifyServer fun sv =>
    { sv with orderOwners := sv.orderOwners.filterMapVals fun c => if c = sv.clientId s then none else some c })

/-- The first half of `Session::close`. -/
def closeSocket (s : SessionPtr) : Prog Unit := do
  let h ← state
  if (h.sockets s).isOpen then
    withLock (.write s) (modifySocket s fun x => { x with writing := false })
    modifySocket s fun x => { x with isOpen := false }
  else return

/-- `Session::close`; the disconnect callback is `removeSession`. -/
def close (s : SessionPtr) : Prog Unit := do
  closeSocket s
  if ((← getServer).sessionAt s).connected then
    modifyServer fun sv => sv.setSession s { sv.sessionAt s with connected := false }
    removeSession s
  else return

def acceptConnection (env : Env) : Prog Unit := do
  let clientId := generateUuid env.uuid
  let s := (← getServer).nextSession
  modifyServer fun sv =>
    { sv.logUuid clientId with sessionAt := Function.update sv.sessionAt s (.new clientId), nextSession := s + 1 }
  modifySocket s fun _ => ⟨true, false, 0⟩
  withLock .sessions (modifyServer fun sv => { sv with sessions := sv.sessions.insert clientId s })

/-! ## Books -/

def getOrderbook (symbol : String) : Prog (Option (OrderBook ℚ)) :=
  withLock .orderbooks do return (← getServer).getOrderbook symbol

def createOrderbook (symbol : String) (tickSize : ℚ) : Prog Bool :=
  withLock .orderbooks (call fun sv => some (sv.createOrderbook symbol tickSize))

def setTickSize (symbol : String) (b : OrderBook ℚ) (tickSize : ℚ) : Prog Unit :=
  withLock (.book symbol) (modifyServer (·.setBook symbol (b.setTickSize tickSize)))

def setOrderbookTickSize (symbol : String) (tickSize : ℚ) : Prog Bool :=
  if tickSize ≤ 0 then return false
  else withLock .orderbooks do
    match (← getServer).orderbooks.find? symbol with
    | none => return false
    | some b =>
      setTickSize symbol b tickSize
      return true

/-! ## Callbacks of the books -/

def broadcast (recipients : List SessionPtr) (r : Response) : Prog Unit := recipients.forM (sendMessage · r)

def onTradeExecuted (env : Env) (t : Trade ℚ) : Prog Unit := do
  modifyServer fun sv =>
    { sv with generator := sv.generator.map (Generator.updateLastPrice · t.price), trades := sv.trades ++ [t] }
  modifyServer fun sv => (sv.write env (Db.saveTrade · t env.now)).2
  let recipients ← withLock .subscriptions (withLock .sessions do return (← getServer).subscribers t.symbol)
  broadcast recipients (.tradeNotification t)

/-- The owner of an updated order, and the clean-up of the ownership map. -/
def takeOwner (o : Order ℚ) (sv : Server) : Option String × Server :=
  (sv.orderOwners.find? o.id, { sv with orderOwners :=
    if o.status = .filled || o.status = .canceled then sv.orderOwners.erase o.id else sv.orderOwners })

def onOrderUpdated (env : Env) (o : Order ℚ) : Prog Unit := do
  modifyServer fun sv => (sv.write env (Db.updateOrder · o)).2
  let owner ← withLock .orderOwners (call fun sv => some (takeOwner o sv))
  match owner with
  | none => return
  | some clientId =>
    if clientId.isEmpty then return
    else
      let session ← withLock .sessions do return (← getServer).sessions.find? clientId
      match session with
      | none => return
      | some s => sendMessage s (.orderStatus o.statusMessage)

def dispatch (env : Env) (heap : OrderPtr → Order ℚ) (callbacks : List (Callback ℚ)) : Prog Unit :=
  callbacks.forM fun c =>
    match c with
    | .trade t => onTradeExecuted env t
    | .order p => onOrderUpdated env (heap p)

/-- What `OrderBook::addOrder` does before its callbacks: the order, the objects and the callbacks to fire. -/
def place (b : OrderBook ℚ) (o : Order ℚ) (sv : Server) :
    Option ((Order ℚ × (OrderPtr → Order ℚ) × List (Callback ℚ)) × Server) :=
  let (p, b) := b.alloc o
  (OrderBook.addOrder (some p) b).map fun out =>
    ((out.state.heap p, out.state.heap, out.callbacks), sv.setBook o.symbol out.state.toOrderBook)

/-- An order without quantity is refused before the mutex. -/
def placeOrder (b : OrderBook ℚ) (o : Order ℚ) : Prog (Order ℚ × (OrderPtr → Order ℚ) × List (Callback ℚ)) :=
  if o.remainingQuantity = 0 then call (place b o) else withLock (.book o.symbol) (call (place b o))

def addOrder (env : Env) (b : OrderBook ℚ) (o : Order ℚ) : Prog (Order ℚ) := do
  let (o, heap, callbacks) ← placeOrder b o
  dispatch env heap callbacks
  return o

def cancelOrder (env : Env) (symbol : String) (b : OrderBook ℚ) (orderId : String) : Prog Bool := do
  let (ok, b, callbacks) := b.cancelOrder orderId
  withLock (.book symbol) (modifyServer (·.setBook symbol b))
  dispatch env b.heap callbacks
  return ok

def snapshotMessage (symbol : String) (b : OrderBook ℚ) : Prog Response := do
  let bids ← withLock (.book symbol) (pure (b.getBidLevels 10))
  let asks ← withLock (.book symbol) (pure (b.getAskLevels 10))
  return .orderbookSnapshot symbol bids asks

/-! ## Handlers -/

def subscribe (s : SessionPtr) (symbol : String) : Prog Unit := withLock .subscriptions (modifyServer (·.subscribe s symbol))

def requireAuth (s : SessionPtr) (permission : String) : Prog Bool := do
  let sv ← getServer
  let session := sv.sessionAt s
  if !sv.config.authRequired then
    if session.authenticated then return true
    else
      modifyServer (·.setSession s { session with authenticated := true, permissions := "trade,view,admin", username := "auto" })
      return true
  else if !session.authenticated then
    sendMessage s (.error "AUTH_REQUIRED" "Login required before this operation")
    return false
  else if !session.hasPermission permission then
    sendMessage s (.error "PERMISSION_DENIED" ("Missing permission: " ++ permission))
    return false
  else return true

def acknowledge (s : SessionPtr) (o : Order ℚ) : Prog Unit := do
  withLock .orderOwners (modifyServer fun sv => { sv with orderOwners := sv.orderOwners.insert o.id (sv.clientId s) })
  sendMessage s (.orderStatus o.statusMessage)

def handleOrderSubmit (env : Env) (m : OrderSubmitMessage) (s : SessionPtr) : Prog Unit := do
  let orderbook ← getOrderbook m.symbol
  match orderbook with
  | none => sendMessage s (.error "INVALID_SYMBOL" ("Orderbook not found for symbol: " ++ m.symbol))
  | some b =>
    let order := Server.submittedOrder env m b.tickSize
    subscribe s m.symbol
    modifyServer fun sv => sv.saveSubmission env ⟨order.id, s, m, b.tickSize⟩ order
    let order ← addOrder env b order
    acknowledge s order

def cancelLoop (env : Env) (orderId : String) : List (String × OrderBook ℚ) → Prog Bool
  | [] => return false
  | (symbol, b) :: rest => do
    let ok ← cancelOrder env symbol b orderId
    if ok then return true else cancelLoop env orderId rest

def handleOrderCancel (env : Env) (orderId : String) (s : SessionPtr) : Prog Unit := do
  -- a client that does not own the order is answered with the mutex held
  let owns ← withLock .orderOwners do
    if (← getServer).owns s orderId then return true
    else
      sendMessage s (.error "INVALID_ORDER" "Cannot cancel order: not found or not owned by this client")
      return false
  if owns then
    -- the loop cancels, and its callbacks run, with `orderbooks_mutex_` held
    let ok ← withLock .orderbooks do cancelLoop env orderId (← getServer).orderbooks.entries
    if ok then return else sendMessage s (.error "INVALID_ORDER" "Order not found for cancellation")
  else return

def sendSnapshot (symbol : String) (b : OrderBook ℚ) (s : SessionPtr) : Prog Unit := do
  let snapshot ← snapshotMessage symbol b
  sendMessage s snapshot

def handleSnapshotRequest (symbol : String) (s : SessionPtr) : Prog Unit := do
  subscribe s symbol
  let orderbook ← getOrderbook symbol
  match orderbook with
  | some b => sendSnapshot symbol b s
  | none =>
    let ok ← createOrderbook symbol Server.defaultTickSize
    if !ok then
      sendMessage s (.error "ORDERBOOK_CREATION_FAILED" ("Failed to create orderbook for symbol: " ++ symbol))
    else
      let orderbook ← getOrderbook symbol
      match orderbook with
      | none => return
      | some b => sendSnapshot symbol b s

/-- The loop of `handleOrderStatus` over the books. -/
def findOrder (orderId : String) : List (String × OrderBook ℚ) → Prog (Option (Order ℚ))
  | [] => return none
  | (symbol, b) :: rest => do
    let order ← withLock (.book symbol) (pure (b.getOrder orderId))
    match order with
    | some p => return some (b.heap p)
    | none => findOrder orderId rest

def handleOrderStatus (orderId : String) (s : SessionPtr) : Prog Unit := do
  let owns ← withLock .orderOwners do return (← getServer).owns s orderId
  if owns then
    let order ← withLock .orderbooks do findOrder orderId (← getServer).orderbooks.entries
    match order with
    | none => sendMessage s (.error "INVALID_ORDER" "Order not found for status request")
    | some o => sendMessage s (.orderStatus o.statusMessage)
  else sendMessage s (.error "INVALID_ORDER" "Cannot get order status: not found or not owned by this client")

def login (env : Env) (username permissions : String) (s : SessionPtr) : Prog Unit := do
  let token := generateUuid env.uuid
  modifyServer fun sv =>
    (sv.logUuid token).setSession s { sv.sessionAt s with authenticated := true, username, sessionToken := token, permissions }
  sendMessage s (.loginResponse true token username "")

def handleLogin (env : Env) (username password : String) (s : SessionPtr) : Prog Unit := do
  let sv ← getServer
  if !sv.storeOpen then login env username "trade,view" s
  else if username = "guest" || sv.disk.authenticateUser username password then
    match sv.disk.getUser username with
    | some user => login env username user.permissions s
    | none => login env username "trade,view" s
  else sendMessage s (.loginResponse false "" username "Invalid credentials")

def handleRegister (env : Env) (username password : String) (s : SessionPtr) : Prog Unit := do
  let refuse (text : String) := sendMessage s (.registerResponse false username text)
  let sv ← getServer
  if username.isEmpty then refuse "Username cannot be empty"
  else if password.isEmpty then refuse "Password cannot be empty"
  else if 64 < username.utf8ByteSize || 128 < password.utf8ByteSize then refuse "Username or password too long"
  else if !sv.storeOpen then refuse "Registration unavailable (no persistence)"
  else if (sv.disk.getUser username).isSome then refuse "Username already taken"
  else
    let ok ← call fun sv => some (sv.write env (Db.saveUser · ⟨username, password, "trade,view"⟩ (env.salts 0)))
    if ok then sendMessage s (.registerResponse true username "") else refuse "Failed to create account"

/-- A handler behind `requireAuth`. -/
def authorized (s : SessionPtr) (permission : String) (handler : Prog Unit) : Prog Unit := do
  let ok ← requireAuth s permission
  if ok then handler else return

def handleMessage (env : Env) (m : Request) (s : SessionPtr) : Prog Unit :=
  match m with
  | .login username password => handleLogin env username password s
  | .register username password => handleRegister env username password s
  | .snapshotRequest symbol => authorized s "view" (handleSnapshotRequest symbol s)
  | .orderSubmit m => authorized s "trade" (handleOrderSubmit env m s)
  | .orderCancel orderId _ => authorized s "trade" (handleOrderCancel env orderId s)
  | .orderStatus orderId _ => authorized s "view" (handleOrderStatus orderId s)
  | .other => sendMessage s (.error "UNKNOWN_MESSAGE" "Unknown message type")

/-! ## The timer and the generator -/

/-- The callback of the snapshot timer: the messages are built first, and sent with two mutexes held. -/
def sendOrderbookSnapshots : Prog Unit := do
  let snapshots ← withLock .orderbooks do
    (← getServer).orderbooks.entries.mapM fun e => do return (e.1, ← snapshotMessage e.1 e.2)
  withLock .subscriptions (withLock .sessions (snapshots.forM fun x => do broadcast ((← getServer).subscribers x.1) x.2))

/-- `addOrder` on the book of the order, if there is one: the posted order of the generator, and a restored one. -/
def addToBook (env : Env) (o : Order ℚ) : Prog Unit := do
  let orderbook ← getOrderbook o.symbol
  match orderbook with
  | none => return
  | some b =>
    let _ ← addOrder env b o

def handlePosted (env : Env) : Prog Unit := do
  let sv ← getServer
  match sv.posted with
  | [] => return
  | o :: rest =>
    modifyServer fun sv => { sv with posted := rest }
    addToBook env o

/-- `tryCancel`; the mutexes of the generator itself are not held while it calls back. -/
def tryCancel (env : Env) (i : Nat) : Prog Unit := do
  let sv ← getServer
  match sv.generator with
  | none => return
  | some g =>
    match g.tracked[i]? with
    | none => return
    | some id =>
      modifyServer fun sv => { sv with generator := some { g with tracked := g.tracked.eraseIdx i } }
      let orderbook ← getOrderbook g.symbol
      match orderbook with
      | none => return
      | some b =>
        let _ ← cancelOrder env g.symbol b id

/-! ## Start and stop -/

def initPersistence (env : Env) (opens : Bool) : Prog Unit :=
  if opens then do
    modifyServer fun sv => Server.seedDefaultUsers { sv with storeOpen := true } env
    ((← getServer).disk.loadAllActiveOrders env.now).forM (addToBook env)
  else return

def configureOrderGenerator : Prog Unit := do
  let sv ← getServer
  match sv.config.generator, sv.config.symbols with
  | true, symbol :: _ =>
    let orderbook ← getOrderbook symbol
    match orderbook with
    | none => return
    | some b =>
      let tickSize ← withLock (.book symbol) (pure b.tickSize)
      modifyServer fun sv => { sv with generator := some ⟨symbol, tickSize, 500, 100, []⟩ }
  | _, _ => return

def restart (env : Env) : Prog Unit := do
  modifyServer (·.newProcess)
  (← getServer).config.symbols.forM fun symbol => do
    let _ ← createOrderbook symbol Server.defaultTickSize
  initPersistence env env.opens.1
  configureOrderGenerator
  if (← getServer).storeOpen then return else initPersistence env env.opens.2

/-- `Server::stop`: every session is closed with `sessions_mutex_` held. -/
def stop : Prog Unit :=
  withLock .sessions do
    (← getServer).sessions.entries.forM fun e => close e.2
    modifyServer fun sv => { sv with sessions := .empty }

/-! ## Entry points -/

/-- An event of the server, the handler of a finished write, or the end of the process. -/
inductive Entry
  | event (ev : Server.Event)
  | written (s : SessionPtr)
  | stop

/-- The event with its locks; as for `Server.step`, sessions that do not exist do nothing. -/
def step (env : Env) : Server.Event → Prog Unit
  | .connect => acceptConnection env
  | .close s => do if (← getServer).hasSession s then close s else return
  | .message s m => do if (← getServer).hasSession s then handleMessage env m s else return
  | .snapshotTimer => sendOrderbookSnapshots
  | .generate d => modifyServer (·.generate env d)
  | .posted => handlePosted env
  | .generatorCancel i => tryCancel env i
  | .createOrderbook symbol tickSize => do let _ ← createOrderbook symbol tickSize
  | .setOrderbookTickSize symbol tickSize => do let _ ← setOrderbookTickSize symbol tickSize
  | .restart => restart env

def Entry.run (env : Env) : Entry → Prog Unit
  | .event ev => step env ev
  | .written s => Locked.written s
  | .stop => Locked.stop

end OrderbookGC.Locked
