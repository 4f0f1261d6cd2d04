/-
The bridge's connection to the server: `TcpClient` of `tcp_client.py` and what `main.py` does with it, on the event loop
of asyncio. The loop runs the oldest task that is ready, up to its next wait; what comes from outside makes a task
ready. A queue resumes its waiters in the order they came. Of the tasks, those are modelled that write: the handlers of
the browser's commands, the futures of `on_connect`, the write loops, and the two ends of a connection.

A message stands for its frame. `drain` may return at once, raise, or wait; so may a read loop end at any time. The
backoff of `_reconnect` is the time before `connectionMade`, and an attempt that fails changes nothing. `stop` is not
part of this model. `sent` and `written` are specification only.
-/
import OrderbookGC.Wire.ServerReads

namespace OrderbookGC.Bridge

/-- The arguments of the bridge, and its client id. -/
structure Args (α : Type) where
  username : List α
  password : List α
  symbols : List (List α)
  clientId : List α

/-- A command of the browser over the WebSocket. -/
inductive WsCommand (α : Type)
  | submitOrder (symbol : List α) (side : OrderSide) (orderType : OrderType) (price stopPrice : ℚ) (quantity : Int)
  | cancelOrder (orderId : List α)
  | requestSnapshot (symbol : List α)
  | login (username password : List α)
  | register (username password : List α)
  | requestAllSnapshots
  | unknown

/-- A request to the REST endpoints. -/
inductive RestRequest (α : Type)
  | submitOrder (symbol : List α) (side : OrderSide) (orderType : OrderType) (price stopPrice : ℚ) (quantity : Int)
  | cancelOrder (orderId : List α)

/-! ## Tasks -/

inductive Task (α : Type)
  /-- `_connect` resumes with an open connection. -/
  | connect
  | ws (command : WsCommand α)
  | rest (request : RestRequest α)
  /-- A future of `on_connect`. -/
  | send (messages : List (Request α))
  /-- The write loop of a connection starts or resumes. -/
  | write (connection : Nat)
  /-- A read loop has ended and runs `_handle_disconnect`. -/
  | readEnd

/-- Where the write loop of a connection stands. -/
inductive WriteLoop
  | created
  /-- In `get()`, with its waiter in the queue. -/
  | waiting
  /-- In `get()`, its waiter resolved. -/
  | woken
  | draining
  /-- `drain()` has returned, or is about to raise. -/
  | drained (ok : Bool)
  | ended
deriving DecidableEq

/-- A message passed to `_send`, with what the client was then: whether it was connected, and how many connections it had
established. -/
structure Sent (α : Type) where
  message : Request α
  connected : Bool
  connections : Nat

/-- A message taken from the queue and written: to which connection, and whether the client was connected. -/
structure Written (α : Type) where
  connection : Nat
  connected : Bool
  sent : Sent α

/-- Connections are numbered as they are established; each has a read loop and a write loop. -/
structure TcpClient (α : Type) where
  connected : Bool
  /-- The connection `_writer` belongs to. -/
  writer : Option Nat
  /-- `start` or `_reconnect` waits for a connection. -/
  connecting : Bool
  writeLoops : List WriteLoop
  /-- The read loops that run. -/
  readLoops : List Nat
  writeQueue : List (Sent α)
  /-- The waiters of the queue. -/
  getters : List Nat
  ready : List (Task α)
  sent : List (Sent α)
  written : List (Written α)

namespace TcpClient

variable {α : Type}

/-- `start` has been called. -/
def started : TcpClient α := ⟨false, none, true, [], [], [], [], [], [], []⟩

def setWriteLoop (c : TcpClient α) (k : Nat) (w : WriteLoop) : TcpClient α := { c with writeLoops := c.writeLoops.set k w }

def schedule (c : TcpClient α) (tasks : List (Task α)) : TcpClient α := { c with ready := c.ready ++ tasks }

/-! ## Sending -/

/-- `put` on the queue: it wakes the waiter that came first. -/
def put (c : TcpClient α) (x : Sent α) : TcpClient α :=
  let c := { c with writeQueue := c.writeQueue ++ [x], sent := c.sent ++ [x] }
  match c.getters with
  | [] => c
  | k :: getters => ({ c with getters }.setWriteLoop k .woken).schedule [.write k]

/-- `_send`. -/
def send (c : TcpClient α) (m : Request α) : TcpClient α := c.put ⟨m, c.connected, c.writeLoops.length⟩

def sendAll (c : TcpClient α) (messages : List (Request α)) : TcpClient α := messages.foldl send c

/-- `TcpClient.login`: without a name, the one of the arguments. -/
def login (args : Args α) (username password : List α) : List (Request α) :=
  let u := if username.isEmpty then args.username else username
  let p := if password.isEmpty then args.password else password
  if u.isEmpty then [] else [.login ⟨u, p⟩]

/-- `_handle_ws_command`: it does not ask whether the client is connected. -/
def handleWsCommand (args : Args α) : WsCommand α → List (Request α)
  | .submitOrder symbol side orderType price stopPrice quantity =>
    [.orderSubmit ⟨args.clientId, symbol, side, orderType, price, stopPrice, quantity⟩]
  | .cancelOrder orderId => [.orderCancel ⟨orderId, args.clientId⟩]
  | .requestSnapshot symbol => [.snapshotRequest ⟨symbol⟩]
  | .login username password => login args username password
  | .register username password => [.register ⟨username, password⟩]
  | .requestAllSnapshots => args.symbols.map fun symbol => .snapshotRequest ⟨symbol⟩
  | .unknown => []

/-- The REST endpoints, which refuse while the client is not connected. -/
def handleRest (args : Args α) : RestRequest α → Request α
  | .submitOrder symbol side orderType price stopPrice quantity =>
    .orderSubmit ⟨args.clientId, symbol, side, orderType, price, stopPrice, quantity⟩
  | .cancelOrder orderId => .orderCancel ⟨orderId, args.clientId⟩

/-! ## Connections -/

/-- `on_connect`: the login and the snapshot requests, each a future of its own. -/
def onConnect (args : Args α) : List (Task α) :=
  if args.username.isEmpty then []
  else .send (login args args.username args.password) :: args.symbols.map fun symbol => .send [.snapshotRequest ⟨symbol⟩]

/-- The rest of `_connect`, once the connection is open. -/
def connect (args : Args α) (c : TcpClient α) : TcpClient α :=
  let k := c.writeLoops.length
  { c with
    connected := true
    writer := some k
    readLoops := c.readLoops ++ [k]
    writeLoops := c.writeLoops ++ [.created]
    ready := c.ready ++ onConnect args ++ [.write k] }

/-- `_handle_disconnect`: the write loop is left as it is. -/
def handleDisconnect (c : TcpClient α) : TcpClient α :=
  if !c.connected then c else { c with connected := false, connecting := true }

/-! ## The write loop -/

/-- The write loop from its `get()` on; `drains` says how the next calls of `drain` end, and the first that is not said
waits. -/
def get (k : Nat) : List Bool → TcpClient α → TcpClient α
  | drains, c =>
    match c.writeQueue with
    | [] => { c.setWriteLoop k .waiting with getters := c.getters ++ [k] }
    | x :: writeQueue =>
      match c.writer with
      | none => { c with writeQueue }.setWriteLoop k .ended
      | some w =>
        let c := { c with writeQueue, written := c.written ++ [⟨w, c.connected, x⟩] }
        match drains with
        | [] => c.setWriteLoop k .draining
        | true :: drains => if c.connected then get k drains c else c.setWriteLoop k .ended
        | false :: _ => c.handleDisconnect.setWriteLoop k .ended

theorem get_of_nil {c : TcpClient α} (k : Nat) (drains : List Bool) (hq : c.writeQueue = []) :
    c.get k drains = { c.setWriteLoop k .waiting with getters := c.getters ++ [k] } := by
  rw [get.eq_def]
  simp only [hq]

theorem get_of_cons {c : TcpClient α} (k : Nat) (drains : List Bool) {x : Sent α} {rest : List (Sent α)} {w : Nat}
    (hq : c.writeQueue = x :: rest) (hw : c.writer = some w) : c.get k drains =
      let c' : TcpClient α := { c with writeQueue := rest, written := c.written ++ [⟨w, c.connected, x⟩] }
      match drains with
      | [] => c'.setWriteLoop k .draining
      | true :: drains => if c'.connected then c'.get k drains else c'.setWriteLoop k .ended
      | false :: _ => c'.handleDisconnect.setWriteLoop k .ended := by
  rw [get.eq_def]
  simp only [hq, hw]

/-- The head of the loop. -/
def whileConnected (k : Nat) (drains : List Bool) (c : TcpClient α) : TcpClient α :=
  if c.connected then get k drains c else c.setWriteLoop k .ended

/-- The write loop of a connection, from where it stands. -/
def writeLoop (k : Nat) (drains : List Bool) (c : TcpClient α) : TcpClient α :=
  match c.writeLoops[k]? with
  | some .created => c.whileConnected k drains
  | some .woken => c.get k drains
  | some (.drained true) => c.whileConnected k drains
  | some (.drained false) => c.handleDisconnect.setWriteLoop k .ended
  | some .waiting | some .draining | some .ended | none => c

/-! ## Events -/

inductive Event (α : Type)
  | connectionMade
  | ws (command : WsCommand α)
  | rest (request : RestRequest α)
  /-- A `drain` that waits is over. -/
  | drained (connection : Nat) (ok : Bool)
  /-- The connection is closed, or fails. -/
  | readEnd (connection : Nat)
  /-- The loop runs the oldest ready task. -/
  | run (drains : List Bool)

def runTask (args : Args α) (drains : List Bool) (c : TcpClient α) : Task α → TcpClient α
  | .connect => c.connect args
  | .ws command => c.sendAll (handleWsCommand args command)
  | .rest request => if c.connected then c.send (handleRest args request) else c
  | .send messages => c.sendAll messages
  | .write k => c.writeLoop k drains
  | .readEnd => c.handleDisconnect

def step (args : Args α) (c : TcpClient α) : Event α → TcpClient α
  | .connectionMade => if c.connecting then { c with connecting := false }.schedule [.connect] else c
  | .ws command => c.schedule [.ws command]
  | .rest request => c.schedule [.rest request]
  | .drained k ok =>
    if c.writeLoops[k]? = some .draining then (c.setWriteLoop k (.drained ok)).schedule [.write k] else c
  | .readEnd k => if k ∈ c.readLoops then { c with readLoops := c.readLoops.erase k }.schedule [.readEnd] else c
  | .run drains =>
    match c.ready with
    | [] => c
    | t :: ready => { c with ready }.runTask args drains t

def run (args : Args α) (events : List (Event α)) : TcpClient α := events.foldl (step args) started

end TcpClient

end OrderbookGC.Bridge
