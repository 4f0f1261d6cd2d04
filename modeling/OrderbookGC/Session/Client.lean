/-
The calling side of a `Client`: `connect`, `disconnect`, the destructor, the four requests, `write`, `doWriteNext` and
the handlers of its io thread, as atomic steps in any order. One thread connects, disconnects and destroys; any number
of threads make requests. A request is two steps, the test of `connected_` and the post, and a disconnect is two, for
handlers run between its close of the socket and its stop of the context. What is assumed of Asio: the handlers posted
run in the order they were posted, on a thread that is in `run()`; `run()` of a stopped context returns at once; bytes
leave only through a write whose socket is still the open one; a write succeeds only when its whole buffer has left.

The invariant has two halves: where the frames of the requests posted are, and which connection the handlers can meet.
-/
import OrderbookGC.Session.Delivery
import OrderbookGC.Wire.RoundTrip

namespace OrderbookGC.Connection

open Framing (frameMessage)
open Text Wire

/-! ## Requests -/

/-- The calls that write to the server. -/
inductive Request where
  | submitOrder (clientId symbol : List UInt8) (side : OrderSide) (price : ℚ) (quantity : UInt32)
  | cancelOrder (orderId clientId : List UInt8)
  | requestOrderbookSnapshot (symbol : List UInt8)
  | requestOrderStatus (orderId clientId : List UInt8)
deriving DecidableEq

/-- The message of a request. `make_shared` zeroes the fields that have no initializer. -/
def Request.message : Request → Message UInt8
  | .submitOrder clientId symbol side price quantity =>
    .orderSubmit ⟨clientId, symbol, side, .limit, price, 0, quantity⟩
  | .cancelOrder orderId clientId => .orderCancel ⟨orderId, clientId⟩
  | .requestOrderbookSnapshot symbol => .snapshotRequest ⟨symbol⟩
  | .requestOrderStatus orderId clientId =>
    .orderStatus ⟨orderId, clientId, [], .buy, .limit, 0, 0, 0, 0, .pending, 0⟩

/-- What `write` is given. -/
def Request.text (localtime : Int → Tm) (r : Request) : List UInt8 := r.message.serialize localtime

/-- What `write` posts. -/
def Request.frame (localtime : Int → Tm) (r : Request) : List UInt8 := frameMessage (r.text localtime)

/-! ## The client -/

/-- `io_thread_`: no thread, a thread in `run()`, or one that has returned from it and is still joinable. -/
inductive IoThread where
  | absent
  | running
  | finished
deriving DecidableEq

inductive Lifetime where
  | alive
  | destroyed
  | terminated
deriving DecidableEq

/-- An `async_write` whose handler has not run: its buffer, how many bytes of it have left, and the connection whose
socket was open when it was started. -/
structure Write where
  buf : List UInt8
  handed : Nat
  socket : Option Nat
deriving DecidableEq

/-- `socket` is the number of the connection whose socket is open. `disconnecting` says that a disconnect has closed
the socket and not yet stopped the context. `calls` are the requests that have passed the tests and are not posted;
`posted` the handlers that wait in the context. `peers` is the bytes handed over on each connection made, `callbacks`
the calls of the connection callback, and `sent` the requests posted so far. -/
structure Client where
  connected : Bool
  running : Bool
  socket : Option Nat
  ioThread : IoThread
  stopped : Bool
  reading : Bool
  disconnecting : Bool
  calls : List Request
  posted : List (List UInt8)
  writeQueue : List (List UInt8)
  writing : Bool
  inFlight : List Write
  peers : List (List UInt8)
  callbacks : List Bool
  lifetime : Lifetime
  sent : List Request

/-- `Client::create`. -/
def Client.create : Client :=
  ⟨false, false, none, .absent, false, false, false, [], [], [], false, [], [], [], .alive, []⟩

/-- `Client::startRead`, whether it starts a read. -/
def Client.startRead (c : Client) : Client := { c with reading := c.running && c.socket.isSome }

/-- `Client::connect`; `established` says that the host resolves and one of its endpoints accepts. The attempt closes
the socket that is open. -/
def Client.connect (c : Client) (established : Bool) : Client :=
  if c.connected then c
  else if !established then { c with socket := none }
  else
    let c := { c with
      socket := some c.peers.length
      peers := c.peers ++ [[]]
      connected := true
      running := true }
    if c.ioThread ≠ .absent then
      -- the assignment to a thread that is joinable
      { c with lifetime := .terminated }
    else
      let c := { c with ioThread := if c.stopped then .finished else .running }
      let c := c.startRead
      { c with callbacks := c.callbacks ++ [true] }

/-- `Client::disconnect` up to the close of the socket. -/
def Client.shut (c : Client) : Client :=
  if !c.connected then c else { c with running := false, socket := none, disconnecting := true }

/-- The rest of `Client::disconnect`: the context is stopped and the io thread joined. -/
def Client.stop (c : Client) : Client :=
  if c.disconnecting then
    { c with
      stopped := true
      ioThread := .absent
      disconnecting := false
      connected := false
      callbacks := c.callbacks ++ [false] }
  else c

/-- `Client::~Client`. A thread that is destroyed while it is joinable ends the process. -/
def Client.destroy (c : Client) : Client :=
  let c := c.shut.stop
  { c with lifetime := if c.ioThread ≠ .absent then .terminated else .destroyed }

/-- The tests that `submitOrder` and its siblings, and after them `write`, make. -/
def Client.request (c : Client) (r : Request) : Client :=
  if !c.connected || c.socket.isNone then c else { c with calls := c.calls ++ [r] }

/-- The rest of `Client::write`. -/
def Client.post (localtime : Int → Tm) (c : Client) (i : Nat) : Client :=
  match c.calls[i]? with
  | some r =>
    { c with calls := c.calls.eraseIdx i, posted := c.posted ++ [r.frame localtime], sent := c.sent ++ [r] }
  | none => c

/-- `Client::doWriteNext`; its callers have a frame at the front of the queue. -/
def Client.doWriteNext (c : Client) : Client :=
  match c.writeQueue with
  | [] => c
  | front :: _ => { c with inFlight := c.inFlight ++ [⟨front, 0, c.socket⟩] }

/-- The handler that `write` posts. -/
def Client.handler (c : Client) (framedMessage : List UInt8) : Client :=
  let c := { c with writeQueue := c.writeQueue ++ [framedMessage] }
  if !c.writing then Client.doWriteNext { c with writing := true } else c

/-- The completion handler of `async_write` without an error. -/
def Client.succeeded (c : Client) : Client :=
  let c := { c with writeQueue := c.writeQueue.tail }
  if c.writeQueue.isEmpty then { c with writing := false } else c.doWriteNext

/-- The completion handler of `async_write` with an error: the socket stays open, and `writing_` set. -/
def Client.failed (c : Client) : Client := { c with connected := false, callbacks := c.callbacks ++ [false] }

/-- The error branches of the handlers of `startRead`. -/
def Client.readFailed (c : Client) : Client :=
  { c with reading := false, socket := none, connected := false, callbacks := c.callbacks ++ [false] }

/-- What can happen to a client; a write is named by its place among those in flight, a call by its place among those
that have passed the tests. -/
inductive ClientEvent where
  | connect (established : Bool)
  | shut
  | stop
  | destroy
  | request (r : Request)
  | post (i : Nat)
  | handler
  | transmit (i : Nat) (count : Nat)
  | succeed (i : Nat)
  | fail (i : Nat)
  | readDone
  | readFail

/-- One atomic step of a client that is there. What the threads and the transport cannot do changes nothing. -/
def Client.act (localtime : Int → Tm) (c : Client) : ClientEvent → Client
  | .connect established => if c.disconnecting then c else c.connect established
  | .shut => if c.disconnecting then c else c.shut
  | .stop => c.stop
  -- the handlers of a pending read and of a write in flight own the client
  | .destroy => if c.disconnecting || c.reading || !c.inFlight.isEmpty then c else c.destroy
  | .request r => c.request r
  | .post i => c.post localtime i
  | .handler =>
    match c.ioThread, c.posted with
    | .running, framedMessage :: posted => Client.handler { c with posted := posted } framedMessage
    | _, _ => c
  | .transmit i count =>
    match c.inFlight[i]?, c.socket with
    | some w, some k =>
      if w.socket = some k then
        { c with
          peers := c.peers.modify k (· ++ (w.buf.drop w.handed).take count)
          inFlight := c.inFlight.set i { w with handed := min (w.handed + count) w.buf.length } }
      else c
    | _, _ => c
  | .succeed i =>
    match c.inFlight[i]? with
    | some w =>
      if c.ioThread = .running ∧ w.socket.isSome ∧ w.handed = w.buf.length then
        Client.succeeded { c with inFlight := c.inFlight.eraseIdx i }
      else c
    | none => c
  | .fail i =>
    match c.inFlight[i]? with
    | some _ =>
      if c.ioThread = .running then Client.failed { c with inFlight := c.inFlight.eraseIdx i } else c
    | none => c
  | .readDone => if c.ioThread = .running ∧ c.reading then c.startRead else c
  | .readFail => if c.ioThread = .running ∧ c.reading then c.readFailed else c

/-- One atomic step: a client that is destroyed, or whose process has ended, takes none. -/
def Client.step (localtime : Int → Tm) (c : Client) (e : ClientEvent) : Client :=
  if c.lifetime = .alive then c.act localtime e else c

/-- A run of a client from its creation on. -/
def Client.run (localtime : Int → Tm) (events : List ClientEvent) : Client :=
  events.foldl (Client.step localtime) .create

/-! ## The invariant -/

variable {localtime : Int → Tm} {c : Client}

/-- The frames of the requests posted are, in order, those popped, those in the queue and those that wait in the
context. The first connection has been handed the frames popped and a part of the others, which is the part that the
one write in flight, if any, has handed over of the frame at the front of the queue. -/
structure Queued (localtime : Int → Tm) (c : Client) : Prop where
  order : ∃ popped part, c.sent.map (Request.frame localtime) = popped ++ c.writeQueue ++ c.posted ∧
    part <+: c.writeQueue.flatten ∧ c.peers.headD [] = popped.flatten ++ part ∧
    ∀ w ∈ c.inFlight, part = w.buf.take w.handed
  inFlight : c.inFlight = [] ∨ ∃ w rest, c.inFlight = [w] ∧ c.writeQueue = w.buf :: rest ∧ c.writing = true
  idle : c.writing = false → c.writeQueue = [] ∧ c.inFlight = []

/-- The handlers run on the first connection only, and no other is handed anything. While the client lives, the
connection callback was told last what `connected_` says. -/
structure Single (c : Client) : Prop where
  latest : ∀ k, c.socket = some k → k + 1 = c.peers.length
  first : ∀ w ∈ c.inFlight, ∀ k, w.socket = some k → k = 0
  silent : ∀ bytes ∈ c.peers.tail, bytes = []
  broken : c.connected = false → c.socket.isSome → c.inFlight = [] ∧ c.writing = true
  fresh : c.lifetime = .alive → c.ioThread = .absent → c.stopped = false → c.peers = [] ∧ c.inFlight = []
  thread : c.lifetime = .alive → c.ioThread = .running → c.peers.length = 1
  closing : c.disconnecting → c.socket = none
  told : c.lifetime = .alive → c.connected = c.callbacks.getLastD false

theorem Queued.create : Queued localtime Client.create :=
  ⟨⟨[], [], rfl, List.nil_prefix, rfl, fun _ h => nomatch h⟩, .inl rfl, fun _ => ⟨rfl, rfl⟩⟩

theorem Single.create : Single Client.create where
  latest _ h := nomatch h
  first _ h := nomatch h
  silent _ h := nomatch h
  broken _ h := nomatch h
  fresh _ _ _ := ⟨rfl, rfl⟩
  thread _ h := nomatch h
  closing h := nomatch h
  told _ := rfl

/-! ## Connecting and disconnecting -/

theorem headD_append_nil (peers : List (List UInt8)) : (peers ++ [[]]).headD [] = peers.headD [] := by
  cases peers <;> rfl

theorem silent_append {peers : List (List UInt8)} (h : ∀ bytes ∈ peers.tail, bytes = []) :
    ∀ bytes ∈ (peers ++ [[]]).tail, bytes = [] := by
  cases peers with
  | nil => exact fun _ h => nomatch h
  | cons first rest =>
    intro bytes hm
    rcases List.mem_append.1 hm with hm | hm
    · exact h bytes hm
    · exact List.mem_singleton.1 hm

/-- What a connect can do: nothing, lose the socket, end the process, or open a connection. -/
theorem Client.connect_cases (c : Client) (established : Bool) :
    c.connect established = c ∨ c.connect established = { c with socket := none } ∨
      (c.ioThread ≠ .absent ∧ c.connect established =
        { c with
          socket := some c.peers.length
          peers := c.peers ++ [[]]
          connected := true
          running := true
          lifetime := .terminated }) ∨
      (c.ioThread = .absent ∧ c.connect established =
        { c with
          socket := some c.peers.length
          peers := c.peers ++ [[]]
          connected := true
          running := true
          ioThread := if c.stopped then .finished else .running
          reading := true
          callbacks := c.callbacks ++ [true] }) := by
  unfold Client.connect
  by_cases hc : c.connected
  · exact .inl (if_pos hc)
  rw [if_neg hc]
  cases established with
  | false => exact .inr (.inl rfl)
  | true =>
    by_cases ht : c.ioThread = .absent
    · exact .inr (.inr (.inr ⟨ht, if_neg (not_not_intro ht)⟩))
    · exact .inr (.inr (.inl ⟨ht, if_pos ht⟩))

theorem Queued.connect (h : Queued localtime c) (established : Bool) : Queued localtime (c.connect established) := by
  obtain ⟨popped, part, hs, hp, hh, hw⟩ := h.order
  rcases c.connect_cases established with heq | heq | ⟨-, heq⟩ | ⟨-, heq⟩ <;> rw [heq]
  · exact h
  · exact ⟨h.order, h.inFlight, h.idle⟩
  · exact ⟨⟨popped, part, hs, hp, (headD_append_nil _).trans hh, hw⟩, h.inFlight, h.idle⟩
  · exact ⟨⟨popped, part, hs, hp, (headD_append_nil _).trans hh, hw⟩, h.inFlight, h.idle⟩

theorem Single.connect (h : Single c) (ha : c.lifetime = .alive) (hd : c.disconnecting = false) (established : Bool) :
    Single (c.connect established) := by
  have hlatest : ∀ k, some c.peers.length = some k → k + 1 = (c.peers ++ [[]]).length := fun k hk => by
    rw [← Option.some.inj hk, List.length_append, List.length_singleton]
  have hopen : c.disconnecting = true → some c.peers.length = none := fun h => by rw [hd] at h; cases h
  rcases c.connect_cases established with heq | heq | ⟨-, heq⟩ | ⟨ht, heq⟩ <;> rw [heq]
  · exact h
  · exact { h with
      latest := fun _ hk => by cases hk
      broken := fun _ hs => by cases hs
      closing := fun _ => rfl }
  · exact
      { latest := hlatest
        first := h.first
        silent := silent_append h.silent
        broken := fun hc => by cases hc
        fresh := fun hl => by cases hl
        thread := fun hl => by cases hl
        closing := hopen
        told := fun hl => by cases hl }
  · -- there is no io thread: the client is fresh, or it has been disconnected and its context is stopped
    refine
      { latest := hlatest
        first := h.first
        silent := silent_append h.silent
        broken := fun hc => by cases hc
        fresh := fun _ habsent => ?_
        thread := fun _ hrun => ?_
        closing := hopen
        told := fun _ => List.getLastD_concat.symm }
    · dsimp only at habsent
      split_ifs at habsent
    · dsimp only at hrun
      split_ifs at hrun with hs
      show (c.peers ++ [[]]).length = 1
      rw [(h.fresh ha ht (Bool.eq_false_of_not_eq_true hs)).1]
      rfl

theorem Single.shut (h : Single c) : Single c.shut := by
  unfold Client.shut
  split_ifs with hc
  · exact h
  · exact { h with
      latest := fun _ hk => by cases hk
      broken := fun _ hs => by cases hs
      closing := fun _ => rfl }

theorem Single.stop (h : Single c) : Single c.stop := by
  unfold Client.stop
  split_ifs with hd
  · exact { h with
      broken := fun _ hs => by rw [h.closing hd] at hs; cases hs
      fresh := fun _ _ hs => by cases hs
      thread := fun _ hr => by cases hr
      closing := fun hd => by cases hd
      told := fun _ => List.getLastD_concat.symm }
  · exact h

theorem Queued.shut (h : Queued localtime c) : Queued localtime c.shut := by
  unfold Client.shut
  split_ifs
  · exact h
  · exact ⟨h.order, h.inFlight, h.idle⟩

theorem Queued.stop (h : Queued localtime c) : Queued localtime c.stop := by
  unfold Client.stop
  split_ifs
  · exact ⟨h.order, h.inFlight, h.idle⟩
  · exact h

theorem Queued.destroy (h : Queued localtime c) : Queued localtime c.destroy :=
  ⟨h.shut.stop.order, h.shut.stop.inFlight, h.shut.stop.idle⟩

theorem Single.destroy (h : Single c) : Single c.destroy := by
  have hdead : c.destroy.lifetime ≠ .alive := by
    unfold Client.destroy
    dsimp only
    split_ifs <;> nofun
  have h' := h.shut.stop
  exact
    { latest := h'.latest
      first := h'.first
      silent := h'.silent
      broken := h'.broken
      fresh := fun hl => absurd hl hdead
      thread := fun hl => absurd hl hdead
      closing := h'.closing
      told := fun hl => absurd hl hdead }

/-! ## Requests and writes -/

theorem Queued.request (h : Queued localtime c) (r : Request) : Queued localtime (c.request r) := by
  unfold Client.request
  split_ifs
  · exact h
  · exact ⟨h.order, h.inFlight, h.idle⟩

theorem Single.request (h : Single c) (r : Request) : Single (c.request r) := by
  unfold Client.request
  split_ifs
  · exact h
  · exact { h with }

theorem Queued.post (h : Queued localtime c) (i : Nat) : Queued localtime (c.post localtime i) := by
  unfold Client.post
  cases c.calls[i]? with
  | none => exact h
  | some r =>
    obtain ⟨popped, part, hs, hp, hh, hw⟩ := h.order
    refine ⟨⟨popped, part, ?_, hp, hh, hw⟩, h.inFlight, h.idle⟩
    show (c.sent ++ [r]).map _ = popped ++ c.writeQueue ++ (c.posted ++ [r.frame localtime])
    rw [List.map_append, hs, List.append_assoc, List.append_assoc, List.append_assoc]
    rfl

theorem Single.post (h : Single c) (i : Nat) : Single (c.post localtime i) := by
  unfold Client.post
  cases c.calls[i]? with
  | none => exact h
  | some r => exact { h with }

section Handlers

variable {framedMessage next : List UInt8} {posted rest : List (List UInt8)}

theorem handler_busy (hw : c.writing = true) :
    c.handler framedMessage = { c with writeQueue := c.writeQueue ++ [framedMessage] } := by
  unfold Client.handler
  simp only [hw, Bool.not_true, Bool.false_eq_true, if_false]

theorem handler_idle (hw : c.writing = false) (hq : c.writeQueue = []) (hn : c.inFlight = []) :
    c.handler framedMessage = { c with
      writeQueue := [framedMessage]
      writing := true
      inFlight := [⟨framedMessage, 0, c.socket⟩] } := by
  unfold Client.handler
  simp only [hw, hq, hn, Bool.not_false, if_true, Client.doWriteNext, List.nil_append]

theorem succeeded_last (hq : c.writeQueue.tail = []) :
    c.succeeded = { c with writeQueue := [], writing := false } := by
  unfold Client.succeeded
  simp only [hq, List.isEmpty_nil, if_true]

theorem succeeded_more (hq : c.writeQueue.tail = next :: rest) (hn : c.inFlight = []) :
    c.succeeded = { c with writeQueue := next :: rest, inFlight := [⟨next, 0, c.socket⟩] } := by
  unfold Client.succeeded
  simp only [hq, hn, List.isEmpty_cons, Bool.false_eq_true, if_false, Client.doWriteNext, List.nil_append]

/-- The write in flight is the only one, and writes the front of the queue. -/
theorem Queued.only (h : Queued localtime c) {i : Nat} {w : Write} (hi : c.inFlight[i]? = some w) :
    i = 0 ∧ c.inFlight = [w] ∧ c.writing = true ∧ ∃ rest, c.writeQueue = w.buf :: rest := by
  rcases h.inFlight with hn | ⟨w', rest, hone, hq, hw⟩
  · rw [hn] at hi
    cases hi
  · rw [hone, List.getElem?_singleton] at hi
    split_ifs at hi with h0
    cases hi
    exact ⟨h0, hone, hw, rest, hq⟩

/-- The socket that a handler can meet is the first connection's. -/
theorem Single.socket_eq (h : Single c) (ha : c.lifetime = .alive) (hr : c.ioThread = .running) {k : Nat}
    (hk : c.socket = some k) : k = 0 := by
  have := h.latest k hk
  rw [h.thread ha hr] at this
  omega

theorem Queued.handler (h : Queued localtime c) (hposted : c.posted = framedMessage :: posted) :
    Queued localtime (Client.handler { c with posted := posted } framedMessage) := by
  obtain ⟨popped, part, hs, hp, hh, hw⟩ := h.order
  have hs' : c.sent.map (Request.frame localtime) = popped ++ (c.writeQueue ++ [framedMessage]) ++ posted := by
    rw [hs, hposted]
    simp only [List.append_assoc, List.singleton_append]
  rcases Bool.eq_false_or_eq_true c.writing with hwriting | hwriting
  · rw [handler_busy (c := { c with posted := posted }) hwriting]
    refine ⟨⟨popped, part, hs', ?_, hh, hw⟩, ?_, fun hf => ?_⟩
    · show part <+: (c.writeQueue ++ [framedMessage]).flatten
      rw [List.flatten_append]
      exact hp.trans (List.prefix_append _ _)
    · rcases h.inFlight with hn | ⟨w, rest, hone, hq, -⟩
      · exact .inl hn
      · exact .inr ⟨w, rest ++ [framedMessage], hone, congrArg (· ++ [framedMessage]) hq, hwriting⟩
    · rw [show c.writing = false from hf] at hwriting
      cases hwriting
  · obtain ⟨hq, hn⟩ := h.idle hwriting
    rw [hq] at hp hs'
    obtain rfl := List.prefix_nil.1 hp
    rw [handler_idle (c := { c with posted := posted }) hwriting hq hn]
    refine ⟨⟨popped, [], hs', List.nil_prefix, hh, fun w hm => ?_⟩, .inr ⟨_, [], rfl, rfl, rfl⟩, fun hf => by cases hf⟩
    rw [List.mem_singleton.1 hm]
    rfl

theorem Single.handler (h : Single c) (hidle : c.writing = false → c.writeQueue = [] ∧ c.inFlight = [])
    (ha : c.lifetime = .alive) (hr : c.ioThread = .running) :
    Single (Client.handler { c with posted := posted } framedMessage) := by
  rcases Bool.eq_false_or_eq_true c.writing with hwriting | hwriting
  · rw [handler_busy (c := { c with posted := posted }) hwriting]
    exact { h with }
  · obtain ⟨hq, hn⟩ := hidle hwriting
    rw [handler_idle (c := { c with posted := posted }) hwriting hq hn]
    exact { h with
      first := fun w hm k hk => by
        rw [List.mem_singleton.1 hm] at hk
        exact h.socket_eq ha hr hk
      broken := fun hc hs => by
        rw [(h.broken hc hs).2] at hwriting
        cases hwriting
      fresh := fun _ habsent => by
        rw [show c.ioThread = .absent from habsent] at hr
        cases hr }

/-- A write that has handed over all of its buffer succeeds: its frame is the one that leaves the queue. -/
theorem Queued.succeed (h : Queued localtime c) {i : Nat} {w : Write} (hi : c.inFlight[i]? = some w)
    (hall : w.handed = w.buf.length) :
    Queued localtime (Client.succeeded { c with inFlight := c.inFlight.eraseIdx i }) := by
  obtain ⟨rfl, hone, hwriting, rest, hq⟩ := h.only hi
  obtain ⟨popped, part, hs, -, hh, hw⟩ := h.order
  obtain rfl : part = w.buf := by rw [hw w (by rw [hone]; exact List.mem_singleton_self w), hall, List.take_length]
  have hs' : c.sent.map (Request.frame localtime) = (popped ++ [w.buf]) ++ rest ++ c.posted := by
    rw [hs, hq]
    simp only [List.append_assoc, List.cons_append, List.nil_append]
  have hh' : c.peers.headD [] = (popped ++ [w.buf]).flatten ++ [] := by
    rw [hh, List.flatten_append, List.flatten_singleton, List.append_nil]
  have htail : c.writeQueue.tail = rest := by rw [hq]; rfl
  rw [hone, List.eraseIdx_cons_zero]
  cases rest with
  | nil =>
    rw [succeeded_last (c := { c with inFlight := [] }) htail]
    exact ⟨⟨popped ++ [w.buf], [], hs', List.nil_prefix, hh', fun _ hm => by cases hm⟩, .inl rfl, fun _ => ⟨rfl, rfl⟩⟩
  | cons next rest =>
    rw [succeeded_more (c := { c with inFlight := [] }) htail rfl]
    refine ⟨⟨popped ++ [w.buf], [], hs', List.nil_prefix, hh', fun w hm => ?_⟩, .inr ⟨_, rest, rfl, rfl, hwriting⟩,
      fun hf => ?_⟩
    · rw [List.mem_singleton.1 hm]
      rfl
    · rw [show c.writing = false from hf] at hwriting
      cases hwriting

theorem Single.succeed (h : Single c) {w : Write} (hone : c.inFlight = [w]) (ha : c.lifetime = .alive)
    (hr : c.ioThread = .running) : Single (Client.succeeded { c with inFlight := c.inFlight.eraseIdx 0 }) := by
  have hup : c.connected = false → c.socket.isSome → False := fun hc hs => by
    rw [(h.broken hc hs).1] at hone
    cases hone
  have habsent : c.ioThread ≠ .absent := fun habsent => by
    rw [habsent] at hr
    cases hr
  rw [hone, List.eraseIdx_cons_zero]
  cases htail : c.writeQueue.tail with
  | nil =>
    rw [succeeded_last (c := { c with inFlight := [] }) htail]
    exact { h with
      first := fun _ hm => by cases hm
      broken := fun hc hs => (hup hc hs).elim
      fresh := fun _ hno => absurd hno habsent }
  | cons next rest =>
    rw [succeeded_more (c := { c with inFlight := [] }) htail rfl]
    exact { h with
      first := fun w hm k hk => by
        rw [List.mem_singleton.1 hm] at hk
        exact h.socket_eq ha hr hk
      broken := fun hc hs => (hup hc hs).elim
      fresh := fun _ hno => absurd hno habsent }

end Handlers

/-- What a write hands over follows what it has handed over before. -/
theorem keep_transmit (h : Queued localtime c) (hs : Single c) {i k count : Nat} {w : Write}
    (hi : c.inFlight[i]? = some w) (hk : c.socket = some k) (hw : w.socket = some k) :
    Queued localtime { c with
      peers := c.peers.modify k (· ++ (w.buf.drop w.handed).take count)
      inFlight := c.inFlight.set i { w with handed := min (w.handed + count) w.buf.length } } ∧
    Single { c with
      peers := c.peers.modify k (· ++ (w.buf.drop w.handed).take count)
      inFlight := c.inFlight.set i { w with handed := min (w.handed + count) w.buf.length } } := by
  obtain ⟨rfl, hone, hwriting, rest, hq⟩ := h.only hi
  have hmem : w ∈ c.inFlight := by rw [hone]; exact List.mem_singleton_self w
  obtain rfl := hs.first w hmem k hw
  obtain ⟨popped, part, hsent, hp, hh, hpart⟩ := h.order
  have hone' : c.inFlight.set 0 { w with handed := min (w.handed + count) w.buf.length } =
      [{ w with handed := min (w.handed + count) w.buf.length }] := by rw [hone]; rfl
  have hlen := hs.latest 0 hk
  cases hpeers : c.peers with
  | nil =>
    rw [hpeers] at hlen
    cases hlen
  | cons first others =>
    have hbytes : first ++ (w.buf.drop w.handed).take count =
        popped.flatten ++ w.buf.take (min (w.handed + count) w.buf.length) := by
      rw [hpeers, hpart w hmem] at hh
      rw [show first = _ from hh, List.append_assoc, ← List.take_add, ← List.take_eq_take_min]
    rw [hone']
    constructor
    · refine ⟨⟨popped, w.buf.take (min (w.handed + count) w.buf.length), hsent, ?_, hbytes, fun w' hm => ?_⟩,
        .inr ⟨_, rest, rfl, hq, hwriting⟩, fun hf => ?_⟩
      · show _ <+: c.writeQueue.flatten
        rw [hq, List.flatten_cons]
        exact (List.take_prefix _ _).trans (List.prefix_append _ _)
      · rw [List.mem_singleton.1 hm]
      · rw [show c.writing = false from hf] at hwriting
        cases hwriting
    · have hup : c.connected = false → c.socket.isSome → False := fun hc ho => by
        rw [(hs.broken hc ho).1] at hone
        cases hone
      exact { hs with
        latest := fun k hk => by
          rw [hs.latest k hk, hpeers]
          rfl
        first := fun w' hm k hk' => by
          rw [List.mem_singleton.1 hm] at hk'
          exact hs.first w hmem k hk'
        silent := fun bytes hm => hs.silent bytes (by rw [hpeers]; exact hm)
        broken := fun hc ho => (hup hc ho).elim
        fresh := fun ha ht hst => by
          have := (hs.fresh ha ht hst).1
          rw [hpeers] at this
          cases this
        thread := fun ha hr => by
          have := hs.thread ha hr
          rw [hpeers] at this
          exact this }

/-- A write that fails is the last: nothing clears `writing_`. -/
theorem keep_fail (h : Queued localtime c) (hs : Single c) (hr : c.ioThread = .running) {i : Nat}
    {w : Write} (hi : c.inFlight[i]? = some w) :
    Queued localtime (Client.failed { c with inFlight := c.inFlight.eraseIdx i }) ∧
      Single (Client.failed { c with inFlight := c.inFlight.eraseIdx i }) := by
  obtain ⟨rfl, hone, hwriting, rest, hq⟩ := h.only hi
  obtain ⟨popped, part, hsent, hp, hh, -⟩ := h.order
  rw [hone, List.eraseIdx_cons_zero]
  constructor
  · refine ⟨⟨popped, part, hsent, hp, hh, fun _ hm => by cases hm⟩, .inl rfl, fun hf => ?_⟩
    rw [show c.writing = false from hf] at hwriting
    cases hwriting
  · exact { hs with
      first := fun _ hm => by cases hm
      broken := fun _ _ => ⟨rfl, hwriting⟩
      fresh := fun _ hno => by
        rw [show c.ioThread = .absent from hno] at hr
        cases hr
      told := fun _ => List.getLastD_concat.symm }

theorem Single.readFailed (h : Single c) : Single c.readFailed :=
  { h with
    latest := fun _ hk => by cases hk
    broken := fun _ hs => by cases hs
    closing := fun _ => rfl
    told := fun _ => List.getLastD_concat.symm }

/-! ## Runs -/

theorem keep_act (h : Queued localtime c) (hs : Single c) (ha : c.lifetime = .alive) (e : ClientEvent) :
    Queued localtime (c.act localtime e) ∧ Single (c.act localtime e) := by
  cases e with
  | connect established =>
    simp only [Client.act]
    split_ifs with hd
    · exact ⟨h, hs⟩
    · exact ⟨h.connect established, hs.connect ha (Bool.eq_false_of_not_eq_true hd) established⟩
  | shut =>
    simp only [Client.act]
    split_ifs
    · exact ⟨h, hs⟩
    · exact ⟨h.shut, hs.shut⟩
  | stop => exact ⟨h.stop, hs.stop⟩
  | destroy =>
    simp only [Client.act]
    split_ifs
    · exact ⟨h, hs⟩
    · exact ⟨h.destroy, hs.destroy⟩
  | request r => exact ⟨h.request r, hs.request r⟩
  | post i => exact ⟨h.post i, hs.post i⟩
  | handler =>
    simp only [Client.act]
    split
    · rename_i framedMessage posted hr hp
      exact ⟨h.handler hp, hs.handler h.idle ha hr⟩
    · exact ⟨h, hs⟩
  | transmit i count =>
    simp only [Client.act]
    split
    · rename_i w k hi hk
      split_ifs with hw
      · exact keep_transmit h hs hi hk hw
      · exact ⟨h, hs⟩
    · exact ⟨h, hs⟩
  | succeed i =>
    simp only [Client.act]
    split
    · rename_i w hi
      split_ifs with hw
      · refine ⟨h.succeed hi hw.2.2, ?_⟩
        obtain ⟨rfl, hone, -⟩ := h.only hi
        exact hs.succeed hone ha hw.1
      · exact ⟨h, hs⟩
    · exact ⟨h, hs⟩
  | fail i =>
    simp only [Client.act]
    split
    · rename_i w hi
      split_ifs with hr
      · exact keep_fail h hs hr hi
      · exact ⟨h, hs⟩
    · exact ⟨h, hs⟩
  | readDone =>
    simp only [Client.act]
    split_ifs
    · exact ⟨⟨h.order, h.inFlight, h.idle⟩, { hs with }⟩
    · exact ⟨h, hs⟩
  | readFail =>
    simp only [Client.act]
    split_ifs
    · exact ⟨⟨h.order, h.inFlight, h.idle⟩, hs.readFailed⟩
    · exact ⟨h, hs⟩

theorem keep_step (h : Queued localtime c) (hs : Single c) (e : ClientEvent) :
    Queued localtime (c.step localtime e) ∧ Single (c.step localtime e) := by
  unfold Client.step
  split_ifs with ha
  · exact keep_act h hs ha e
  · exact ⟨h, hs⟩

theorem keep_run (localtime : Int → Tm) (events : List ClientEvent) :
    Queued localtime (Client.run localtime events) ∧ Single (Client.run localtime events) := by
  induction events using List.reverseRecOn with
  | nil => exact ⟨.create, .create⟩
  | append_singleton events e ih =>
    rw [Client.run, List.foldl_concat]
    exact keep_step ih.1 ih.2 e

end OrderbookGC.Connection
