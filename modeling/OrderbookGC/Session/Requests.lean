/-
What becomes of the requests made through a `Client`. While its first connection lasts the server reads them, once and
in order; a client whose connection is lost is of no more use, for the io thread is joined and the context stopped only
by `disconnect`, and nothing restarts the context.
-/
import OrderbookGC.Session.Client

namespace OrderbookGC.Connection

open Framing (frameMessage)
open Text Wire

variable {localtime : Int → Tm} {c : Client}

/-! ## What the server reads -/

/-- The server parses the request that was made. -/
theorem Request.parse_text (localtime : Int → Tm) (read : List UInt8 → Int) (r : Request) (h : r.message.Fits) :
    (parseMessage read (r.text localtime)).untimed = r.message := by
  unfold Request.text
  cases r with
  | submitOrder clientId symbol side price quantity =>
    exact congrArg Message.untimed (OrderSubmitMessage.parse_serialize read _ h.1 h.2.1 h.2.2.1 h.2.2.2)
  | cancelOrder orderId clientId =>
    exact congrArg Message.untimed (OrderCancelMessage.parse_serialize read _ h.1 h.2)
  | requestOrderbookSnapshot symbol =>
    exact congrArg Message.untimed (SnapshotRequestMessage.parse_serialize read _ h)
  | requestOrderStatus orderId clientId =>
    exact congrArg Message.untimed
      (OrderStatusMessage.parse_serialize localtime read _ h.1 h.2.1 h.2.2.1 h.2.2.2.1 h.2.2.2.2)

/-- The bytes handed over are a part of the frames of the requests posted, and all of them when nothing waits. -/
theorem Queued.handed (h : Queued localtime c) :
    c.peers.headD [] <+: (c.sent.map (Request.text localtime)).flatMap frameMessage ∧
      (c.writeQueue = [] → c.posted = [] →
        c.peers.headD [] = (c.sent.map (Request.text localtime)).flatMap frameMessage) := by
  obtain ⟨popped, part, hs, hp, hh, -⟩ := h.order
  have hframes : (c.sent.map (Request.text localtime)).flatMap frameMessage =
      popped.flatten ++ (c.writeQueue ++ c.posted).flatten := by
    rw [← List.flatten_append, ← List.append_assoc, ← hs, List.flatMap_map]
    rfl
  rw [hframes, hh, List.prefix_append_right_inj]
  refine ⟨hp.trans (by rw [List.flatten_append]; exact List.prefix_append _ _), fun hq hposted => ?_⟩
  rw [hq] at hp ⊢
  rw [hposted, List.prefix_nil.1 hp]
  rfl

/-- A clock that stands still. -/
def stillClock : Int → Tm := fun _ => ⟨1970, 1, 1, 0, 0, 0⟩

/-- A client connects, asks for a snapshot and cancels an order; the first request is written, and a part of the
second. -/
def sampleEvents : List ClientEvent :=
  [.connect true, .request (.requestOrderbookSnapshot [65]), .request (.cancelOrder [66] [67]), .post 0, .post 0,
    .handler, .handler, .transmit 0 100, .succeed 0, .transmit 0 3]

/-- The client has had a connection and has none that its io thread serves. -/
def Lost (c : Client) : Prop := c.peers ≠ [] ∧ ¬ (c.connected = true ∧ c.socket = some 0)

/-- A step that opens no connection and hands nothing over does not find the one that is lost. -/
theorem Lost.of_frame {c' : Client} (h : Lost c) (hp : c'.peers = c.peers) (hc : c'.connected = true → c.connected = true)
    (hs : c'.socket = some 0 → c.socket = some 0) : Lost c' ∧ ∃ m, c'.peers = c.peers ++ List.replicate m [] :=
  ⟨⟨by rw [hp]; exact h.1, fun ⟨hc', hs'⟩ => h.2 ⟨hc hc', hs hs'⟩⟩, 0, by rw [hp]; exact (List.append_nil _).symm⟩

theorem Lost.connect (h : Lost c) (established : Bool) : Lost (c.connect established) ∧
    ∃ m, (c.connect established).peers = c.peers ++ List.replicate m [] := by
  have hne : (some c.peers.length : Option Nat) ≠ some 0 := fun heq =>
    h.1 (List.eq_nil_of_length_eq_zero (Option.some.inj heq))
  rcases c.connect_cases established with heq | heq | ⟨-, heq⟩ | ⟨-, heq⟩ <;> rw [heq]
  · exact h.of_frame rfl id id
  · exact h.of_frame rfl id fun hs => by cases hs
  · exact ⟨⟨List.concat_ne_nil _ _, fun hs => hne hs.2⟩, 1, rfl⟩
  · exact ⟨⟨List.concat_ne_nil _ _, fun hs => hne hs.2⟩, 1, rfl⟩

/-- A step that only moves frames. -/
structure Moves (c c' : Client) : Prop where
  peers : c'.peers = c.peers
  connected : c'.connected = c.connected
  socket : c'.socket = c.socket
  ioThread : c'.ioThread = c.ioThread
  disconnecting : c'.disconnecting = c.disconnecting
  lifetime : c'.lifetime = c.lifetime

theorem moves_handler (c : Client) (framedMessage : List UInt8) : Moves c (c.handler framedMessage) := by
  unfold Client.handler Client.doWriteNext
  dsimp only
  split
  · split <;> exact ⟨rfl, rfl, rfl, rfl, rfl, rfl⟩
  · exact ⟨rfl, rfl, rfl, rfl, rfl, rfl⟩

theorem moves_succeeded (c : Client) : Moves c c.succeeded := by
  unfold Client.succeeded Client.doWriteNext
  dsimp only
  split
  · exact ⟨rfl, rfl, rfl, rfl, rfl, rfl⟩
  · split <;> exact ⟨rfl, rfl, rfl, rfl, rfl, rfl⟩

theorem moves_request (c : Client) (r : Request) : Moves c (c.request r) := by
  unfold Client.request
  split_ifs <;> exact ⟨rfl, rfl, rfl, rfl, rfl, rfl⟩

theorem moves_post (c : Client) (i : Nat) : Moves c (c.post localtime i) := by
  unfold Client.post
  split <;> exact ⟨rfl, rfl, rfl, rfl, rfl, rfl⟩

theorem Lost.moves {c' : Client} (h : Lost c) (hm : Moves c c') :
    Lost c' ∧ ∃ m, c'.peers = c.peers ++ List.replicate m [] :=
  h.of_frame hm.peers hm.connected.symm.trans hm.socket.symm.trans

theorem shut_frame (c : Client) : c.shut.peers = c.peers ∧ (c.shut.connected = true → c.connected = true) ∧
    (c.shut.socket = some 0 → c.socket = some 0) := by
  unfold Client.shut
  split_ifs
  · exact ⟨rfl, id, id⟩
  · exact ⟨rfl, id, fun hs => by cases hs⟩

theorem stop_frame (c : Client) : c.stop.peers = c.peers ∧ (c.stop.connected = true → c.connected = true) ∧
    c.stop.socket = c.socket := by
  unfold Client.stop
  split_ifs
  · exact ⟨rfl, (fun hc => by cases hc), rfl⟩
  · exact ⟨rfl, id, rfl⟩

/-- What was lost stays lost, and connections made since are handed nothing. -/
theorem Lost.act (h : Lost c) (hs : Single c) (localtime : Int → Tm) (e : ClientEvent) : Lost (c.act localtime e) ∧
    ∃ m, (c.act localtime e).peers = c.peers ++ List.replicate m [] := by
  have same := h.of_frame rfl id id
  cases e with
  | connect established =>
    simp only [Client.act]
    split_ifs
    · exact same
    · exact h.connect established
  | shut =>
    simp only [Client.act]
    obtain ⟨hp, hc, hk⟩ := shut_frame c
    split_ifs
    · exact same
    · exact h.of_frame hp hc hk
  | stop =>
    obtain ⟨hp, hc, hk⟩ := stop_frame c
    exact h.of_frame hp hc hk.symm.trans
  | destroy =>
    simp only [Client.act]
    obtain ⟨hp, hc, hk⟩ := shut_frame c
    obtain ⟨hp', hc', hk'⟩ := stop_frame c.shut
    split_ifs
    · exact same
    · exact h.of_frame (hp'.trans hp) (fun hd => hc (hc' hd)) fun hd => hk (hk'.symm.trans hd)
  | request r => exact h.moves (moves_request c r)
  | post i => exact h.moves (moves_post c i)
  | handler =>
    simp only [Client.act]
    split
    · rename_i framedMessage posted _ _
      exact h.moves { moves_handler { c with posted := posted } framedMessage with }
    · exact same
  | transmit i count =>
    simp only [Client.act]
    split
    · rename_i w k hi hk
      split_ifs with hw
      · -- the write is on the first connection, whose socket is open: a write has failed, and none is in flight
        have hm := List.mem_of_getElem? hi
        obtain rfl := hs.first w hm k hw
        have hbroken := hs.broken (Bool.eq_false_of_not_eq_true fun hc => h.2 ⟨hc, hk⟩) (by rw [hk]; rfl)
        rw [hbroken.1] at hm
        cases hm
      · exact same
    · exact same
  | succeed i =>
    simp only [Client.act]
    split
    · split_ifs
      · exact h.moves { moves_succeeded { c with inFlight := c.inFlight.eraseIdx i } with }
      · exact same
    · exact same
  | fail i =>
    simp only [Client.act]
    split
    · split_ifs
      · exact h.of_frame rfl (fun hc => by cases hc) id
      · exact same
    · exact same
  | readDone =>
    simp only [Client.act]
    split_ifs
    · exact h.of_frame rfl id id
    · exact same
  | readFail =>
    simp only [Client.act]
    split_ifs
    · exact h.of_frame rfl (fun hc => by cases hc) (fun hk => by cases hk)
    · exact same

/-- The connection has failed, and no disconnect is under way: the io thread is in `run()`, and only `disconnect`
joins it. -/
def Failed (c : Client) : Prop :=
  c.lifetime = .terminated ∨
    c.lifetime = .alive ∧ c.ioThread = .running ∧ c.connected = false ∧ c.disconnecting = false

/-- `disconnect` returns at once, `connect` and the destructor meet a thread that is joinable. -/
theorem Failed.act (h : Failed c) (ha : c.lifetime = .alive) (e : ClientEvent) : Failed (c.act localtime e) := by
  have same := h
  obtain ⟨-, hr, hc, hd⟩ := h.resolve_left fun ht => by rw [ha] at ht; cases ht
  have moves : ∀ {c'}, Moves c c' → Failed c' := fun hm =>
    .inr ⟨hm.lifetime.trans ha, hm.ioThread.trans hr, hm.connected.trans hc, hm.disconnecting.trans hd⟩
  have hshut : c.shut = c := if_pos (by rw [hc]; rfl)
  have hstop : c.stop = c := if_neg (by rw [hd]; exact Bool.false_ne_true)
  cases e with
  | connect established =>
    simp only [Client.act, hd, Bool.false_eq_true, if_false]
    rcases c.connect_cases established with heq | heq | ⟨-, heq⟩ | ⟨ht, -⟩
    · rw [heq]
      exact same
    · rw [heq]
      exact .inr ⟨ha, hr, hc, hd⟩
    · rw [heq]
      exact .inl rfl
    · rw [hr] at ht
      cases ht
  | shut =>
    simp only [Client.act, hd, Bool.false_eq_true, if_false, hshut]
    exact same
  | stop =>
    simp only [Client.act, hstop]
    exact same
  | destroy =>
    simp only [Client.act]
    split_ifs
    · exact same
    · refine .inl ?_
      unfold Client.destroy
      rw [hshut, hstop]
      exact if_pos fun hn => by cases hr.symm.trans hn
  | request r => exact moves (moves_request c r)
  | post i => exact moves (moves_post c i)
  | handler =>
    simp only [Client.act]
    split
    · rename_i framedMessage posted _ _
      exact moves { moves_handler { c with posted := posted } framedMessage with }
    · exact same
  | transmit i count =>
    simp only [Client.act]
    split
    · split_ifs
      · exact .inr ⟨ha, hr, hc, hd⟩
      · exact same
    · exact same
  | succeed i =>
    simp only [Client.act]
    split
    · split_ifs
      · exact moves { moves_succeeded { c with inFlight := c.inFlight.eraseIdx i } with }
      · exact same
    · exact same
  | fail i =>
    simp only [Client.act]
    split
    · rw [if_pos hr]
      exact .inr ⟨ha, hr, rfl, hd⟩
    · exact same
  | readDone =>
    simp only [Client.act]
    split_ifs
    · exact .inr ⟨ha, hr, hc, hd⟩
    · exact same
  | readFail =>
    simp only [Client.act]
    split_ifs
    · exact .inr ⟨ha, hr, rfl, hd⟩
    · exact same

theorem run_append (events more : List ClientEvent) :
    Client.run localtime (events ++ more) = more.foldl (Client.step localtime) (Client.run localtime events) :=
  List.foldl_append ..

end OrderbookGC.Connection
