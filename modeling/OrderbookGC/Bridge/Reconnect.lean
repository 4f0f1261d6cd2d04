/-
What the bridge's queue loses across a reconnect, and when it loses nothing. `_handle_disconnect` leaves the write loop
where it is. One that waits in `get()` is resumed by the next message, even if it is sent while the client is not
connected, and writes it to the connection that is gone; one that is still there at the next connection goes on beside
the new one. A run in which neither can happen (`Settled`) writes every message once, in the order of `_send`, from one
loop, and what was sent without a connection to one established later.

The invariant is about the last write loop; the others have ended.
-/
import OrderbookGC.Bridge.TcpClient
import OrderbookGC.Machine.Run

namespace OrderbookGC.Bridge.TcpClient

variable {α : Type}

/-- No queued message is lost. -/
structure Lossless (c : TcpClient α) : Prop where
  /-- At most one write loop has not ended. -/
  one : (c.writeLoops.filter (· ≠ .ended)).length ≤ 1
  /-- The messages are taken once each, in the order of `_send`. -/
  order : c.written.map Written.sent ++ c.writeQueue = c.sent
  /-- What was sent without a connection is written while there is one, which was established after it was sent. -/
  held : ∀ e ∈ c.written, e.sent.connected = false → e.connected = true ∧ e.sent.connections ≤ e.connection
  /-- On a connection, the write loop waits for messages only while there are none. -/
  served : c.connected = true → ∃ w, c.writeLoops.getLast? = some w ∧ w ≠ .ended ∧ (w = .waiting → c.writeQueue = [])

/-- The step leaves no write loop behind: a read loop that finds the connection gone does so while no write loop waits in
`get()`, and a connection is established when the write loops of the earlier ones have ended. -/
def Settled (c : TcpClient α) : Event α → Prop
  | .run _ =>
    match c.ready with
    | .readEnd :: _ => c.connected = true → c.getters = []
    | .connect :: _ => ∀ w ∈ c.writeLoops, w = .ended
    | _ => True
  | _ => True

instance (c : TcpClient α) : ∀ e, Decidable (Settled c e)
  | .run _ =>
    match h : c.ready with
    | .readEnd :: _ => decidable_of_iff (c.connected = true → c.getters = []) (by unfold Settled; rw [h])
    | .connect :: _ => decidable_of_iff (∀ w ∈ c.writeLoops, w = .ended) (by unfold Settled; rw [h])
    | [] | .ws _ :: _ | .rest _ :: _ | .send _ :: _ | .write _ :: _ => isTrue (by unfold Settled; rw [h]; trivial)
  | .connectionMade | .ws _ | .rest _ | .drained .. | .readEnd _ => isTrue trivial

/-! ## The invariant -/

/-- The messages: what is queued is the rest of what was sent. -/
structure Messages (c : TcpClient α) : Prop where
  order : c.written.map Written.sent ++ c.writeQueue = c.sent
  held : ∀ e ∈ c.written, e.sent.connected = false → e.connected = true ∧ e.sent.connections ≤ e.connection
  queued : ∀ x ∈ c.writeQueue, x.connected = false →
    x.connections < c.writeLoops.length ∨ (c.connected = false ∧ x.connections = c.writeLoops.length)

/-- The write loop of the last connection, `k`, stands at `w`. -/
structure Stands (c : TcpClient α) (k : Nat) (w : WriteLoop) : Prop where
  writeLoops : c.writeLoops = List.replicate k .ended ++ [w]
  writer : c.writer = some k
  getters : c.getters = if w = .waiting then [k] else []
  connected : c.connected = true → w ≠ .ended
  offline : c.connected = false → w ≠ .waiting
  waiting : w = .waiting → c.writeQueue = []
  /-- What it was resumed for was sent on the connection. -/
  woken : w = .woken → ∃ x rest, c.writeQueue = x :: rest ∧ x.connected = true

/-- There has been no connection. -/
structure Unconnected (c : TcpClient α) : Prop where
  writeLoops : c.writeLoops = []
  getters : c.getters = []
  connected : c.connected = false

structure Inv (c : TcpClient α) : Prop where
  messages : Messages c
  loops : Unconnected c ∨ ∃ k w, Stands c k w

theorem inv_started : Inv (started : TcpClient α) where
  messages := ⟨rfl, fun _ he => (by cases he), fun _ hx => (by cases hx)⟩
  loops := .inl ⟨rfl, rfl, rfl⟩

theorem set_last (k : Nat) (w w' : WriteLoop) :
    (List.replicate k WriteLoop.ended ++ [w]).set k w' = List.replicate k .ended ++ [w'] := by
  rw [List.set_append_right _ _ (by simp)]
  simp

theorem getElem?_last (k : Nat) (w : WriteLoop) : (List.replicate k WriteLoop.ended ++ [w])[k]? = some w := by
  rw [List.getElem?_append_right (by simp)]
  simp

theorem Inv.lossless {c : TcpClient α} (h : Inv c) : Lossless c where
  one := by
    rcases h.loops with hno | ⟨k, w, hw⟩
    · rw [hno.writeLoops]
      exact Nat.zero_le _
    · rw [hw.writeLoops, List.filter_append, List.filter_replicate_of_neg (by simp), List.nil_append]
      exact List.length_filter_le _ [w]
  order := h.messages.order
  held := h.messages.held
  served hc := by
    rcases h.loops with hno | ⟨k, w, hw⟩
    · rw [hno.connected] at hc
      cases hc
    · refine ⟨w, ?_, hw.connected hc, hw.waiting⟩
      rw [hw.writeLoops]
      exact List.getLast?_concat

/-! ## What the tasks keep -/

section

variable {c : TcpClient α}

/-- The tasks that are ready, and the read loops, are not looked at. -/
theorem Inv.congr {c' : TcpClient α} (h : Inv c) (hconn : c'.connected = c.connected) (hw : c'.writer = c.writer)
    (hl : c'.writeLoops = c.writeLoops) (hq : c'.writeQueue = c.writeQueue) (hg : c'.getters = c.getters)
    (hs : c'.sent = c.sent) (hwr : c'.written = c.written) : Inv c' := by
  refine ⟨⟨?_, ?_, ?_⟩, ?_⟩
  · rw [hwr, hq, hs]; exact h.messages.order
  · rw [hwr]; exact h.messages.held
  · rw [hq, hl, hconn]; exact h.messages.queued
  · rcases h.loops with hno | ⟨k, w, hst⟩
    · exact .inl ⟨hl.trans hno.writeLoops, hg.trans hno.getters, hconn.trans hno.connected⟩
    · refine .inr ⟨k, w, hl.trans hst.writeLoops, hw.trans hst.writer, hg.trans hst.getters, ?_, ?_, ?_, ?_⟩
      · rw [hconn]; exact hst.connected
      · rw [hconn]; exact hst.offline
      · rw [hq]; exact hst.waiting
      · rw [hq]; exact hst.woken

theorem send_eq_of_nil (m : Request α) (hg : c.getters = []) : c.send m =
    { c with
      writeQueue := c.writeQueue ++ [⟨m, c.connected, c.writeLoops.length⟩]
      sent := c.sent ++ [⟨m, c.connected, c.writeLoops.length⟩] } := by
  unfold TcpClient.send put
  dsimp only
  split
  · rfl
  · rename_i h
    rw [hg] at h
    cases h

/-- The message resumes the waiter that came first. -/
theorem send_eq_of_cons (m : Request α) {k : Nat} {getters : List Nat} (hg : c.getters = k :: getters) : c.send m =
    { c with
      writeQueue := c.writeQueue ++ [⟨m, c.connected, c.writeLoops.length⟩]
      sent := c.sent ++ [⟨m, c.connected, c.writeLoops.length⟩]
      getters := getters
      writeLoops := c.writeLoops.set k .woken
      ready := c.ready ++ [.write k] } := by
  unfold TcpClient.send put
  dsimp only
  split
  · rename_i h
    rw [hg] at h
    cases h
  · rename_i h
    rw [hg] at h
    cases h
    rfl

theorem Messages.send (h : Messages c) (m : Request α) : Messages (c.send m) := by
  have hsent : (c.send m).sent = c.sent ++ [⟨m, c.connected, c.writeLoops.length⟩] ∧
      (c.send m).writeQueue = c.writeQueue ++ [⟨m, c.connected, c.writeLoops.length⟩] ∧ (c.send m).written = c.written ∧
      (c.send m).connected = c.connected ∧ (c.send m).writeLoops.length = c.writeLoops.length := by
    cases hg : c.getters with
    | nil =>
      rw [send_eq_of_nil m hg]
      exact ⟨rfl, rfl, rfl, rfl, rfl⟩
    | cons k _ =>
      rw [send_eq_of_cons m hg]
      exact ⟨rfl, rfl, rfl, rfl, List.length_set⟩
  obtain ⟨h1, h2, h3, h4, h5⟩ := hsent
  refine ⟨?_, ?_, ?_⟩
  · rw [h1, h2, h3, ← List.append_assoc, h.order]
  · rw [h3]; exact h.held
  · rw [h2, h4, h5]
    intro x hx hoff
    rcases List.mem_append.1 hx with hx | hx
    · exact h.queued x hx hoff
    · rw [List.mem_singleton.1 hx] at hoff ⊢
      exact .inr ⟨hoff, rfl⟩

theorem Inv.send (h : Inv c) (m : Request α) : Inv (c.send m) := by
  refine ⟨h.messages.send m, ?_⟩
  rcases h.loops with hno | ⟨k, w, hst⟩
  · rw [send_eq_of_nil m hno.getters]
    exact .inl ⟨hno.writeLoops, hno.getters, hno.connected⟩
  · right
    by_cases hwait : w = .waiting
    · -- the loop waits, so the client is connected and the queue is empty
      have hg : c.getters = [k] := by rw [hst.getters, if_pos hwait]
      have hq : c.writeQueue = [] := hst.waiting hwait
      have hconn : c.connected = true := by
        by_contra hno
        exact hst.offline (by simpa using hno) hwait
      rw [send_eq_of_cons m hg, hq, hconn]
      refine ⟨k, .woken, ?_, hst.writer, rfl, fun _ => nofun, fun _ => nofun, nofun, fun _ => ⟨_, [], rfl, rfl⟩⟩
      dsimp only
      rw [hst.writeLoops, set_last]
    · have hg : c.getters = [] := by rw [hst.getters, if_neg hwait]
      rw [send_eq_of_nil m hg]
      refine ⟨k, w, hst.writeLoops, hst.writer, hst.getters, hst.connected, hst.offline, fun hw => absurd hw hwait, fun hw => ?_⟩
      obtain ⟨x, rest, hq, hx⟩ := hst.woken hw
      exact ⟨x, rest ++ [⟨m, c.connected, c.writeLoops.length⟩], by rw [hq]; rfl, hx⟩

theorem Inv.sendAll (h : Inv c) (messages : List (Request α)) : Inv (c.sendAll messages) := by
  unfold TcpClient.sendAll
  induction messages generalizing c with
  | nil => exact h
  | cons m messages ih => exact ih (h.send m)

/-- A disconnect, when no write loop waits. -/
theorem Inv.handleDisconnect (h : Inv c) (hg : c.connected = true → c.getters = []) : Inv c.handleDisconnect := by
  unfold TcpClient.handleDisconnect
  by_cases hconn : c.connected = true
  · rw [if_neg (by rw [hconn]; nofun)]
    refine ⟨⟨h.messages.order, h.messages.held, fun x hx hoff => ?_⟩, ?_⟩
    · exact (h.messages.queued x hx hoff).imp id fun ⟨hno, _⟩ => by rw [hconn] at hno; cases hno
    · rcases h.loops with hno | ⟨k, w, hst⟩
      · exact .inl ⟨hno.writeLoops, hno.getters, rfl⟩
      · have hwait : w ≠ .waiting := fun hw => by
          have := hst.getters
          rw [if_pos hw, hg hconn] at this
          cases this
        exact .inr ⟨k, w, hst.writeLoops, hst.writer, hst.getters, nofun, fun _ => hwait, hst.waiting, hst.woken⟩
  · rw [if_pos (by simpa using hconn)]
    exact h

/-- A connection is established, when the write loops of the earlier ones have ended. -/
theorem Inv.connect (h : Inv c) (args : Args α) (hended : ∀ w ∈ c.writeLoops, w = .ended) : Inv (c.connect args) := by
  have hlen : (c.writeLoops ++ [WriteLoop.created]).length = c.writeLoops.length + 1 := List.length_append
  refine ⟨⟨h.messages.order, h.messages.held, fun x hx hoff => .inl ?_⟩, .inr ⟨c.writeLoops.length, .created, ?_, rfl, ?_,
    fun _ => nofun, nofun, nofun, nofun⟩⟩
  · show x.connections < (c.writeLoops ++ [WriteLoop.created]).length
    rcases h.messages.queued x hx hoff with hlt | ⟨-, heq⟩
    · omega
    · omega
  · show c.writeLoops ++ [WriteLoop.created] = _
    rw [List.eq_replicate_iff.2 ⟨rfl, hended⟩, List.length_replicate]
  · show c.getters = []
    rcases h.loops with hno | ⟨k, w, hst⟩
    · exact hno.getters
    · have hw : w = .ended := hended w (by rw [hst.writeLoops]; simp)
      rw [hst.getters, hw]
      rfl

end

/-! ## The write loop -/

/-- The last write loop runs: it has left the queue of waiters. -/
structure Running (c : TcpClient α) (k : Nat) : Prop where
  messages : Messages c
  writeLoops : ∃ w, c.writeLoops = List.replicate k .ended ++ [w]
  writer : c.writer = some k
  getters : c.getters = []

section

variable {c : TcpClient α} {k : Nat}

theorem Running.length (h : Running c k) : c.writeLoops.length = k + 1 := by
  obtain ⟨w, hw⟩ := h.writeLoops
  rw [hw]
  simp

theorem Running.set (h : Running c k) (w : WriteLoop) : (c.setWriteLoop k w).writeLoops = List.replicate k .ended ++ [w] := by
  obtain ⟨w', hw⟩ := h.writeLoops
  unfold setWriteLoop
  rw [hw]
  exact set_last k w' w

theorem Running.setMessages (h : Running c k) (w : WriteLoop) : Messages (c.setWriteLoop k w) := by
  refine ⟨h.messages.order, h.messages.held, ?_⟩
  rw [h.set, List.length_append, List.length_replicate]
  have hq := h.messages.queued
  rw [h.length] at hq
  exact hq

/-- The loop ends, as the client is not connected. -/
theorem Running.ended (h : Running c k) (hconn : c.connected = false) : Inv (c.setWriteLoop k .ended) := by
  refine ⟨h.setMessages _, .inr ⟨k, .ended, h.set _, h.writer, h.getters, fun hc => ?_, fun _ => nofun, nofun, nofun⟩⟩
  rw [show (c.setWriteLoop k .ended).connected = c.connected from rfl, hconn] at hc
  cases hc

/-- The loop goes on, in or after `drain()`. -/
theorem Running.draining (h : Running c k) {w : WriteLoop} (hw : w = .draining ∨ ∃ ok, w = .drained ok) :
    Inv (c.setWriteLoop k w) := by
  have hne : w ≠ .waiting ∧ w ≠ .ended ∧ w ≠ .woken := by
    rcases hw with rfl | ⟨ok, rfl⟩
    · exact ⟨nofun, nofun, nofun⟩
    · exact ⟨nofun, nofun, nofun⟩
  refine ⟨h.setMessages _, .inr ⟨k, w, h.set _, h.writer, ?_, fun _ => hne.2.1, fun _ => hne.1, fun hw => absurd hw hne.1,
    fun hw => absurd hw hne.2.2⟩⟩
  rw [if_neg hne.1]
  exact h.getters

theorem Running.handleDisconnect (h : Running c k) : Running c.handleDisconnect k ∧ c.handleDisconnect.connected = false := by
  unfold TcpClient.handleDisconnect
  by_cases hconn : c.connected = true
  · rw [if_neg (by rw [hconn]; nofun)]
    refine ⟨⟨⟨h.messages.order, h.messages.held, fun x hx hoff => ?_⟩, h.writeLoops, h.writer, h.getters⟩, rfl⟩
    exact (h.messages.queued x hx hoff).imp id fun ⟨hno, _⟩ => by rw [hconn] at hno; cases hno
  · rw [if_pos (by simpa using hconn)]
    exact ⟨h, by simpa using hconn⟩

/-- One message is written: on the connection, or it was sent on it. -/
theorem Running.write (h : Running c k) {x : Sent α} {rest : List (Sent α)} (hq : c.writeQueue = x :: rest)
    (hx : c.connected = true ∨ x.connected = true) :
    Running { c with writeQueue := rest, written := c.written ++ [⟨k, c.connected, x⟩] } k := by
  refine ⟨⟨?_, ?_, ?_⟩, h.writeLoops, h.writer, h.getters⟩
  · have horder := h.messages.order
    rw [hq] at horder
    dsimp only
    rw [List.map_append, List.append_assoc]
    exact horder
  · intro e he hoff
    rcases List.mem_append.1 he with he | he
    · exact h.messages.held e he hoff
    · rw [List.mem_singleton.1 he] at hoff ⊢
      have hconn : c.connected = true := hx.resolve_right (by rw [show x.connected = false from hoff]; nofun)
      refine ⟨hconn, ?_⟩
      rcases h.messages.queued x (by rw [hq]; exact List.mem_cons_self ..) hoff with hlt | ⟨hno, -⟩
      · rw [h.length] at hlt
        exact Nat.le_of_lt_succ hlt
      · rw [hconn] at hno
        cases hno
  · exact fun y hy hoff => h.messages.queued y (by rw [hq]; exact List.mem_cons_of_mem _ hy) hoff

/-- The loop from its `get()` on, while the client is connected or for a message that was sent on the connection. -/
theorem Running.get : ∀ (drains : List Bool) {c : TcpClient α}, Running c k →
    (c.connected = true ∨ ∃ x rest, c.writeQueue = x :: rest ∧ x.connected = true) → Inv (c.get k drains)
  | drains, c, h, hor => by
    cases hq : c.writeQueue with
    | nil =>
      have hconn : c.connected = true := hor.resolve_right (by rintro ⟨x, rest, hx, -⟩; rw [hq] at hx; cases hx)
      rw [get_of_nil k drains hq]
      have hm := h.setMessages .waiting
      refine ⟨⟨hm.order, hm.held, hm.queued⟩, .inr ⟨k, .waiting, h.set _, h.writer, ?_, fun _ => nofun, fun hc => ?_, fun _ => hq, nofun⟩⟩
      · show c.getters ++ [k] = [k]
        rw [h.getters]
        rfl
      · have hno : c.connected = false := hc
        rw [hconn] at hno
        cases hno
    | cons x rest =>
      have hx : c.connected = true ∨ x.connected = true := by
        refine hor.imp_right ?_
        rintro ⟨y, rest', hy, hc⟩
        rw [hq] at hy
        cases hy
        exact hc
      have hwritten := h.write hq hx
      rw [get_of_cons k drains hq h.writer]
      cases drains with
      | nil => exact hwritten.draining (.inl rfl)
      | cons ok drains =>
        cases ok with
        | true =>
          dsimp only
          split_ifs with hconn
          · exact Running.get drains hwritten (.inl hconn)
          · exact hwritten.ended (by simpa using hconn)
        | false => exact hwritten.handleDisconnect.1.ended hwritten.handleDisconnect.2

theorem Running.whileConnected (h : Running c k) (drains : List Bool) : Inv (c.whileConnected k drains) := by
  unfold TcpClient.whileConnected
  split_ifs with hconn
  · exact h.get drains (.inl hconn)
  · exact h.ended (by simpa using hconn)

end

theorem Stands.running {c : TcpClient α} {k : Nat} {w : WriteLoop} (h : Stands c k w) (hm : Messages c) (hw : w ≠ .waiting) :
    Running c k :=
  ⟨hm, ⟨w, h.writeLoops⟩, h.writer, by rw [h.getters, if_neg hw]⟩

/-- The write loops before the last have ended. -/
theorem Stands.ended_of_ne {c : TcpClient α} {n k : Nat} {w : WriteLoop} (h : Stands c n w) (hk : k ≠ n) :
    c.writeLoops[k]? = some .ended ∨ c.writeLoops[k]? = none := by
  rw [h.writeLoops]
  rcases Nat.lt_or_ge k n with hlt | hge
  · left
    rw [List.getElem?_append_left (by simpa using hlt), List.getElem?_replicate_of_lt hlt]
  · right
    rw [List.getElem?_eq_none_iff]
    simp
    omega

theorem Inv.writeLoop {c : TcpClient α} (h : Inv c) (k : Nat) (drains : List Bool) : Inv (c.writeLoop k drains) := by
  unfold TcpClient.writeLoop
  rcases h.loops with hno | ⟨n, w, hst⟩
  · rw [hno.writeLoops]
    exact h
  · by_cases hk : k = n
    · subst hk
      rw [hst.writeLoops, getElem?_last]
      cases w with
      | created => exact (hst.running h.messages nofun).whileConnected drains
      | woken => exact (hst.running h.messages nofun).get drains (.inr (hst.woken rfl))
      | drained ok =>
        have hrun := hst.running h.messages nofun
        cases ok with
        | true => exact hrun.whileConnected drains
        | false => exact hrun.handleDisconnect.1.ended hrun.handleDisconnect.2
      | waiting => exact h
      | draining => exact h
      | ended => exact h
    · rcases hst.ended_of_ne hk with hother | hother
      · rw [hother]; exact h
      · rw [hother]; exact h

theorem Inv.drained {c : TcpClient α} (h : Inv c) {k : Nat} (ok : Bool) (hk : c.writeLoops[k]? = some .draining) :
    Inv (c.setWriteLoop k (.drained ok)) := by
  rcases h.loops with hno | ⟨n, w, hst⟩
  · rw [hno.writeLoops] at hk
    cases hk
  · by_cases hn : k = n
    · subst hn
      rw [hst.writeLoops, getElem?_last] at hk
      cases hk
      exact (hst.running h.messages nofun).draining (.inr ⟨ok, rfl⟩)
    · rcases hst.ended_of_ne hn with hother | hother
      · rw [hother] at hk; cases hk
      · rw [hother] at hk; cases hk

/-! ## Runs -/

theorem Inv.runTask {c : TcpClient α} (h : Inv c) (args : Args α) (drains : List Bool) {t : Task α}
    (hend : t = .readEnd → c.connected = true → c.getters = [])
    (hconnect : t = .connect → ∀ w ∈ c.writeLoops, w = .ended) : Inv (c.runTask args drains t) := by
  cases t with
  | connect => exact h.connect args (hconnect rfl)
  | ws command => exact h.sendAll _
  | rest request =>
    show Inv (if c.connected then c.send (handleRest args request) else c)
    split_ifs
    · exact h.send _
    · exact h
  | send messages => exact h.sendAll messages
  | write k => exact h.writeLoop k drains
  | readEnd => exact h.handleDisconnect (hend rfl)

theorem Inv.step {c : TcpClient α} (h : Inv c) (args : Args α) {e : Event α} (hs : Settled c e) : Inv (c.step args e) := by
  cases e with
  | connectionMade =>
    unfold TcpClient.step
    dsimp only
    split_ifs
    · exact h.congr rfl rfl rfl rfl rfl rfl rfl
    · exact h
  | ws command => exact h.congr rfl rfl rfl rfl rfl rfl rfl
  | rest request => exact h.congr rfl rfl rfl rfl rfl rfl rfl
  | drained k ok =>
    unfold TcpClient.step
    dsimp only
    split_ifs with hk
    · exact (h.drained ok hk).congr rfl rfl rfl rfl rfl rfl rfl
    · exact h
  | readEnd k =>
    unfold TcpClient.step
    dsimp only
    split_ifs
    · exact h.congr rfl rfl rfl rfl rfl rfl rfl
    · exact h
  | run drains =>
    unfold TcpClient.step
    dsimp only
    unfold Settled at hs
    dsimp only at hs
    cases hr : c.ready with
    | nil => exact h
    | cons t ready =>
      rw [hr] at hs
      have hc : Inv { c with ready } := h.congr rfl rfl rfl rfl rfl rfl rfl
      refine hc.runTask args drains (fun ht => ?_) (fun ht => ?_)
      · subst ht; exact hs
      · subst ht; exact hs

/-- A run whose steps are all settled loses no message. -/
theorem run_lossless (args : Args α) (events : List (Event α))
    (h : Machine.Along (fun c e => some (c.step args e)) Settled started events) :
    ∀ pre, pre <+: events → Lossless (run args pre) := by
  rintro pre ⟨post, rfl⟩
  have hinv : Inv (run args pre) := h.left.foldl (fun _ _ hc hs => hc.step args hs) inv_started
  exact hinv.lossless

/-- A bridge without a login. -/
def sampleArgs : Args Char := ⟨[], [], [['A']], []⟩

/-- A write fails, which the write loop finds itself; the next command waits for the next connection. -/
def failedWrite : List (Event Char) :=
  [.connectionMade, .run [], .run [], .ws (.requestSnapshot ['A']), .run [], .run [false], .ws (.requestSnapshot ['B']),
    .run [], .connectionMade, .run [], .run [true]]

theorem run_lossless_failedWrite : Lossless (run sampleArgs failedWrite) ∧
    (run sampleArgs failedWrite).written.map (fun e => (e.connection, e.sent.connected)) = [(0, true), (1, false)] :=
  ⟨run_lossless sampleArgs failedWrite (by decide) failedWrite List.prefix_rfl, rfl⟩

/-- The read loop finds the connection closed while the write loop waits for a message, and the next command goes to the
closed connection. -/
theorem closedConnection_loses : ¬ Lossless (run sampleArgs
    [.connectionMade, .run [], .run [], .readEnd 0, .run [], .ws (.requestSnapshot ['B']), .run [], .run []]) := by
  intro h
  have hheld := (h.held ⟨0, false, ⟨.snapshotRequest ⟨['B']⟩, false, 1⟩⟩ (List.mem_singleton.2 rfl) rfl).1
  cases hheld

end OrderbookGC.Bridge.TcpClient
