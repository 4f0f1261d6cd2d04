/-
When the first frame on each connection of the bridge is a LOGIN. `on_connect` puts the login behind what is in the queue
already, and the queue is not emptied when a connection is lost: a browser's command that comes while the client is not
connected is written before the login of the next connection. The messages that are still to be written, `upcoming`, are
written in their order, so all that counts is which of them comes first when a connection is established.
-/
import OrderbookGC.Bridge.TcpClient
import OrderbookGC.Machine.Run

namespace OrderbookGC.Bridge

variable {α : Type}

def Request.isLogin : Request α → Bool
  | .login _ => true
  | .orderSubmit _ | .orderCancel _ | .snapshotRequest _ | .register _ => false

/-- The messages a ready task will pass to `_send`. -/
def Task.messages (args : Args α) : Task α → List (Request α)
  | .ws command => TcpClient.handleWsCommand args command
  | .rest request => [TcpClient.handleRest args request]
  | .send messages => messages
  | .connect | .write _ | .readEnd => []

namespace TcpClient

/-- The first message written on each connection is a LOGIN. -/
def LoginFirst (c : TcpClient α) : Prop :=
  ∀ n e, c.written.find? (fun e => decide (e.connection = n)) = some e → e.sent.message.isLogin = true

/-- The queued messages, and those of the tasks that are ready. -/
def upcoming (args : Args α) (c : TcpClient α) : List (Request α) :=
  c.writeQueue.map Sent.message ++ c.ready.flatMap (Task.messages args)

/-- When a connection is established, the oldest message still to be written is a LOGIN, or there is none. -/
def Fresh (args : Args α) (c : TcpClient α) : Event α → Prop
  | .run _ =>
    match c.ready with
    | .connect :: _ => ∀ m ∈ (upcoming args c).head?, m.isLogin = true
    | _ => True
  | _ => True

instance (args : Args α) (c : TcpClient α) : ∀ e, Decidable (Fresh args c e)
  | .run _ =>
    match h : c.ready with
    | .connect :: _ => decidable_of_iff (∀ m ∈ (upcoming args c).head?, m.isLogin = true) (by unfold Fresh; rw [h])
    | [] | .readEnd :: _ | .ws _ :: _ | .rest _ :: _ | .send _ :: _ | .write _ :: _ =>
      isTrue (by unfold Fresh; rw [h]; trivial)
  | .connectionMade | .ws _ | .rest _ | .drained .. | .readEnd _ => isTrue trivial

/-! ## The invariant -/

/-- Nothing has been written on the connection. -/
def Unwritten (c : TcpClient α) (n : Nat) : Prop := ∀ e ∈ c.written, e.connection ≠ n

structure Greeting (args : Args α) (c : TcpClient α) : Prop where
  first : LoginFirst c
  /-- The writer belongs to an established connection, and so did the earlier ones. -/
  writer : ∀ w, c.writer = some w → w < c.writeLoops.length
  known : ∀ e ∈ c.written, e.connection < c.writeLoops.length
  next : ∀ w, c.writer = some w → Unwritten c w → ∃ m, (upcoming args c).head? = some m ∧ m.isLogin = true

theorem greeting_started (args : Args α) : Greeting args (started : TcpClient α) :=
  ⟨fun _ _ h => (by cases h), fun _ h => (by cases h), fun _ h => (by cases h), fun _ h => (by cases h)⟩

section

variable {args : Args α} {c c' : TcpClient α}

theorem head?_of_prefix {l l' : List (Request α)} {m : Request α} (hl : l <+: l') (hm : l.head? = some m) :
    l'.head? = some m := by
  obtain ⟨t, rfl⟩ := hl
  cases l with
  | nil => cases hm
  | cons _ _ => exact hm

/-- Messages may join at the end. -/
theorem Greeting.congr (h : Greeting args c) (hw : c'.writer = c.writer) (hl : c'.writeLoops.length = c.writeLoops.length)
    (hwr : c'.written = c.written) (hup : upcoming args c <+: upcoming args c') : Greeting args c' := by
  refine ⟨?_, ?_, ?_, fun w hc hno => ?_⟩
  · unfold LoginFirst
    rw [hwr]
    exact h.first
  · rw [hw, hl]; exact h.writer
  · rw [hwr, hl]; exact h.known
  · rw [hw] at hc
    unfold Unwritten at hno
    rw [hwr] at hno
    obtain ⟨m, hm, hlogin⟩ := h.next w hc hno
    exact ⟨m, head?_of_prefix hup hm, hlogin⟩

theorem upcoming_schedule (tasks : List (Task α)) :
    upcoming args (c.schedule tasks) = upcoming args c ++ tasks.flatMap (Task.messages args) := by
  unfold upcoming schedule
  rw [List.flatMap_append, List.append_assoc]

theorem Greeting.schedule (h : Greeting args c) (tasks : List (Task α)) : Greeting args (c.schedule tasks) :=
  h.congr rfl rfl rfl (by rw [upcoming_schedule]; exact List.prefix_append ..)

/-- The loops may move, and their ends be noticed. -/
theorem Greeting.setWriteLoop (h : Greeting args c) (k : Nat) (w : WriteLoop) : Greeting args (c.setWriteLoop k w) :=
  h.congr rfl List.length_set rfl List.prefix_rfl

theorem Greeting.handleDisconnect (h : Greeting args c) : Greeting args c.handleDisconnect := by
  unfold TcpClient.handleDisconnect
  split_ifs
  · exact h
  · exact h.congr rfl rfl rfl List.prefix_rfl

/-! ## Sending -/

/-- What `_send` does, as far as the order of the messages goes. -/
theorem send_frame (args : Args α) (c : TcpClient α) (m : Request α) : (c.send m).writer = c.writer ∧ (c.send m).writeLoops.length = c.writeLoops.length ∧
    (c.send m).written = c.written ∧ (c.send m).writeQueue.map Sent.message = c.writeQueue.map Sent.message ++ [m] ∧
    (c.send m).ready.flatMap (Task.messages args) = c.ready.flatMap (Task.messages args) := by
  unfold TcpClient.send put
  dsimp only
  split
  · exact ⟨rfl, rfl, rfl, List.map_append, rfl⟩
  · refine ⟨rfl, List.length_set, rfl, List.map_append, ?_⟩
    show (c.ready ++ [Task.write _]).flatMap _ = _
    rw [List.flatMap_append]
    exact List.append_nil _

theorem sendAll_frame (args : Args α) (messages : List (Request α)) : ∀ (c : TcpClient α), (c.sendAll messages).writer = c.writer ∧
    (c.sendAll messages).writeLoops.length = c.writeLoops.length ∧ (c.sendAll messages).written = c.written ∧
    upcoming args (c.sendAll messages) =
      c.writeQueue.map Sent.message ++ messages ++ c.ready.flatMap (Task.messages args) := by
  unfold sendAll
  induction messages with
  | nil =>
    intro c
    refine ⟨rfl, rfl, rfl, ?_⟩
    rw [List.append_nil]
    rfl
  | cons m messages ih =>
    intro c
    obtain ⟨h1, h2, h3, h4, h5⟩ := send_frame args c m
    obtain ⟨i1, i2, i3, i4⟩ := ih (c.send m)
    refine ⟨i1.trans h1, i2.trans h2, i3.trans h3, i4.trans ?_⟩
    rw [h4, h5, List.append_assoc _ [m]]
    rfl

/-- A task passes its messages to `_send`. -/
theorem Greeting.sendAll {ready : List (Task α)} {t : Task α} (h : Greeting args c) (hr : c.ready = t :: ready) :
    Greeting args ({ c with ready }.sendAll (t.messages args)) := by
  obtain ⟨h1, h2, h3, h4⟩ := sendAll_frame args (t.messages args) { c with ready }
  have hup : upcoming args ({ c with ready }.sendAll (t.messages args)) = upcoming args c := by
    unfold upcoming at h4 ⊢
    rw [h4, hr, List.flatMap_cons, List.append_assoc]
  exact h.congr h1 h2 h3 (hup ▸ List.prefix_rfl)

/-- A REST request that is refused was not the one to come first. -/
theorem Greeting.refused {ready : List (Task α)} {r : RestRequest α} (h : Greeting args c) (hr : c.ready = .rest r :: ready) :
    Greeting args { c with ready } := by
  refine ⟨h.first, h.writer, h.known, fun w hw hno => ?_⟩
  obtain ⟨m, hm, hlogin⟩ := h.next w hw hno
  unfold upcoming at hm ⊢
  rw [hr] at hm
  cases hq : c.writeQueue with
  | nil =>
    -- an order is no login
    rw [hq] at hm
    cases hm
    cases r with
    | submitOrder => cases hlogin
    | cancelOrder => cases hlogin
  | cons x rest =>
    rw [hq] at hm
    exact ⟨m, hm, hlogin⟩

/-! ## Connections -/

/-- The futures of `on_connect` begin with the login. -/
theorem onConnect_head (hargs : args.username.isEmpty = false) :
    ∃ m, ((onConnect args).flatMap (Task.messages args)).head? = some m ∧ m.isLogin = true := by
  unfold onConnect login
  simp only [hargs, Bool.false_eq_true, if_false]
  exact ⟨_, rfl, rfl⟩

theorem Greeting.connect {ready : List (Task α)} (h : Greeting args c) (hargs : args.username.isEmpty = false)
    (hr : c.ready = .connect :: ready) (hfresh : ∀ m ∈ (upcoming args c).head?, m.isLogin = true) :
    Greeting args ({ c with ready }.connect args) := by
  have hlen : (c.writeLoops ++ [WriteLoop.created]).length = c.writeLoops.length + 1 := List.length_append
  have hup : upcoming args ({ c with ready }.connect args) = upcoming args c ++ (onConnect args).flatMap (Task.messages args) := by
    unfold upcoming TcpClient.connect
    rw [hr]
    simp [Task.messages]
  refine ⟨h.first, fun w hw => ?_, fun e he => ?_, fun w hw hno => ?_⟩
  · cases hw
    exact hlen ▸ Nat.lt_succ_self _
  · exact hlen ▸ Nat.lt_succ_of_lt (h.known e he)
  · rw [hup]
    cases hhead : upcoming args c with
    | nil => exact onConnect_head hargs
    | cons m l => exact ⟨m, rfl, hfresh m (by rw [hhead]; rfl)⟩

/-! ## The write loop -/

/-- The oldest message is written. -/
theorem Greeting.write (h : Greeting args c) {x : Sent α} {rest : List (Sent α)} {w : Nat} (hq : c.writeQueue = x :: rest)
    (hw : c.writer = some w) :
    Greeting args { c with writeQueue := rest, written := c.written ++ [⟨w, c.connected, x⟩] } := by
  have hmem : ∀ e ∈ c.written ++ [(⟨w, c.connected, x⟩ : Written α)], e ∈ c.written ∨ e = ⟨w, c.connected, x⟩ := fun e he =>
    (List.mem_append.1 he).imp_right List.mem_singleton.1
  refine ⟨fun n e he => ?_, h.writer, fun e he => ?_, fun w' hw' hno => ?_⟩
  · replace he : (c.written ++ [(⟨w, c.connected, x⟩ : Written α)]).find? (fun e => decide (e.connection = n)) = some e := he
    rw [List.find?_append] at he
    cases hold : c.written.find? fun e => decide (e.connection = n) with
    | some e' =>
      rw [hold] at he
      cases he
      exact h.first n e hold
    | none =>
      rw [hold, Option.none_or] at he
      have heq : e = ⟨w, c.connected, x⟩ := List.mem_singleton.1 (List.mem_of_find?_eq_some he)
      have hn : w = n := by simpa [heq] using List.find?_some he
      have hunwritten : Unwritten c w := fun e he hw => by
        rw [List.find?_eq_none] at hold
        exact hold e he (by simp [hw, hn])
      obtain ⟨m, hm, hlogin⟩ := h.next w hw hunwritten
      unfold upcoming at hm
      rw [hq] at hm
      cases hm
      rw [heq]
      exact hlogin
  · rcases hmem e he with he | rfl
    · exact h.known e he
    · exact h.writer w hw
  · have hw' : c.writer = some w' := hw'
    rw [hw] at hw'
    cases hw'
    exact absurd rfl (hno ⟨w, c.connected, x⟩ (List.mem_append_right _ (List.mem_singleton.2 rfl)))

end

theorem Greeting.get {args : Args α} (k : Nat) : ∀ (drains : List Bool) {c : TcpClient α}, Greeting args c →
    Greeting args (c.get k drains)
  | drains, c, h => by
    cases hq : c.writeQueue with
    | nil =>
      rw [get_of_nil k drains hq]
      exact (h.setWriteLoop k .waiting).congr rfl rfl rfl List.prefix_rfl
    | cons x rest =>
      cases hw : c.writer with
      | none =>
        -- no connection has been established, and the message is dropped
        rw [get.eq_def]
        simp only [hq, hw]
        refine ⟨h.first, fun w hc => ?_, fun e he => ?_, fun w hc => ?_⟩
        · cases hc
        · exact List.length_set.symm ▸ h.known e he
        · cases hc
      | some w =>
        have hwritten := h.write hq hw
        rw [get_of_cons k drains hq hw]
        cases drains with
        | nil => exact hwritten.setWriteLoop k _
        | cons ok drains =>
          cases ok with
          | true =>
            dsimp only
            split_ifs
            · exact Greeting.get k drains hwritten
            · exact hwritten.setWriteLoop k _
          | false => exact hwritten.handleDisconnect.setWriteLoop k _

theorem Greeting.writeLoop {args : Args α} {c : TcpClient α} (h : Greeting args c) (k : Nat) (drains : List Bool) :
    Greeting args (c.writeLoop k drains) := by
  have hhead : Greeting args (c.whileConnected k drains) := by
    unfold whileConnected
    split_ifs
    · exact h.get k drains
    · exact h.setWriteLoop k _
  unfold TcpClient.writeLoop
  split
  · exact hhead
  · exact h.get k drains
  · exact hhead
  · exact h.handleDisconnect.setWriteLoop k _
  all_goals exact h

/-! ## Runs -/

theorem Greeting.step {args : Args α} (hargs : args.username.isEmpty = false) {c : TcpClient α} (h : Greeting args c)
    {e : Event α} (hs : Fresh args c e) : Greeting args (c.step args e) := by
  cases e with
  | connectionMade =>
    unfold TcpClient.step
    dsimp only
    split_ifs
    · exact (h.schedule [.connect]).congr rfl rfl rfl List.prefix_rfl
    · exact h
  | ws command => exact h.schedule _
  | rest request => exact h.schedule _
  | drained k ok =>
    unfold TcpClient.step
    dsimp only
    split_ifs
    · exact (h.setWriteLoop k _).schedule _
    · exact h
  | readEnd k =>
    unfold TcpClient.step
    dsimp only
    split_ifs
    · exact (h.schedule [.readEnd]).congr rfl rfl rfl List.prefix_rfl
    · exact h
  | run drains =>
    unfold TcpClient.step
    dsimp only
    cases hr : c.ready with
    | nil => exact h
    | cons t ready =>
      -- a task without messages leaves the order as it is
      have hpop : t.messages args = [] → Greeting args { c with ready } := fun ht => by
        refine h.congr rfl rfl rfl ?_
        unfold upcoming
        rw [hr, List.flatMap_cons, ht]
        exact List.prefix_rfl
      cases t with
      | connect =>
        unfold Fresh at hs
        dsimp only at hs
        rw [hr] at hs
        exact h.connect hargs hr hs
      | ws command => exact h.sendAll hr
      | rest request =>
        show Greeting args (if c.connected then _ else _)
        split_ifs
        · exact h.sendAll hr
        · exact h.refused hr
      | send messages => exact h.sendAll hr
      | write k => exact (hpop rfl).writeLoop k drains
      | readEnd => exact (hpop rfl).handleDisconnect

/-- With a login in the arguments, and nothing but logins ahead of it when a connection is established, the first message
on every connection is a LOGIN. -/
theorem run_loginFirst (args : Args α) (hargs : args.username.isEmpty = false) (events : List (Event α))
    (h : Machine.Along (fun c e => some (c.step args e)) (Fresh args) started events) :
    ∀ pre, pre <+: events → LoginFirst (run args pre) := by
  rintro pre ⟨post, rfl⟩
  have hinv : Greeting args (run args pre) := h.left.foldl (fun _ _ hc hs => hc.step hargs hs) (greeting_started args)
  exact hinv.first

/-- A bridge with a login and one symbol. -/
def loginArgs : Args Char := ⟨['u'], ['p'], [['A']], []⟩

/-- A connection, its end, and another one with a command behind its login. -/
def reconnects : List (Event Char) :=
  [.connectionMade, .run [], .run [], .run [], .run [true, true], .readEnd 0, .run [], .connectionMade, .run [],
    .ws (.requestSnapshot ['B']), .run [], .run [], .run [true, true], .run []]

theorem run_loginFirst_reconnects : LoginFirst (run loginArgs reconnects) ∧
    (run loginArgs reconnects).written.map (fun e => (e.connection, e.sent.message.isLogin)) =
      [(0, true), (0, false), (1, true), (1, false)] :=
  ⟨run_loginFirst loginArgs rfl reconnects (by decide) reconnects List.prefix_rfl, rfl⟩

/-- The browser asks for a snapshot before the connection is there. -/
theorem earlyCommand_first : ¬ LoginFirst (run loginArgs [.ws (.requestSnapshot ['A']), .run [], .connectionMade, .run [],
    .run [], .run [], .run [true]]) := by
  intro h
  have hlogin := h 0 ⟨0, true, ⟨.snapshotRequest ⟨['A']⟩, false, 0⟩⟩ rfl
  cases hlogin

end TcpClient

end OrderbookGC.Bridge
