/-
No call chain locks a mutex twice, except in `stop`. The mutexes have an order, `rank`: whatever is locked while a mutex
is held lies below it. Each function with its locks does to the server what the function of `Server` does, from any
flags that leave the mutexes below its own rank free; so an event from a free start comes to its end as the event of
the server does. `stop` breaks the order: a session that is closed under `sessions_mutex_` calls back into
`removeSession`, which takes that mutex first.
-/
import OrderbookGC.Server.Ids
import OrderbookGC.Server.Locked
import OrderbookGC.Server.SessionMap

namespace OrderbookGC.Locked

open Container Machine.Lock

/-- The order of the mutexes. -/
def rank : Mutex → Nat
  | .write _ | .book _ => 0
  | .sessions | .orderOwners => 1
  | .subscriptions => 2
  | .orderbooks => 3

/-- The program returns `a` and takes the server to `sv`; the flags end as they were. -/
abbrev Ends {α : Type} (p : Prog α) (held : Flags Mutex) (h : Host) (a : α) (sv : Server) : Prop :=
  Returns Host.server p held h a sv

variable {α β : Type} {held : Flags Mutex} {h : Host} {n : Nat}

theorem modifyServer_ends {f : Server → Server} : Ends (modifyServer f) held h () (f h.server) := .change

theorem modifySocket_ends {s : SessionPtr} {f : Socket → Socket} : Ends (modifySocket s f) held h () h.server := .change

theorem getServer_ends {q : Server → Prog β} {b : β} {sv : Server} (hq : Ends (q h.server) held h b sv) :
    Ends (getServer >>= q) held h b sv := by
  obtain ⟨h', hq, hsv⟩ := hq
  exact ⟨h', (bind_ok rfl).trans hq, hsv⟩

theorem call_ends {f : Server → Option (α × Server)} {a : α} {sv : Server} (hf : f h.server = some (a, sv)) :
    Ends (call f) held h a sv := by
  have hact : (f h.server).map (fun r => (r.1, { h with server := r.2 })) = some (a, { h with server := sv }) := by rw [hf]; rfl
  exact Returns.act (f := fun h : Host => (f h.server).map fun r => (r.1, { h with server := r.2 })) hact

theorem run_ends {f : Server → α × Server} : Ends (call fun sv => some (f sv)) held h (f h.server).1 (f h.server).2 :=
  call_ends rfl

/-! ## Sessions -/

section

variable (hf : Free rank 1 held) (s : SessionPtr)
include hf

theorem doWriteNext_ends : Ends (doWriteNext s) held h () h.server :=
  .withLock hf Nat.one_pos fun _ _ => modifySocket_ends

theorem sendMessage_ends (r : Response) : Ends (sendMessage s r) held h () (h.server.sendMessage s r) := by
  refine modifyServer_ends.bind fun h₁ h₁s => ?_
  rw [← h₁s]
  refine (Returns.withLock (m := Mutex.write s) (a := (h₁.sockets s).writing) (t := h₁.server) hf Nat.one_pos fun _ _ => ?_).bind fun h₂ h₂s => ?_
  · exact .state (modifySocket_ends.bind fun h' hh' => hh' ▸ .pure)
  · rw [← h₂s]
    split_ifs
    · exact .pure
    · exact doWriteNext_ends hf s

theorem written_ends : Ends (written s) held h () h.server := by
  refine (Returns.withLock (m := Mutex.write s) (a := (h.sockets s).writeMessages - 1 != 0) (t := h.server) hf Nat.one_pos fun _ _ => ?_).bind
    fun h₁ h₁s => ?_
  · exact .state (modifySocket_ends.bind fun h' hh' => hh' ▸ .pure)
  · rw [← h₁s]
    split_ifs
    · exact doWriteNext_ends hf s
    · exact .pure

theorem closeSocket_ends : Ends (closeSocket s) held h () h.server := by
  refine .state ?_
  split_ifs
  · exact (Returns.withLock (m := Mutex.write s) hf Nat.one_pos fun _ _ => modifySocket_ends).bind fun _ h₁s =>
      h₁s ▸ modifySocket_ends
  · exact .pure

theorem broadcast_ends (r : Response) : ∀ (recipients : List SessionPtr), Ends (broadcast recipients r) held h ()
    (recipients.foldl (fun sv s => sv.sendMessage s r) h.server) :=
  fun recipients => .forM (g := fun sv s => Server.sendMessage sv s r) (fun s _ => sendMessage_ends hf s r) recipients h

end

/-! ## Critical sections of one action -/

section

variable {m : Mutex} (hf : Free rank n held) (hm : rank m < n)
include hf hm

theorem lock_modify {f : Server → Server} : Ends (withLock m (modifyServer f)) held h () (f h.server) :=
  .withLock hf hm fun _ _ => modifyServer_ends

theorem lock_read {f : Server → α} : Ends (withLock m do return f (← getServer)) held h (f h.server) h.server :=
  .withLock hf hm fun _ _ => getServer_ends .pure

theorem lock_call {f : Server → Option (α × Server)} {a : α} {sv : Server} (hr : f h.server = some (a, sv)) :
    Ends (withLock m (call f)) held h a sv :=
  .withLock hf hm fun _ _ => call_ends hr

theorem lock_pure (a : α) : Ends (withLock m (pure a)) held h a h.server := .withLock hf hm fun _ _ => .pure

end

section

variable (hf : Free rank 3 held)
include hf

theorem removeSession_ends (s : SessionPtr) : Ends (removeSession s) held h () (h.server.removeSession s) := by
  refine (lock_modify hf (by decide)).bind fun h₁ h₁s => (lock_modify hf (by decide)).bind fun h₂ h₂s => ?_
  have hsv : h.server.removeSession s = { h₂.server with
      orderOwners := h₂.server.orderOwners.filterMapVals fun c => if c = h₂.server.clientId s then none else some c } := by
    rw [h₂s, h₁s]; rfl
  rw [hsv]
  exact lock_modify hf (by decide)

theorem close_ends (s : SessionPtr) : Ends (close s) held h () (h.server.close s) := by
  refine (closeSocket_ends (hf.mono (by decide)) s).bind fun h₁ h₁s => getServer_ends ?_
  unfold Server.close
  rw [← h₁s]
  split_ifs
  · exact modifyServer_ends.bind fun h₂ h₂s => h₂s ▸ removeSession_ends hf s
  · exact .pure

theorem acceptConnection_ends (env : Env) : Ends (acceptConnection env) held h () (h.server.acceptConnection env) := by
  refine getServer_ends (modifyServer_ends.bind fun h₁ h₁s => modifySocket_ends.bind fun h₂ h₂s => ?_)
  have hsv : h.server.acceptConnection env = { h₂.server with
      sessions := h₂.server.sessions.insert (generateUuid env.uuid) h.server.nextSession } := by
    rw [h₂s, h₁s]; rfl
  rw [hsv]
  exact lock_modify hf (by decide)

/-! ## Callbacks of the books -/

theorem onTradeExecuted_ends (env : Env) (t : Trade ℚ) :
    Ends (onTradeExecuted env t) held h () (Server.onTradeExecuted env h.server t) := by
  refine modifyServer_ends.bind fun h₁ h₁s => modifyServer_ends.bind fun h₂ h₂s => ?_
  have hlocked : Ends (withLock .subscriptions (withLock .sessions do return (← getServer).subscribers t.symbol)) held h₂
      (h₂.server.subscribers t.symbol) h₂.server :=
    .withLock hf (by decide) fun held' hf' => lock_read hf' (by decide)
  refine hlocked.bind fun h₃ h₃s => ?_
  have hsv : Server.onTradeExecuted env h.server t = (h₂.server.subscribers t.symbol).foldl
      (fun sv s => sv.sendMessage s (.tradeNotification t)) h₃.server := by
    rw [h₃s, h₂s, h₁s]; rfl
  rw [hsv]
  exact broadcast_ends (hf.mono (by decide)) _ _

theorem onOrderUpdated_ends (env : Env) (o : Order ℚ) :
    Ends (onOrderUpdated env o) held h () (Server.onOrderUpdated env h.server o) := by
  unfold Server.onOrderUpdated
  dsimp only
  refine modifyServer_ends.bind fun h₁ h₁s => ?_
  rw [← h₁s]
  have htake : takeOwner o h₁.server = (h₁.server.orderOwners.find? o.id, _) := rfl
  refine (lock_call hf (by decide) (congrArg some htake)).bind fun h₂ h₂s => ?_
  cases howner : h₁.server.orderOwners.find? o.id with
  | none =>
    -- an order without an owner is not in the map, so there is nothing to clean up
    have hsv : h₂.server = h₁.server := by
      have herase : h₁.server.orderOwners.erase o.id = h₁.server.orderOwners :=
        SortedMap.ext_find? fun k => by
          rw [SortedMap.find?_erase]
          by_cases hk : k = o.id
          · rw [if_pos hk, hk, howner]
          · rw [if_neg hk]
      rw [h₂s, herase, ite_self]
    rw [← hsv]
    exact .pure
  | some clientId =>
    dsimp only
    rw [← h₂s]
    split_ifs
    · exact .pure
    · refine (lock_read hf (by decide)).bind fun h₃ h₃s => ?_
      have hsame : h₁.server.sessions = h₃.server.sessions := by rw [h₃s, h₂s]
      rw [← h₃s, hsame]
      cases h₃.server.sessions.find? clientId with
      | none => exact .pure
      | some s => exact sendMessage_ends (hf.mono (by decide)) s _

theorem dispatch_ends (env : Env) (heap : OrderPtr → Order ℚ) (callbacks : List (Callback ℚ)) :
    Ends (dispatch env heap callbacks) held h () (Server.dispatch env heap callbacks h.server) := by
  refine Returns.forM (fun c h => ?_) callbacks h
  cases c with
  | trade t => exact onTradeExecuted_ends hf env t
  | order p => exact onOrderUpdated_ends hf env (heap p)

end

section

variable (hf : Free rank 3 held)
include hf

theorem addOrder_ends {env : Env} {b : OrderBook ℚ} {o o' : Order ℚ} {sv' : Server}
    (ha : h.server.addOrder env b o = some (o', sv')) : Ends (addOrder env b o) held h o' sv' := by
  unfold Server.addOrder at ha
  obtain ⟨out, hout, hr⟩ := Option.map_eq_some_iff.1 ha
  obtain ⟨ho', hsv'⟩ := Prod.mk.inj hr
  have hplace : place b o h.server =
      some ((o', out.state.heap, out.callbacks), h.server.setBook o.symbol out.state.toOrderBook) := by
    rw [← ho']
    exact congrArg (Option.map fun out =>
      ((out.state.heap b.nextPtr, out.state.heap, out.callbacks), h.server.setBook o.symbol out.state.toOrderBook)) hout
  have hbook : Ends (placeOrder b o) held h (o', out.state.heap, out.callbacks)
      (h.server.setBook o.symbol out.state.toOrderBook) := by
    unfold placeOrder
    split_ifs
    · exact call_ends hplace
    · exact lock_call (m := Mutex.book o.symbol) hf (Nat.succ_pos 2) hplace
  refine hbook.bind fun h₁ h₁s => (dispatch_ends hf env out.state.heap out.callbacks).bind fun h₂ h₂s => ?_
  rw [← hsv', ← h₁s, ← h₂s]
  exact .pure

theorem cancelOrder_ends (env : Env) (symbol : String) (b : OrderBook ℚ) (id : String) : Ends (cancelOrder env symbol b id)
    held h (h.server.cancelOrder env symbol b id).1 (h.server.cancelOrder env symbol b id).2 := by
  have hbook : Ends (withLock (.book symbol) (modifyServer (·.setBook symbol (b.cancelOrder id).2.1))) held h ()
      (h.server.setBook symbol (b.cancelOrder id).2.1) := lock_modify (m := Mutex.book symbol) hf (Nat.succ_pos 2)
  refine hbook.bind fun h₁ h₁s => (dispatch_ends hf env _ _).bind fun h₂ h₂s => ?_
  have hsv : (h.server.cancelOrder env symbol b id).2 = h₂.server := by rw [h₂s, h₁s]; rfl
  rw [hsv]
  exact .pure

/-- The callbacks of a cancelled order run below `orderbooks_mutex_`. -/
theorem cancelLoop_ends (env : Env) (id : String) : ∀ (l : List (String × OrderBook ℚ)) (h : Host),
    Ends (cancelLoop env id l) held h (Server.cancelLoop env id l h.server).1 (Server.cancelLoop env id l h.server).2
  | [], _ => .pure
  | (symbol, b) :: rest, h => by
    refine (cancelOrder_ends hf env symbol b id).bind fun h₁ h₁s => ?_
    unfold Server.cancelLoop
    dsimp only
    rw [← h₁s]
    split_ifs
    · exact .pure
    · exact cancelLoop_ends env id rest h₁

theorem snapshotMessage_ends (symbol : String) (b : OrderBook ℚ) :
    Ends (snapshotMessage symbol b) held h (Server.snapshotMessage symbol b) h.server := by
  refine (lock_pure (m := Mutex.book symbol) hf (Nat.succ_pos 2) _).bind fun h₁ h₁s => (lock_pure (m := Mutex.book symbol) hf (Nat.succ_pos 2) _).bind fun h₂ h₂s => ?_
  rw [← h₁s, ← h₂s]
  exact .pure

theorem findOrder_ends (id : String) : ∀ (l : List (String × OrderBook ℚ)) (h : Host),
    Ends (findOrder id l) held h (l.findSome? fun e => (e.2.getOrder id).map e.2.heap) h.server
  | [], _ => .pure
  | (symbol, b) :: rest, h => by
    refine (lock_pure (m := Mutex.book symbol) hf (Nat.succ_pos 2) _).bind fun h₁ h₁s => ?_
    rw [List.findSome?_cons, ← h₁s]
    cases b.getOrder id with
    | none => exact findOrder_ends id rest h₁
    | some p => exact .pure

end

/-! ## Handlers -/

section

variable (hf : Free rank 4 held)
include hf

theorem getOrderbook_ends (symbol : String) : Ends (getOrderbook symbol) held h (h.server.getOrderbook symbol) h.server :=
  lock_read hf (by decide)

theorem createOrderbook_ends (symbol : String) (tickSize : ℚ) : Ends (createOrderbook symbol tickSize) held h
    (h.server.createOrderbook symbol tickSize).1 (h.server.createOrderbook symbol tickSize).2 :=
  lock_call hf (by decide) rfl

theorem setOrderbookTickSize_ends (symbol : String) (tickSize : ℚ) : Ends (setOrderbookTickSize symbol tickSize) held h
    (h.server.setOrderbookTickSize symbol tickSize).1 (h.server.setOrderbookTickSize symbol tickSize).2 := by
  unfold setOrderbookTickSize Server.setOrderbookTickSize
  split_ifs
  · exact .pure
  · refine .withLock hf (by decide) fun held' hf' => getServer_ends ?_
    cases h.server.orderbooks.find? symbol with
    | none => exact .pure
    | some b =>
      refine (lock_modify (m := Mutex.book symbol) hf' (Nat.succ_pos 2)).bind fun h₁ h₁s => ?_
      dsimp only
      rw [← h₁s]
      exact .pure

theorem subscribe_ends (s : SessionPtr) (symbol : String) : Ends (subscribe s symbol) held h () (h.server.subscribe s symbol) :=
  lock_modify hf (by decide)

theorem requireAuth_ends (s : SessionPtr) (permission : String) : Ends (requireAuth s permission) held h
    (h.server.requireAuth s permission).1 (h.server.requireAuth s permission).2 := by
  have hf₁ : Free rank 1 held := hf.mono (by decide)
  refine getServer_ends ?_
  unfold Server.requireAuth
  dsimp only
  split_ifs
  · exact .pure
  · exact modifyServer_ends.bind fun h₁ h₁s => h₁s ▸ .pure
  · exact (sendMessage_ends hf₁ s _).bind fun h₁ h₁s => h₁s ▸ .pure
  · exact (sendMessage_ends hf₁ s _).bind fun h₁ h₁s => h₁s ▸ .pure
  · exact .pure

theorem acknowledge_ends (s : SessionPtr) (o : Order ℚ) : Ends (acknowledge s o) held h () (h.server.acknowledge s o) := by
  refine (lock_modify hf (by decide)).bind fun h₁ h₁s => ?_
  unfold Server.acknowledge
  rw [← h₁s]
  exact sendMessage_ends (hf.mono (by decide)) s _

theorem handleOrderSubmit_ends {env : Env} {m : OrderSubmitMessage} {s : SessionPtr} {sv' : Server}
    (hr : h.server.handleOrderSubmit env m s = some sv') : Ends (handleOrderSubmit env m s) held h () sv' := by
  unfold Server.handleOrderSubmit at hr
  refine (getOrderbook_ends hf m.symbol).bind fun h₁ h₁s => ?_
  rw [← h₁s] at hr ⊢
  cases hb : h₁.server.getOrderbook m.symbol with
  | none =>
    rw [hb] at hr
    cases hr
    exact sendMessage_ends (hf.mono (by decide)) s _
  | some b =>
    rw [hb] at hr
    obtain ⟨⟨o', sv₂⟩, ha, hsv'⟩ := Option.map_eq_some_iff.1 hr
    refine (subscribe_ends hf s m.symbol).bind fun h₂ h₂s => modifyServer_ends.bind fun h₃ h₃s => ?_
    rw [← h₂s, ← h₃s] at ha
    refine (addOrder_ends (hf.mono (by decide)) ha).bind fun h₄ h₄s => ?_
    rw [← hsv', ← h₄s]
    exact acknowledge_ends hf s o'

theorem handleOrderCancel_ends (env : Env) (id : String) (s : SessionPtr) :
    Ends (handleOrderCancel env id s) held h () (h.server.handleOrderCancel env id s) := by
  have howns : Ends (withLock .orderOwners do
      if (← getServer).owns s id then return true
      else
        sendMessage s (.error "INVALID_ORDER" "Cannot cancel order: not found or not owned by this client")
        return false) held h (h.server.owns s id) (if h.server.owns s id then h.server
          else h.server.sendMessage s (.error "INVALID_ORDER" "Cannot cancel order: not found or not owned by this client")) := by
    refine .withLock hf (by decide) fun held' hf' => getServer_ends ?_
    cases h.server.owns s id with
    | true => exact .pure
    | false => exact (sendMessage_ends hf' s _).bind fun h₁ h₁s => h₁s ▸ .pure
  refine howns.bind fun h₁ h₁s => ?_
  unfold Server.handleOrderCancel
  cases ho : h.server.owns s id with
  | false =>
    rw [ho, if_neg Bool.false_ne_true] at h₁s
    rw [if_neg Bool.false_ne_true, ← h₁s]
    exact .pure
  | true =>
    rw [ho, if_pos rfl] at h₁s
    rw [← h₁s]
    have hloop : Ends (withLock .orderbooks do cancelLoop env id (← getServer).orderbooks.entries) held h₁
        (Server.cancelLoop env id h₁.server.orderbooks.entries h₁.server).1
        (Server.cancelLoop env id h₁.server.orderbooks.entries h₁.server).2 :=
      .withLock hf (by decide) fun held' hf' => getServer_ends (cancelLoop_ends hf' env id _ h₁)
    refine hloop.bind fun h₂ h₂s => ?_
    rw [if_pos rfl]
    dsimp only
    rw [← h₂s]
    split_ifs
    · exact .pure
    · exact sendMessage_ends (hf.mono (by decide)) s _

theorem sendSnapshot_ends (symbol : String) (b : OrderBook ℚ) (s : SessionPtr) : Ends (sendSnapshot symbol b s) held h ()
    (h.server.sendMessage s (Server.snapshotMessage symbol b)) := by
  refine (snapshotMessage_ends (hf.mono (by decide)) symbol b).bind fun h₁ h₁s => ?_
  rw [← h₁s]
  exact sendMessage_ends (hf.mono (by decide)) s _

theorem handleSnapshotRequest_ends (symbol : String) (s : SessionPtr) :
    Ends (handleSnapshotRequest symbol s) held h () (h.server.handleSnapshotRequest symbol s) := by
  refine (subscribe_ends hf s symbol).bind fun h₁ h₁s => (getOrderbook_ends hf symbol).bind fun h₂ h₂s => ?_
  unfold Server.handleSnapshotRequest
  dsimp only
  rw [← h₁s, ← h₂s]
  cases hb : h₂.server.getOrderbook symbol with
  | some b =>
    simp only [Option.isSome_some, if_true, Bool.not_true, Bool.false_eq_true, if_false, hb]
    exact sendSnapshot_ends hf symbol b s
  | none =>
    simp only [Option.isSome_none, Bool.false_eq_true, if_false]
    refine (createOrderbook_ends hf symbol Server.defaultTickSize).bind fun h₃ h₃s => ?_
    rw [← h₃s]
    split_ifs
    · exact sendMessage_ends (hf.mono (by decide)) s _
    · refine (getOrderbook_ends hf symbol).bind fun h₄ h₄s => ?_
      rw [← h₄s]
      cases h₄.server.getOrderbook symbol with
      | none => exact .pure
      | some b => exact sendSnapshot_ends hf symbol b s

theorem handleOrderStatus_ends (id : String) (s : SessionPtr) :
    Ends (handleOrderStatus id s) held h () (h.server.handleOrderStatus id s) := by
  refine (lock_read hf (by decide)).bind fun h₁ h₁s => ?_
  unfold Server.handleOrderStatus
  rw [← h₁s]
  split_ifs
  · have hloop : Ends (withLock .orderbooks do findOrder id (← getServer).orderbooks.entries) held h₁
        (h₁.server.orderbooks.entries.findSome? fun e => (e.2.getOrder id).map e.2.heap) h₁.server :=
      .withLock hf (by decide) fun held' hf' => getServer_ends (findOrder_ends hf' id _ h₁)
    refine hloop.bind fun h₂ h₂s => ?_
    rw [← h₂s]
    cases h₂.server.orderbooks.entries.findSome? fun e => (e.2.getOrder id).map e.2.heap with
    | none => exact sendMessage_ends (hf.mono (by decide)) s _
    | some o => exact sendMessage_ends (hf.mono (by decide)) s _
  · exact sendMessage_ends (hf.mono (by decide)) s _

theorem login_ends (env : Env) (username permissions : String) (s : SessionPtr) :
    Ends (login env username permissions s) held h () (h.server.login env username permissions s) :=
  modifyServer_ends.bind fun h₁ h₁s => by
    have hsv : h.server.login env username permissions s =
        h₁.server.sendMessage s (.loginResponse true (generateUuid env.uuid) username "") := by
      rw [h₁s]; rfl
    rw [hsv]
    exact sendMessage_ends (hf.mono (by decide)) s _

theorem handleLogin_ends (env : Env) (username password : String) (s : SessionPtr) :
    Ends (handleLogin env username password s) held h () (h.server.handleLogin env username password s) := by
  refine getServer_ends ?_
  unfold Server.handleLogin
  split_ifs
  · exact login_ends hf env username _ s
  · cases h.server.disk.getUser username with
    | none => exact login_ends hf env username _ s
    | some user => exact login_ends hf env username _ s
  · exact sendMessage_ends (hf.mono (by decide)) s _

theorem handleRegister_ends (env : Env) (username password : String) (s : SessionPtr) :
    Ends (handleRegister env username password s) held h () (h.server.handleRegister env username password s) := by
  have hf₁ : Free rank 1 held := hf.mono (by decide)
  refine getServer_ends ?_
  unfold Server.handleRegister
  dsimp only
  split_ifs
  · exact sendMessage_ends hf₁ s _
  · exact sendMessage_ends hf₁ s _
  · exact sendMessage_ends hf₁ s _
  · exact sendMessage_ends hf₁ s _
  · exact sendMessage_ends hf₁ s _
  · rename_i hok
    refine run_ends.bind fun h₁ h₁s => ?_
    rw [← h₁s, if_pos hok]
    exact sendMessage_ends hf₁ s _
  · rename_i hok
    refine run_ends.bind fun h₁ h₁s => ?_
    rw [← h₁s, if_neg hok]
    exact sendMessage_ends hf₁ s _

/-- A handler that does what `f` does from every state. -/
theorem authorized_ends {s : SessionPtr} {permission : String} {handler : Prog Unit} {f : Server → Option Server}
    (hh : ∀ h sv', f h.server = some sv' → Ends handler held h () sv') {sv' : Server}
    (hr : (if (h.server.requireAuth s permission).1 then f (h.server.requireAuth s permission).2
      else some (h.server.requireAuth s permission).2) = some sv') : Ends (authorized s permission handler) held h () sv' := by
  refine (requireAuth_ends hf s permission).bind fun h₁ h₁s => ?_
  rw [← h₁s] at hr
  by_cases ha : (h.server.requireAuth s permission).1 = true
  · rw [if_pos ha] at hr ⊢
    exact hh h₁ sv' hr
  · rw [if_neg ha] at hr ⊢
    cases hr
    exact .pure

theorem handleMessage_ends {env : Env} {m : Request} {s : SessionPtr} {sv' : Server}
    (hr : h.server.handleMessage env m s = some sv') : Ends (handleMessage env m s) held h () sv' := by
  unfold Server.handleMessage at hr
  cases m with
  | login username password => cases hr; exact handleLogin_ends hf env username password s
  | register username password => cases hr; exact handleRegister_ends hf env username password s
  | snapshotRequest symbol =>
    exact authorized_ends hf (f := fun sv => some (sv.handleSnapshotRequest symbol s))
      (fun h sv' hr => by cases hr; exact handleSnapshotRequest_ends hf symbol s) hr
  | orderSubmit m =>
    exact authorized_ends hf (f := fun sv => sv.handleOrderSubmit env m s) (fun h sv' hr => handleOrderSubmit_ends hf hr) hr
  | orderCancel id c =>
    exact authorized_ends hf (f := fun sv => some (sv.handleOrderCancel env id s))
      (fun h sv' hr => by cases hr; exact handleOrderCancel_ends hf env id s) hr
  | orderStatus id c =>
    exact authorized_ends hf (f := fun sv => some (sv.handleOrderStatus id s))
      (fun h sv' hr => by cases hr; exact handleOrderStatus_ends hf id s) hr
  | other => cases hr; exact sendMessage_ends (hf.mono (by decide)) s _

/-! ## The timer and the generator -/

theorem sendOrderbookSnapshots_ends : Ends sendOrderbookSnapshots held h () h.server.sendOrderbookSnapshots := by
  have hbuild : Ends (withLock .orderbooks do
      (← getServer).orderbooks.entries.mapM fun e => do return (e.1, ← snapshotMessage e.1 e.2)) held h
      (h.server.orderbooks.entries.map fun e => (e.1, Server.snapshotMessage e.1 e.2)) h.server := by
    refine .withLock hf (by decide) fun held' hf' => getServer_ends (.mapM (fun e h => ?_) _ h)
    exact (snapshotMessage_ends hf' e.1 e.2).bind fun h₁ h₁s => h₁s ▸ .pure
  refine hbuild.bind fun h₁ h₁s => .withLock hf (by decide) fun held' hf' => .withLock hf' (by decide) fun held'' hf'' => ?_
  have hsv : h.server.sendOrderbookSnapshots = (h.server.orderbooks.entries.map fun e =>
      (e.1, Server.snapshotMessage e.1 e.2)).foldl (fun sv x => sv.broadcast x.1 x.2) h₁.server := by
    rw [List.foldl_map, h₁s]; rfl
  rw [hsv]
  exact .forM (fun x h => getServer_ends (broadcast_ends hf'' x.2 _)) _ h₁

theorem addToBook_ends {env : Env} {o : Order ℚ} {sv' : Server} (hr : Server.restore env h.server o = some sv') :
    Ends (addToBook env o) held h () sv' := by
  refine (getOrderbook_ends hf o.symbol).bind fun h₁ h₁s => ?_
  unfold Server.restore at hr
  rw [← h₁s] at hr ⊢
  cases hb : h₁.server.getOrderbook o.symbol with
  | none =>
    rw [hb] at hr
    cases hr
    exact .pure
  | some b =>
    rw [hb] at hr
    obtain ⟨⟨o', sv₂⟩, ha, hsv'⟩ := Option.map_eq_some_iff.1 hr
    rw [← hsv']
    exact (addOrder_ends (hf.mono (by decide)) ha).bind fun h₂ h₂s => h₂s ▸ .pure

theorem handlePosted_ends {env : Env} {sv' : Server} (hr : h.server.handlePosted env = some sv') :
    Ends (handlePosted env) held h () sv' := by
  refine getServer_ends ?_
  unfold Server.handlePosted at hr
  cases hp : h.server.posted with
  | nil =>
    rw [hp] at hr
    cases hr
    exact .pure
  | cons o rest =>
    rw [hp] at hr
    refine modifyServer_ends.bind fun h₁ h₁s => addToBook_ends hf ?_
    rw [h₁s]
    exact hr

theorem tryCancel_ends (env : Env) (i : Nat) : Ends (tryCancel env i) held h () (h.server.tryCancel env i) := by
  refine getServer_ends ?_
  unfold Server.tryCancel
  cases h.server.generator with
  | none => exact .pure
  | some g =>
    cases hid : g.tracked[i]? with
    | none =>
      dsimp only
      rw [hid]
      exact .pure
    | some id =>
      dsimp only
      rw [hid]
      refine modifyServer_ends.bind fun h₁ h₁s => (getOrderbook_ends hf g.symbol).bind fun h₂ h₂s => ?_
      dsimp only
      rw [← h₁s, ← h₂s]
      cases h₂.server.getOrderbook g.symbol with
      | none => exact .pure
      | some b =>
        refine (cancelOrder_ends (hf.mono (by decide)) env g.symbol b id).bind fun h₃ h₃s => ?_
        dsimp only
        rw [← h₃s]
        exact .pure

/-! ## Start -/

theorem restore_ends {env : Env} : ∀ (orders : List (Order ℚ)) (h : Host) (sv' : Server),
    orders.foldlM (Server.restore env) h.server = some sv' → Ends (orders.forM (addToBook env)) held h () sv'
  | [], _, _, hr => by
    cases hr
    exact .pure
  | o :: orders, h, sv', hr => by
    rw [List.foldlM_cons] at hr
    obtain ⟨sv₁, h1, hr⟩ := Option.bind_eq_some_iff.1 hr
    exact (addToBook_ends hf h1).bind fun h₁ h₁s => restore_ends orders h₁ sv' (h₁s ▸ hr)

theorem initPersistence_ends {env : Env} {opens : Bool} {sv' : Server} (hr : h.server.initPersistence env opens = some sv') :
    Ends (initPersistence env opens) held h () sv' := by
  unfold Server.initPersistence at hr
  unfold initPersistence
  split_ifs at hr ⊢
  · exact modifyServer_ends.bind fun h₁ h₁s => getServer_ends (restore_ends hf _ h₁ sv' (h₁s ▸ hr))
  · cases hr
    exact .pure

theorem configureOrderGenerator_ends : Ends configureOrderGenerator held h () h.server.configureOrderGenerator := by
  refine getServer_ends ?_
  unfold Server.configureOrderGenerator
  cases h.server.config.generator with
  | false => exact .pure
  | true =>
    cases h.server.config.symbols with
    | nil => exact .pure
    | cons symbol _ =>
      refine (getOrderbook_ends hf symbol).bind fun h₁ h₁s => ?_
      dsimp only
      rw [← h₁s]
      cases h₁.server.getOrderbook symbol with
      | none => exact .pure
      | some b =>
        refine (lock_pure (m := Mutex.book symbol) hf (Nat.succ_pos 3) b.tickSize).bind fun h₂ h₂s => ?_
        rw [← h₂s]
        exact modifyServer_ends

theorem restart_ends {env : Env} {sv' : Server} (hr : h.server.restart env = some sv') : Ends (restart env) held h () sv' := by
  obtain ⟨sv₁, h1, hr⟩ := Option.bind_eq_some_iff.1 hr
  refine modifyServer_ends.bind fun h₁ h₁s => getServer_ends ?_
  have hbooks : Ends (h₁.server.config.symbols.forM fun symbol => do
      let _ ← createOrderbook symbol Server.defaultTickSize) held h₁ () h.server.boot := by
    have hboot : h.server.boot = h₁.server.config.symbols.foldl
        (fun sv symbol => (sv.createOrderbook symbol Server.defaultTickSize).2) h₁.server := by
      rw [h₁s]; rfl
    rw [hboot]
    exact .forM (fun symbol h => (createOrderbook_ends hf symbol _).bind fun h' hh' => hh' ▸ .pure) _ h₁
  refine hbooks.bind fun h₂ h₂s => (initPersistence_ends hf (h₂s ▸ h1)).bind fun h₃ h₃s =>
    (configureOrderGenerator_ends hf).bind fun h₄ h₄s => getServer_ends ?_
  dsimp only at hr
  rw [← h₃s, ← h₄s] at hr
  split_ifs at hr ⊢
  · cases hr
    exact .pure
  · exact initPersistence_ends hf hr

end

/-! ## Events -/

/-- An event with its locks, from a free start, ends as the event of the server does. -/
theorem step_ends {env : Env} {ev : Server.Event} {sv' : Server} (hr : h.server.step (env, ev) = some sv') :
    Ends (step env ev) Flags.free h () sv' := by
  have hf : Free rank 4 (Flags.free : Flags Mutex) := Free.flags
  cases ev with
  | connect => cases hr; exact acceptConnection_ends (hf.mono (by decide)) env
  | close s =>
    cases hr
    refine getServer_ends ?_
    split_ifs
    · exact close_ends (hf.mono (by decide)) s
    · exact .pure
  | message s m =>
    refine getServer_ends ?_
    replace hr : (if h.server.hasSession s then h.server.handleMessage env m s else some h.server) = some sv' := hr
    split_ifs at hr ⊢
    · exact handleMessage_ends hf hr
    · cases hr; exact .pure
  | snapshotTimer => cases hr; exact sendOrderbookSnapshots_ends hf
  | generate d => cases hr; exact modifyServer_ends (f := (·.generate env d))
  | posted => exact handlePosted_ends hf hr
  | generatorCancel i => cases hr; exact tryCancel_ends hf env i
  | createOrderbook symbol tickSize =>
    cases hr
    exact (createOrderbook_ends hf symbol tickSize).bind fun h₁ h₁s => h₁s ▸ .pure
  | setOrderbookTickSize symbol tickSize =>
    cases hr
    exact (setOrderbookTickSize_ends hf symbol tickSize).bind fun h₁ h₁s => h₁s ▸ .pure
  | restart => exact restart_ends hf hr

/-! ## `stop` -/

section

variable (hf : Free rank 1 held)
include hf

theorem close_idle {s : SessionPtr} (hs : (h.server.sessionAt s).connected = false) :
    Ends (close s) held h () h.server := by
  refine (closeSocket_ends hf s).bind fun h₁ h₁s => getServer_ends ?_
  rw [← h₁s] at hs ⊢
  rw [if_neg (by rw [hs]; nofun)]
  exact .pure

omit hf in
theorem getServer_relocks {q : Server → Prog β} {m : Mutex} (hq : Relocks (q h.server) held h m) :
    Relocks (getServer >>= q) held h m := (bind_ok rfl).trans hq

/-- The disconnect callback needs `sessions_mutex_`. -/
theorem close_relocks {s : SessionPtr} (hheld : held .sessions = true) (hs : (h.server.sessionAt s).connected = true) :
    Relocks (close s) held h .sessions := by
  refine .after (closeSocket_ends hf s) fun h₁ h₁s => getServer_relocks ?_
  rw [← h₁s] at hs
  rw [if_pos hs]
  exact .after modifyServer_ends fun h₂ _ => (withLock_relocks hheld).bind

/-- The loop of `stop` runs up to the first session whose callback has not fired. -/
theorem closeAll_relocks (hheld : held .sessions = true) : ∀ (l : List (String × SessionPtr)) (h : Host),
    (∃ e ∈ l, (h.server.sessionAt e.2).connected = true) → Relocks (l.forM fun e => close e.2) held h .sessions
  | [], _, hl => by
    obtain ⟨e, he, -⟩ := hl
    cases he
  | e :: l, h, hl => by
    by_cases he : (h.server.sessionAt e.2).connected = true
    · exact (close_relocks hf hheld he).bind
    · refine .after (close_idle hf (by simpa using he)) fun h₁ h₁s => closeAll_relocks hheld l h₁ ?_
      obtain ⟨x, hx, hc⟩ := hl
      rw [h₁s]
      rcases List.mem_cons.1 hx with rfl | hx
      · exact absurd hc he
      · exact ⟨x, hx, hc⟩

end

theorem stop_relocks (hs : ∃ e ∈ h.server.sessions.entries, (h.server.sessionAt e.2).connected = true) :
    Relocks stop Flags.free h .sessions :=
  .withLock rfl (getServer_relocks (.bind
    (closeAll_relocks (Free.take (m := Mutex.sessions) Free.flags) (Function.update_self ..) _ h hs)))

theorem stop_ends (hs : h.server.sessions.entries = []) :
    Ends stop Flags.free h () { h.server with sessions := .empty } := by
  have hf : Free rank 2 (Flags.free : Flags Mutex) := Free.flags
  refine .withLock hf (by decide) fun held' _ => getServer_ends ?_
  rw [hs]
  exact Returns.bind (t := h.server) .pure fun h₁ h₁s => h₁s ▸ modifyServer_ends

/-! ## Every entry point, in every reachable state -/

/-- The entry point comes to its end without locking a mutex that its call chain holds, and leaves all mutexes free. -/
def Entry.Safe (e : Entry) (env : Env) (h : Host) : Prop := ∃ h', e.run env (Flags.free, h) = some (.ok ((), Flags.free, h'))

theorem Ends.safe (e : Entry) (env : Env) {sv : Server} (hr : Ends (e.run env) Flags.free h () sv) : e.Safe env h := by
  obtain ⟨h', hr, -⟩ := hr
  exact ⟨h', hr⟩

theorem not_safe {e : Entry} {env : Env} {m : Mutex} (hr : Relocks (e.run env) Flags.free h m) : ¬ e.Safe env h := by
  rintro ⟨h', hs⟩
  unfold Relocks at hr
  rw [hs] at hr
  cases hr

/-- Only `stop` locks a mutex twice, and only while there is a session: `sessions_mutex_`. -/
theorem run_safe_iff (config : Config) (env : Env) (evs : List (Env × Server.Event)) :
    ∃ sv, Server.run config env evs = some sv ∧ ∀ (e : Entry) (env : Env) (sockets : SessionPtr → Socket),
      (e.Safe env ⟨sv, sockets⟩ ↔ (e = .stop → sv.sessions.entries = [])) ∧
      (¬ e.Safe env ⟨sv, sockets⟩ → Relocks (e.run env) Flags.free ⟨sv, sockets⟩ .sessions) := by
  obtain ⟨sv, hrun, hs, ha⟩ := Server.run_attached config env evs
  refine ⟨sv, hrun, fun e env sockets => ?_⟩
  by_cases hstop : e = .stop ∧ sv.sessions.entries ≠ []
  · obtain ⟨rfl, hne⟩ := hstop
    obtain ⟨x, hx⟩ := List.exists_mem_of_ne_nil _ hne
    have hr : Relocks (Entry.stop.run env) Flags.free ⟨sv, sockets⟩ .sessions :=
      stop_relocks ⟨x, hx, (ha x.1 x.2 (SortedMap.find?_eq_some_iff.2 hx)).2.2⟩
    exact ⟨⟨fun h => absurd h (not_safe hr), fun h => absurd (h rfl) hne⟩, fun _ => hr⟩
  · have hsafe : e.Safe env ⟨sv, sockets⟩ := by
      cases e with
      | event ev =>
        obtain ⟨sv', hstep, -⟩ := Server.step_effect hs env ev
        exact Ends.safe (.event ev) env (step_ends (h := ⟨sv, sockets⟩) hstep)
      | written s => exact Ends.safe (.written s) env (written_ends Free.flags s)
      | stop => exact Ends.safe .stop env (stop_ends (by_contra fun hne => hstop ⟨rfl, hne⟩))
    exact ⟨⟨fun _ he => by_contra fun hne => hstop ⟨he, hne⟩, fun _ => hsafe⟩, fun h => absurd hsafe h⟩

/-- One client connects, and the server is stopped. -/
theorem stop_selfDeadlocks : ∃ sv, Server.run Server.sampleConfig (Server.sampleEnv false 0)
    [(Server.sampleEnv false 1, .connect)] = some sv ∧
    Relocks (Entry.stop.run (Server.sampleEnv false 2)) Flags.free ⟨sv, fun _ => ⟨true, false, 0⟩⟩ .sessions :=
  ⟨_, rfl, stop_relocks ⟨_, List.mem_singleton.2 rfl, rfl⟩⟩

end OrderbookGC.Locked
