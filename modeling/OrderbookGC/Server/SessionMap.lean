/-
The map of the sessions. A connection enters its session under the client id, and closing it fires the disconnect
callback, which takes it out again; nothing else touches the map or the callback. So every session in the map is
connected.
-/
import OrderbookGC.Server.Accounts
import OrderbookGC.Server.Effect

namespace OrderbookGC.Server

open Container

/-- The sessions in the map stand under their client ids, and their disconnect callbacks have not fired. -/
def Attached (sv : Server) : Prop :=
  ∀ c s, sv.sessions.find? c = some s → s < sv.nextSession ∧ sv.clientId s = c ∧ (sv.sessionAt s).connected = true

/-! ## What leaves the map alone -/

structure SameSessions (sv sv' : Server) : Prop where
  sessions : sv'.sessions = sv.sessions
  nextSession : sv'.nextSession = sv.nextSession
  clientId : ∀ s, sv'.clientId s = sv.clientId s

namespace SameSessions

variable {env : Env} {sv sv' sv'' : Server}

theorem trans (h : SameSessions sv sv') (h' : SameSessions sv' sv'') : SameSessions sv sv'' :=
  ⟨h'.sessions.trans h.sessions, h'.nextSession.trans h.nextSession, fun s => (h'.clientId s).trans (h.clientId s)⟩

theorem quiet (h : Quiet sv sv') : SameSessions sv sv' := ⟨h.sessions, h.nextSession, h.clientId⟩

theorem dispatched {heap : OrderPtr → Order ℚ} {cbs : List (Callback ℚ)} (h : Dispatched env heap cbs sv sv') :
    SameSessions sv sv' :=
  ⟨h.sessions, h.nextSession, fun s => by unfold Server.clientId; rw [h.sessionAt]⟩

theorem setBook (sv : Server) (symbol : String) (b : OrderBook ℚ) : SameSessions sv (sv.setBook symbol b) :=
  ⟨rfl, rfl, fun _ => rfl⟩

theorem added {o : Order ℚ} {b : OrderBook ℚ} {out : AddOutcome ℚ} (h : Added env o b out sv sv') : SameSessions sv sv' :=
  (setBook sv _ _).trans (dispatched h.dispatched)

theorem cancelled {symbol id : String} {b b' : OrderBook ℚ} {p : OrderPtr} (h : Cancelled env symbol id b p b' sv sv') :
    SameSessions sv sv' :=
  (setBook sv _ _).trans (dispatched h.dispatched)

theorem submission (sv : Server) (env : Env) (x : Submission) (o : Order ℚ) : SameSessions sv (sv.saveSubmission env x o) := by
  obtain ⟨disk, n, hw, -⟩ := write_eq { sv.logUuid x.orderId with submissions := sv.submissions ++ [x] } env (Db.saveOrder · o env.now)
  unfold saveSubmission
  dsimp only
  rw [hw]
  exact ⟨rfl, rfl, fun _ => rfl⟩

/-- Only a new connection, a closing session and a new process change the map. -/
theorem effect {ev : Event} (h : Effect env ev sv sv') (hconnect : ev ≠ .connect) (hclose : ∀ s, ev ≠ .close s)
    (hrestart : ev ≠ .restart) : SameSessions sv sv' := by
  cases h with
  | quiet h _ => exact quiet h
  | connected => exact absurd rfl hconnect
  | closed _ => exact absurd rfl (hclose _)
  | created h₁ _ h₂ _ => exact (quiet h₁).trans ((setBook ..).trans (quiet h₂))
  | ticked _ => exact setBook ..
  | submitted _ _ h₁ ha => exact (quiet h₁).trans ((submission ..).trans ((added ha).trans ⟨rfl, rfl, fun _ => rfl⟩))
  | cancelled _ h₁ _ hc => exact (quiet h₁).trans (cancelled hc)
  | reported _ h₁ _ _ _ => exact (quiet h₁).trans ⟨rfl, rfl, fun _ => rfl⟩
  | generated hg =>
    unfold generate
    rw [hg]
    exact ⟨rfl, rfl, fun _ => rfl⟩
  | dropped _ => exact ⟨rfl, rfl, fun _ => rfl⟩
  | @posted _ _ _ rest _ _ _ ha =>
    have hpop : SameSessions sv { sv with posted := rest } := ⟨rfl, rfl, fun _ => rfl⟩
    exact hpop.trans (added ha)
  | generatorCancelled h₁ hc => exact (quiet h₁).trans (cancelled hc)
  | restarted _ _ _ => exact absurd rfl hrestart

end SameSessions

/-! ## What leaves the callbacks alone -/

/-- The disconnect callbacks that have fired are the same. -/
def SameCallbacks (sv sv' : Server) : Prop := ∀ s, (sv'.sessionAt s).connected = (sv.sessionAt s).connected

namespace SameCallbacks

variable {env : Env} {sv sv' : Server} {s : SessionPtr}

theorem of_sessionAt (h : sv'.sessionAt = sv.sessionAt) : SameCallbacks sv sv' := fun s => by rw [h]

theorem setSession {x : Session} (hx : x.connected = (sv.sessionAt s).connected) : SameCallbacks sv (sv.setSession s x) := by
  intro t
  show (Function.update sv.sessionAt s x t).connected = _
  by_cases ht : t = s
  · rw [ht, Function.update_self, hx]
  · rw [Function.update_of_ne ht]

theorem requireAuth (sv : Server) (s : SessionPtr) (permission : String) : SameCallbacks sv (sv.requireAuth s permission).2 := by
  unfold Server.requireAuth
  dsimp only
  split_ifs
  · exact fun _ => rfl
  · exact setSession rfl
  · exact fun _ => rfl
  · exact fun _ => rfl
  · exact fun _ => rfl

theorem login (sv : Server) (env : Env) (username permissions : String) (s : SessionPtr) :
    SameCallbacks sv (sv.login env username permissions s) :=
  @setSession (sv.logUuid (generateUuid env.uuid)) s _ rfl

theorem handleLogin (sv : Server) (env : Env) (username password : String) (s : SessionPtr) :
    SameCallbacks sv (sv.handleLogin env username password s) := by
  unfold Server.handleLogin
  split_ifs
  · exact login sv env username _ s
  · cases sv.disk.getUser username with
    | none => exact login sv env username _ s
    | some user => exact login sv env username _ s
  · exact fun _ => rfl

/-- A checked request, by a handler that does not touch the sessions. -/
theorem checked {permission : String} {f : Server → Option Server} (hf : ∀ {sv sv'}, f sv = some sv' → SameAccounts sv sv')
    (h : (if (sv.requireAuth s permission).1 = true then f (sv.requireAuth s permission).2
      else some (sv.requireAuth s permission).2) = some sv') : SameCallbacks sv sv' := by
  have hreq := requireAuth sv s permission
  split_ifs at h
  · intro t
    rw [(hf h).sessionAt]
    exact hreq t
  · cases h
    exact hreq

theorem handleMessage {m : Request} (h : sv.handleMessage env m s = some sv') : SameCallbacks sv sv' := by
  cases m with
  | login username password => cases h; exact handleLogin sv env username password s
  | register username password => cases h; exact of_sessionAt (handleRegister_cases sv env username password s).sessionAt
  | snapshotRequest symbol =>
    refine checked (f := fun sv => some (sv.handleSnapshotRequest symbol s)) (fun h => ?_) h
    cases h; exact .handleSnapshotRequest _ symbol s
  | orderSubmit m => exact checked (f := fun sv => sv.handleOrderSubmit env m s) .handleOrderSubmit h
  | orderCancel id c =>
    refine checked (f := fun sv => some (sv.handleOrderCancel env id s)) (fun h => ?_) h
    cases h; exact .handleOrderCancel _ env id s
  | orderStatus id c =>
    refine checked (f := fun sv => some (sv.handleOrderStatus id s)) (fun h => ?_) h
    cases h; exact .handleOrderStatus _ id s
  | other => cases h; exact fun _ => rfl

theorem step {ev : Event} (h : sv.step (env, ev) = some sv') (hconnect : ev ≠ .connect) (hclose : ∀ s, ev ≠ .close s)
    (hrestart : ev ≠ .restart) : SameCallbacks sv sv' := by
  have hsame : ∀ {sv sv' : Server}, SameAccounts sv sv' → SameCallbacks sv sv' := fun h => of_sessionAt h.sessionAt
  cases ev with
  | connect => exact absurd rfl hconnect
  | close s => exact absurd rfl (hclose s)
  | message s m =>
    replace h : (if sv.hasSession s then sv.handleMessage env m s else some sv) = some sv' := h
    split_ifs at h
    · exact handleMessage h
    · cases h; exact fun _ => rfl
  | snapshotTimer => cases h; exact hsame (.sendOrderbookSnapshots sv)
  | generate d => cases h; exact hsame (.generate sv env d)
  | posted => exact hsame (.handlePosted h)
  | generatorCancel i => cases h; exact hsame (.tryCancel sv env i)
  | createOrderbook symbol tickSize => cases h; exact hsame (.createOrderbook sv symbol tickSize)
  | setOrderbookTickSize symbol tickSize =>
    cases h
    unfold Server.setOrderbookTickSize
    split_ifs
    · exact fun _ => rfl
    · cases sv.orderbooks.find? symbol with
      | none => exact fun _ => rfl
      | some b => exact fun _ => rfl
  | restart => exact absurd rfl hrestart

end SameCallbacks

/-! ## The invariant -/

namespace Attached

variable {env : Env} {sv sv' : Server}

theorem same (h : Attached sv) (hs : SameSessions sv sv') (hc : SameCallbacks sv sv') : Attached sv' := fun c s hfind => by
  rw [hs.sessions] at hfind
  rw [hs.nextSession, hs.clientId, hc s]
  exact h c s hfind

theorem connect (h : Attached sv) (env : Env) : Attached (sv.acceptConnection env) := fun c s hfind => by
  replace hfind : (sv.sessions.insert (generateUuid env.uuid) sv.nextSession).find? c = some s := hfind
  rw [SortedMap.find?_insert] at hfind
  split_ifs at hfind with hc
  · cases hfind
    have hself : (sv.acceptConnection env).sessionAt sv.nextSession = .new (generateUuid env.uuid) := Function.update_self ..
    refine ⟨Nat.lt_succ_self _, ?_, by rw [hself]; rfl⟩
    unfold Server.clientId
    rw [hself, hc]; rfl
  · obtain ⟨hlt, hid, hconn⟩ := h c s hfind
    have hother : (sv.acceptConnection env).sessionAt s = sv.sessionAt s := Function.update_of_ne (Nat.ne_of_lt hlt) ..
    refine ⟨Nat.lt_succ_of_lt hlt, ?_, by rw [hother]; exact hconn⟩
    unfold Server.clientId
    rw [hother]
    exact hid

/-- The closed session leaves the map, as it stands there only under its client id. -/
theorem closed (h : Attached sv) (t : SessionPtr) :
    Attached ((sv.setSession t { sv.sessionAt t with connected := false }).removeSession t) := fun c s hfind => by
  have hq := Quiet.setSession sv t { sv.sessionAt t with connected := false } rfl
  replace hfind : (sv.sessions.erase ((sv.setSession t { sv.sessionAt t with connected := false }).clientId t)).find? c = some s :=
    hfind
  rw [hq.clientId, SortedMap.find?_erase] at hfind
  split_ifs at hfind with hc
  obtain ⟨hlt, hid, hconn⟩ := h c s hfind
  have hne : s ≠ t := fun e => hc (by rw [← hid, e])
  have hother : ((sv.setSession t { sv.sessionAt t with connected := false }).removeSession t).sessionAt s = sv.sessionAt s :=
    Function.update_of_ne hne ..
  refine ⟨hlt, ?_, by rw [hother]; exact hconn⟩
  unfold Server.clientId
  rw [hother]
  exact hid

theorem restarted {sv₁ sv₂ : Server} {rows : List OrderRow} (hb : Booted env sv sv₁) (hr : Restored env rows sv₁ sv₂)
    (hq : Quiet sv₂ sv') : Attached sv' := by
  have hempty : sv₂.sessions = .empty :=
    hr.rule (K := fun sv => sv.sessions = .empty) hb.sessions fun ha h => (SameSessions.added ha).sessions.trans h
  intro c s hfind
  rw [hq.sessions, hempty] at hfind
  cases hfind

theorem step {ev : Event} (h : Attached sv) (he : Effect env ev sv sv') (hstep : sv.step (env, ev) = some sv') :
    Attached sv' := by
  by_cases hconnect : ev = .connect
  · subst hconnect
    cases hstep
    exact h.connect env
  by_cases hclose : ∃ s, ev = .close s
  · obtain ⟨s, rfl⟩ := hclose
    replace hstep : some (if sv.hasSession s then sv.close s else sv) = some sv' := hstep
    unfold Server.close at hstep
    split_ifs at hstep
    · cases hstep; exact h.closed s
    · cases hstep; exact h
    · cases hstep; exact h
  by_cases hrestart : ev = .restart
  · subst hrestart
    cases he with
    | restarted hb hr hq => exact restarted hb hr hq
    | quiet _ hev => exact absurd rfl hev
    | created _ _ _ hev => exact absurd rfl hev
  exact h.same (.effect he hconnect (fun s hs => hclose ⟨s, hs⟩) hrestart)
    (.step hstep hconnect (fun s hs => hclose ⟨s, hs⟩) hrestart)

end Attached

theorem run_attached (config : Config) (env : Env) (evs : List (Env × Event)) :
    ∃ sv, run config env evs = some sv ∧ Sound sv ∧ Attached sv := by
  refine Machine.foldlM_prefix (I := fun _ sv => Sound sv ∧ Attached sv) ?_ ⟨.initial config, fun _ _ h => by cases h⟩
  rintro pre ⟨e, ev⟩ sv - ⟨hs, ha⟩
  obtain ⟨sv', hstep, he⟩ := step_effect hs e ev
  exact ⟨sv', hstep, he.sound hs, ha.step he hstep⟩

end OrderbookGC.Server
