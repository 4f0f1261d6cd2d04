/-
What is left of a session that has been removed. `removeSession` takes the client id out of `sessions_`,
`subscriptions_` and `order_owners_`, but a message that was read before the close may be handled after it, and its
handler subscribes the session again. `run_clean_iff` says exactly which histories are clean all along.
-/
import OrderbookGC.Server.Ids

namespace OrderbookGC

open Container OrderBook MatchState

namespace Server

/-- The client id is that of a session in `sessions_`. -/
def Connected (sv : Server) (c : String) : Prop := (sv.sessions.find? c).isSome

/-- Every subscription and every recorded owner is that of a session in `sessions_`. -/
structure Clean (sv : Server) : Prop where
  subscriptions : ∀ c, (sv.subscriptions.find? c).isSome → sv.Connected c
  owners : ∀ id c, sv.orderOwners.find? id = some c → sv.Connected c

/-- The handler of the message gets as far as subscribing the client of the session. -/
def Subscribes (sv : Server) (s : SessionPtr) : Request → Prop
  | .snapshotRequest _ => (sv.requireAuth s "view").1 = true
  | .orderSubmit m => (sv.requireAuth s "trade").1 = true ∧ (sv.getOrderbook m.symbol).isSome
  | _ => False

/-- The event is not a message that subscribes a client whose session has been removed. -/
def Attended (sv : Server) (ev : Env × Event) : Prop :=
  ∀ s m, ev.2 = .message s m → sv.hasSession s = true → sv.Subscribes s m → sv.Connected (sv.clientId s)

/-! ## What subscribes nobody -/

/-- A step that subscribes nobody and records no owner, in the same sessions. -/
structure Tidy (sv sv' : Server) : Prop where
  clientId : ∀ s, sv'.clientId s = sv.clientId s
  sessions : sv'.sessions = sv.sessions
  subscriptions : sv'.subscriptions = sv.subscriptions
  owners : ∀ id c, sv'.orderOwners.find? id = some c → sv.orderOwners.find? id = some c

namespace Tidy

variable {sv sv' sv'' : Server}

theorem trans (h : Tidy sv sv') (h' : Tidy sv' sv'') : Tidy sv sv'' :=
  ⟨fun s => (h'.clientId s).trans (h.clientId s), h'.sessions.trans h.sessions, h'.subscriptions.trans h.subscriptions,
    fun id c hc => h.owners id c (h'.owners id c hc)⟩

theorem of_quiet (h : Quiet sv sv') (hs : sv'.subscriptions = sv.subscriptions) : Tidy sv sv' :=
  ⟨h.clientId, h.sessions, hs, fun id c hc => by rw [← h.orderOwners]; exact hc⟩

theorem refl (sv : Server) : Tidy sv sv := of_quiet (.refl sv) rfl

theorem clean (h : Tidy sv sv') (hc : Clean sv) : Clean sv' := by
  have hconn : ∀ c, sv.Connected c → sv'.Connected c := fun c hx => by
    unfold Connected
    rw [h.sessions]
    exact hx
  exact ⟨fun c hx => hconn c (hc.subscriptions c (h.subscriptions ▸ hx)),
    fun id c hx => hconn c (hc.owners id c (h.owners id c hx))⟩

variable (sv) (env : Env) (s : SessionPtr)

theorem sendMessage {r : Response} : Tidy sv (sv.sendMessage s r) := ⟨fun _ => rfl, rfl, rfl, fun _ _ hc => hc⟩

theorem write (stmt : Bool → Db → Bool × Db) : Tidy sv (sv.write env stmt).2 := by
  obtain ⟨disk, n, hw, -⟩ := write_eq sv env stmt
  rw [hw]
  exact ⟨fun _ => rfl, rfl, rfl, fun _ _ hc => hc⟩

theorem broadcast (symbol : String) (r : Response) : Tidy sv (sv.broadcast symbol r) := by
  obtain ⟨l, hb, -⟩ := broadcast_eq sv symbol r
  rw [hb]
  exact ⟨fun _ => rfl, rfl, rfl, fun _ _ hc => hc⟩

theorem requireAuth (permission : String) : Tidy sv (sv.requireAuth s permission).2 := by
  refine of_quiet (.requireAuth sv s permission) ?_
  unfold Server.requireAuth
  dsimp only
  split_ifs <;> rfl

theorem handleLogin (username password : String) : Tidy sv (sv.handleLogin env username password s) := by
  refine of_quiet (.handleLogin sv env s username password) ?_
  unfold Server.handleLogin
  split_ifs
  · rfl
  · split <;> rfl
  · rfl

theorem handleRegister (username password : String) : Tidy sv (sv.handleRegister env username password s) := by
  refine of_quiet (.handleRegister sv env s username password) ?_
  unfold Server.handleRegister
  have hw := (write sv env (Db.saveUser · ⟨username, password, "trade,view"⟩ (env.salts 0))).subscriptions
  split_ifs
  · rfl
  · rfl
  · rfl
  · rfl
  · rfl
  · dsimp only
    split_ifs <;> exact hw

theorem sendOrderbookSnapshots : Tidy sv sv.sendOrderbookSnapshots := by
  unfold Server.sendOrderbookSnapshots
  generalize sv.orderbooks.entries = l
  induction l generalizing sv with
  | nil => exact refl sv
  | cons e l ih => exact (broadcast sv e.1 _).trans (ih _)

/-- The callbacks of a call may erase owners and do no more. -/
theorem dispatch (heap : OrderPtr → Order ℚ) (cbs : List (Callback ℚ)) : Tidy sv (dispatch env heap cbs sv) := by
  have hd := dispatch_dispatched env heap cbs sv
  refine ⟨fun s => by unfold Server.clientId; rw [hd.sessionAt], hd.sessions, ?_, fun id c hc => hd.owner_of hc⟩
  clear hd
  unfold Server.dispatch
  induction cbs generalizing sv with
  | nil => rfl
  | cons cb cbs ih =>
    rw [List.foldl_cons, ih]
    cases cb with
    | trade t =>
      unfold onTradeExecuted
      dsimp only
      rw [(broadcast _ t.symbol _).subscriptions, (write _ env _).subscriptions]
    | order p =>
      unfold onOrderUpdated
      have hw := (write sv env (Db.updateOrder · (heap p))).subscriptions
      dsimp only
      split
      · exact hw
      · split_ifs
        · exact hw
        · exact hw
        · split <;> exact hw
        · split <;> exact hw

theorem addOrder {b : OrderBook ℚ} {o : Order ℚ} {r : Order ℚ × Server} (h : sv.addOrder env b o = some r) :
    Tidy sv r.2 := by
  unfold Server.addOrder at h
  obtain ⟨out, -, rfl⟩ := Option.map_eq_some_iff.1 h
  have hset : Tidy sv (sv.setBook o.symbol out.state.toOrderBook) := ⟨fun _ => rfl, rfl, rfl, fun _ _ hc => hc⟩
  exact hset.trans (dispatch _ env _ _)

theorem cancelOrder (symbol : String) (b : OrderBook ℚ) (id : String) : Tidy sv (sv.cancelOrder env symbol b id).2 := by
  unfold Server.cancelOrder
  have hset : ∀ b', Tidy sv (sv.setBook symbol b') := fun _ => ⟨fun _ => rfl, rfl, rfl, fun _ _ hc => hc⟩
  exact (hset _).trans (dispatch _ env _ _)

theorem cancelLoop (id : String) : ∀ (l : List (String × OrderBook ℚ)) (sv : Server),
    Tidy sv (Server.cancelLoop env id l sv).2
  | [], sv => refl sv
  | (symbol, b) :: rest, sv => by
    unfold Server.cancelLoop
    dsimp only
    split_ifs
    · exact cancelOrder sv env symbol b id
    · exact (cancelOrder sv env symbol b id).trans (cancelLoop id rest _)

theorem handleOrderCancel (id : String) : Tidy sv (sv.handleOrderCancel env id s) := by
  unfold Server.handleOrderCancel
  dsimp only
  split_ifs
  · exact cancelLoop env id _ sv
  · exact (cancelLoop env id _ sv).trans (sendMessage _ s)
  · exact sendMessage sv s

theorem handleOrderStatus (id : String) : Tidy sv (sv.handleOrderStatus id s) := by
  unfold Server.handleOrderStatus
  split_ifs
  · split <;> exact sendMessage sv s
  · exact sendMessage sv s

theorem saveSubmission (x : Submission) (o : Order ℚ) : Tidy sv (sv.saveSubmission env x o) := by
  obtain ⟨disk, n, heq, -⟩ := saveSubmission_eq sv env x o
  rw [heq]
  exact ⟨fun _ => rfl, rfl, rfl, fun _ _ hc => hc⟩

theorem createOrderbook (symbol : String) (tickSize : ℚ) : Tidy sv (sv.createOrderbook symbol tickSize).2 := by
  unfold Server.createOrderbook
  split_ifs
  · exact refl sv
  · exact ⟨fun _ => rfl, rfl, rfl, fun _ _ hc => hc⟩

theorem setOrderbookTickSize (symbol : String) (tickSize : ℚ) :
    Tidy sv (sv.setOrderbookTickSize symbol tickSize).2 := by
  unfold Server.setOrderbookTickSize
  split_ifs
  · exact refl sv
  · split
    · exact refl sv
    · exact ⟨fun _ => rfl, rfl, rfl, fun _ _ hc => hc⟩

theorem generate (d : GeneratorDraws) : Tidy sv (sv.generate env d) := by
  unfold Server.generate
  split
  · exact refl sv
  · exact ⟨fun _ => rfl, rfl, rfl, fun _ _ hc => hc⟩

theorem handlePosted {sv'} (h : sv.handlePosted env = some sv') : Tidy sv sv' := by
  unfold Server.handlePosted at h
  split at h
  · cases h; exact refl sv
  · next o rest hp =>
    have hpop : Tidy sv { sv with posted := rest } := ⟨fun _ => rfl, rfl, rfl, fun _ _ hc => hc⟩
    dsimp only at h
    split at h
    · cases h; exact hpop
    · obtain ⟨r, hr, rfl⟩ := Option.map_eq_some_iff.1 h
      exact hpop.trans (addOrder _ env hr)

theorem tryCancel (i : Nat) : Tidy sv (sv.tryCancel env i) := by
  unfold Server.tryCancel
  split
  · exact refl sv
  · next g hg =>
    split
    · exact refl sv
    · next id hid =>
      have htrack : Tidy sv { sv with generator := some { g with tracked := g.tracked.eraseIdx i } } :=
        ⟨fun _ => rfl, rfl, rfl, fun _ _ hc => hc⟩
      dsimp only
      split
      · exact htrack
      · exact htrack.trans (cancelOrder _ env _ _ _)

theorem restoreLoop : ∀ (orders : List (Order ℚ)) (sv sv' : Server), orders.foldlM (restore env) sv = some sv' →
    Tidy sv sv'
  | [], sv, sv', h => by cases h; exact refl sv
  | o :: orders, sv, sv', h => by
    rw [List.foldlM_cons] at h
    obtain ⟨sv₁, h1, h2⟩ := Option.bind_eq_some_iff.1 h
    refine trans ?_ (restoreLoop orders sv₁ sv' h2)
    unfold restore at h1
    split at h1
    · cases h1; exact refl sv
    · obtain ⟨r, hr, rfl⟩ := Option.map_eq_some_iff.1 h1
      exact addOrder sv env hr

theorem initPersistence {opens : Bool} {sv' : Server} (h : sv.initPersistence env opens = some sv') : Tidy sv sv' := by
  unfold Server.initPersistence at h
  split_ifs at h
  · obtain ⟨disk, n, hseed, -⟩ := seedDefaultUsers_eq { sv with storeOpen := true } env
    rw [hseed] at h
    refine trans ?_ (restoreLoop env _ _ _ h)
    exact ⟨fun _ => rfl, rfl, rfl, fun _ _ hc => hc⟩
  · cases h; exact refl sv

end Tidy

/-! ## What subscribes -/

section Steps

variable {sv sv' : Server} {env : Env}

/-- A subscription keeps a clean server clean exactly when the session is still there. -/
theorem subscribe_clean (hc : Clean sv) (s : SessionPtr) (symbol : String) :
    Clean (sv.subscribe s symbol) ↔ sv.Connected (sv.clientId s) := by
  have hself : ((sv.subscribe s symbol).subscriptions.find? (sv.clientId s)).isSome := by
    unfold subscribe
    rw [SortedMap.find?_insert_self]
    rfl
  refine ⟨fun h => h.subscriptions _ hself, fun h => ⟨fun c hx => ?_, hc.owners⟩⟩
  unfold subscribe at hx
  dsimp only at hx
  rw [SortedMap.find?_insert] at hx
  split_ifs at hx with he
  · exact he ▸ h
  · exact hc.subscriptions c hx

/-- What follows a subscription: nobody else is subscribed, and the owners are known or the session's client. -/
structure Follows (s : SessionPtr) (symbol : String) (sv sv' : Server) : Prop where
  sessions : sv'.sessions = sv.sessions
  subscriptions : sv'.subscriptions = (sv.subscribe s symbol).subscriptions
  owners : ∀ id c, sv'.orderOwners.find? id = some c → sv.orderOwners.find? id = some c ∨ c = sv.clientId s

theorem Follows.clean {s : SessionPtr} {symbol : String} (h : Follows s symbol sv sv') (hc : Clean sv) :
    Clean sv' ↔ sv.Connected (sv.clientId s) := by
  rw [← subscribe_clean hc s symbol]
  have hconn : ∀ c, sv'.Connected c ↔ sv.Connected c := fun c => by
    unfold Connected
    rw [h.sessions]
  constructor
  · intro h'
    refine ⟨fun c hx => (hconn c).1 (h'.subscriptions c (by rw [h.subscriptions]; exact hx)), hc.owners⟩
  · intro h'
    refine ⟨fun c hx => (hconn c).2 (h'.subscriptions c (by rw [← h.subscriptions]; exact hx)), fun id c hx => ?_⟩
    rcases h.owners id c hx with ho | rfl
    · exact (hconn c).2 (hc.owners id c ho)
    · exact (hconn _).2 ((subscribe_clean hc s symbol).1 h')

theorem handleSnapshotRequest_follows (sv : Server) (symbol : String) (s : SessionPtr) :
    Follows s symbol sv (sv.handleSnapshotRequest symbol s) := by
  have key : Tidy (sv.subscribe s symbol) (sv.handleSnapshotRequest symbol s) := by
    unfold handleSnapshotRequest
    dsimp only
    generalize hr : (if ((sv.subscribe s symbol).getOrderbook symbol).isSome then (true, sv.subscribe s symbol)
      else (sv.subscribe s symbol).createOrderbook symbol defaultTickSize) = r
    have htidy : Tidy (sv.subscribe s symbol) r.2 := by
      rw [← hr]
      split_ifs
      · exact .refl _
      · exact .createOrderbook _ symbol defaultTickSize
    split_ifs
    · exact htidy.trans (.sendMessage _ s)
    · split
      · exact htidy
      · exact htidy.trans (.sendMessage _ s)
  exact ⟨key.sessions, key.subscriptions, fun id c hx => .inl (key.owners id c hx)⟩

theorem handleOrderSubmit_follows {m : OrderSubmitMessage} {s : SessionPtr} {b : OrderBook ℚ}
    (hb : sv.getOrderbook m.symbol = some b) (h : sv.handleOrderSubmit env m s = some sv') :
    Follows s m.symbol sv sv' := by
  unfold handleOrderSubmit at h
  rw [hb] at h
  dsimp only at h
  obtain ⟨r, hr, rfl⟩ := Option.map_eq_some_iff.1 h
  have key : Tidy (sv.subscribe s m.symbol) r.2 := (Tidy.saveSubmission _ env _ _).trans (Tidy.addOrder _ env hr)
  refine ⟨key.sessions, key.subscriptions, fun id c hx => ?_⟩
  unfold acknowledge at hx
  change (r.2.orderOwners.insert r.1.id (r.2.clientId s)).find? id = some c at hx
  rw [SortedMap.find?_insert] at hx
  split_ifs at hx
  · exact .inr ((Option.some.inj hx).symm.trans (key.clientId s))
  · exact .inl (key.owners id c hx)

theorem Clean.connect (hc : Clean sv) (env : Env) : Clean (sv.acceptConnection env) := by
  have hconn : ∀ c, sv.Connected c → (sv.acceptConnection env).Connected c := fun c h => by
    unfold Connected acceptConnection at *
    dsimp only
    rw [SortedMap.find?_insert]
    split_ifs
    · rfl
    · exact h
  exact ⟨fun c h => hconn c (hc.subscriptions c h), fun id c h => hconn c (hc.owners id c h)⟩

theorem Clean.close (hc : Clean sv) (s : SessionPtr) : Clean (sv.close s) := by
  unfold Server.close
  split_ifs
  · generalize hsv : sv.setSession s { sv.sessionAt s with connected := false } = sv₁
    have htidy : Tidy sv sv₁ := hsv ▸ .of_quiet (.setSession sv s _ rfl) rfl
    have hc₁ := htidy.clean hc
    -- what carries another client id than the removed one keeps its session
    have hconn : ∀ c, c ≠ sv₁.clientId s → sv₁.Connected c → (sv₁.removeSession s).Connected c := fun c hne h => by
      unfold Connected removeSession at *
      dsimp only
      rw [SortedMap.find?_erase, if_neg hne]
      exact h
    refine ⟨fun c h => ?_, fun id c h => ?_⟩
    · unfold removeSession at h
      dsimp only at h
      rw [SortedMap.find?_erase] at h
      split_ifs at h with he
      · cases h
      · exact hconn c he (hc₁.subscriptions c h)
    · unfold removeSession at h
      dsimp only at h
      rw [SortedMap.find?_filterMapVals, Option.bind_eq_some_iff] at h
      obtain ⟨c', hc', h⟩ := h
      split_ifs at h with he
      cases h
      exact hconn c he (hc₁.owners id c hc')
  · exact hc

theorem Clean.restart (h : sv.restart env = some sv') : Clean sv' := by
  have hboot : Clean sv.boot := by
    obtain ⟨m, hm, -⟩ := boot_eq sv
    rw [hm]
    exact ⟨fun c hx => (by cases hx), fun id c hx => (by cases hx)⟩
  unfold Server.restart at h
  obtain ⟨sv₁, h1, h2⟩ := Option.bind_eq_some_iff.1 h
  obtain ⟨g, hg⟩ := configureOrderGenerator_eq sv₁
  have htidy : Tidy sv₁ sv₁.configureOrderGenerator := by
    rw [hg]
    exact ⟨fun _ => rfl, rfl, rfl, fun _ _ hc => hc⟩
  have hclean := htidy.clean ((Tidy.initPersistence _ env h1).clean hboot)
  dsimp only at h2
  split_ifs at h2
  · cases h2; exact hclean
  · exact (Tidy.initPersistence _ env h2).clean hclean

/-- A message keeps a clean server clean exactly when it does not subscribe the client of a removed session. -/
theorem handleMessage_clean (hc : Clean sv) {s : SessionPtr} {m : Request}
    (h : sv.handleMessage env m s = some sv') :
    Clean sv' ↔ (sv.Subscribes s m → sv.Connected (sv.clientId s)) := by
  have quiet : Tidy sv sv' → ¬ sv.Subscribes s m →
      (Clean sv' ↔ (sv.Subscribes s m → sv.Connected (sv.clientId s))) := fun ht hn =>
    ⟨fun _ hs => absurd hs hn, fun _ => ht.clean hc⟩
  -- after `requireAuth` the session has the client id it had
  have subscribed : ∀ {permission symbol}, Follows s symbol (sv.requireAuth s permission).2 sv' → sv.Subscribes s m →
      (Clean sv' ↔ (sv.Subscribes s m → sv.Connected (sv.clientId s))) := fun {permission symbol} hf hs => by
    have ht := Tidy.requireAuth sv s permission
    rw [hf.clean (ht.clean hc), ht.clientId]
    unfold Connected
    rw [ht.sessions]
    exact ⟨fun h _ => h, fun h => h hs⟩
  cases m with
  | login username password => cases h; exact quiet (.handleLogin sv env s username password) id
  | register username password => cases h; exact quiet (.handleRegister sv env s username password) id
  | snapshotRequest symbol =>
    unfold handleMessage at h
    dsimp only at h
    split_ifs at h with hok
    · cases h
      exact subscribed (handleSnapshotRequest_follows _ symbol s) hok
    · cases h
      exact quiet (.requireAuth sv s "view") hok
  | orderSubmit m =>
    unfold handleMessage at h
    dsimp only at h
    split_ifs at h with hok
    · cases hb : (sv.requireAuth s "trade").2.getOrderbook m.symbol with
      | none =>
        have hnone : sv.getOrderbook m.symbol = none := by
          unfold getOrderbook at hb ⊢
          rwa [(Quiet.requireAuth sv s "trade").orderbooks] at hb
        unfold handleOrderSubmit at h
        rw [hb] at h
        cases h
        refine quiet ((Tidy.requireAuth sv s "trade").trans (.sendMessage _ s)) ?_
        rintro ⟨-, hbook⟩
        rw [hnone] at hbook
        cases hbook
      | some b =>
        have hsome : sv.getOrderbook m.symbol = some b := by
          unfold getOrderbook at hb ⊢
          rwa [(Quiet.requireAuth sv s "trade").orderbooks] at hb
        exact subscribed (handleOrderSubmit_follows hb h) ⟨hok, by rw [hsome]; rfl⟩
    · cases h
      exact quiet (.requireAuth sv s "trade") fun hs => hok hs.1
  | orderCancel id c =>
    unfold handleMessage at h
    dsimp only at h
    split_ifs at h
    · cases h; exact quiet ((Tidy.requireAuth sv s "trade").trans (.handleOrderCancel _ env s id)) not_false
    · cases h; exact quiet (.requireAuth sv s "trade") not_false
  | orderStatus id c =>
    unfold handleMessage at h
    dsimp only at h
    split_ifs at h
    · cases h; exact quiet ((Tidy.requireAuth sv s "view").trans (.handleOrderStatus _ s id)) not_false
    · cases h; exact quiet (.requireAuth sv s "view") not_false
  | other => cases h; exact quiet (.sendMessage sv s) not_false

theorem step_clean (hc : Clean sv) {ev : Event} (h : sv.step (env, ev) = some sv') :
    Clean sv' ↔ sv.Attended (env, ev) := by
  have other : Clean sv' → (∀ s m, ev ≠ .message s m) → (Clean sv' ↔ sv.Attended (env, ev)) := fun hc' hne =>
    ⟨fun _ s m he => absurd he (hne s m), fun _ => hc'⟩
  cases ev with
  | connect => cases h; exact other (hc.connect env) nofun
  | close s =>
    cases h
    refine other ?_ nofun
    split_ifs
    · exact hc.close s
    · exact hc
  | message s m =>
    unfold step at h
    dsimp only at h
    split_ifs at h with hs
    · rw [handleMessage_clean hc h]
      constructor
      · rintro hm s' m' he -
        cases he
        exact hm
      · exact fun hA => hA s m rfl hs
    · cases h
      refine ⟨fun _ s' m' he hs' => ?_, fun _ => hc⟩
      cases he
      exact absurd hs' hs
  | snapshotTimer => cases h; exact other ((Tidy.sendOrderbookSnapshots sv).clean hc) nofun
  | generate d => cases h; exact other ((Tidy.generate sv env d).clean hc) nofun
  | posted => exact other ((Tidy.handlePosted sv env h).clean hc) nofun
  | generatorCancel i => cases h; exact other ((Tidy.tryCancel sv env i).clean hc) nofun
  | createOrderbook symbol tickSize => cases h; exact other ((Tidy.createOrderbook sv symbol tickSize).clean hc) nofun
  | setOrderbookTickSize symbol tickSize =>
    cases h
    exact other ((Tidy.setOrderbookTickSize sv symbol tickSize).clean hc) nofun
  | restart => exact other (Clean.restart h) nofun

end Steps

/-- A history leaves no subscription and no owner of a removed session behind, at any time, exactly when none of its
messages subscribes the client of a session that was removed before. -/
theorem run_clean_iff (config : Config) (env : Env) (evs : List (Env × Event)) :
    (∀ pre, pre <+: (env, .restart) :: evs → ∃ sv, pre.foldlM step (initial config) = some sv ∧ Clean sv) ↔
      Machine.Along step Attended (initial config) ((env, .restart) :: evs) := by
  have hinit : Clean (initial config) := ⟨fun c hx => (by cases hx), fun id c hx => (by cases hx)⟩
  have hret : ∀ sv a, Sound sv → ∃ sv', step sv a = some sv' ∧ Sound sv' := fun sv a hs => by
    obtain ⟨sv', h1, h2⟩ := step_effect hs a.1 a.2
    exact ⟨sv', h1, h2.sound hs⟩
  rw [← Machine.forall_prefix_iff_along (G := fun _ => True) hret (fun _ _ _ _ _ _ => trivial)
    (fun sv a sv' _ _ hc h => step_clean hc h) _ _ (Sound.initial config) (fun _ _ => trivial) hinit]
  refine forall_congr' fun pre => forall_congr' fun _ => ?_
  obtain ⟨sv, hrun, -⟩ := Machine.foldlM_prefix (I := fun _ sv => Sound sv) (l := pre)
    (fun _ a sv _ hs => hret sv a hs) (Sound.initial config)
  constructor
  · rintro ⟨sv', hrun', hc⟩ sv'' h
    cases hrun'.symm.trans h
    exact hc
  · exact fun h => ⟨sv, hrun, h sv hrun⟩

/-- A client connects, its session is closed, and the order it had sent before is handled: the subscription and the
ownership of the removed client are recorded again. -/
theorem run_clean_fails : ∃ sv c id, run sampleConfig (sampleEnv false 0) [(sampleEnv false 1, .connect),
      (sampleEnv false 2, .close 0), (sampleEnv false 3, .message 0 (sampleSubmit .buy .limit 100 0 5))] = some sv ∧
    (sv.subscriptions.find? c).isSome ∧ sv.orderOwners.find? id = some c ∧ ¬ sv.Connected c := by
  have heval : (run sampleConfig (sampleEnv false 0) [(sampleEnv false 1, .connect), (sampleEnv false 2, .close 0),
      (sampleEnv false 3, .message 0 (sampleSubmit .buy .limit 100 0 5))]).map (fun sv =>
        ((sv.subscriptions.find? (generateUuid (sampleEnv false 1).uuid)).isSome,
          sv.orderOwners.find? (generateUuid (sampleEnv false 3).uuid),
          (sv.sessions.find? (generateUuid (sampleEnv false 1).uuid)).isSome)) =
      some (true, some (generateUuid (sampleEnv false 1).uuid), false) := by decide +kernel
  obtain ⟨sv, hrun, h⟩ := Option.map_eq_some_iff.1 heval
  simp only [Prod.mk.injEq] at h
  obtain ⟨h1, h2, h3⟩ := h
  refine ⟨sv, _, _, hrun, h1, h2, ?_⟩
  unfold Connected
  rw [h3]
  exact Bool.false_ne_true

end Server

end OrderbookGC
