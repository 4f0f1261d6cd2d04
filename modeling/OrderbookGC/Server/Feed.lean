/-
The trade notifications a session gets. Only `onTradeExecuted` sends them, to the sessions subscribed at that moment; so
in every event a session is told the trades of the event in the symbols it is subscribed to when the event is over, in
the order in which the book made them (`step_feed`). A session that stays subscribed is therefore told every trade of
the symbol once and in order, and one that never asks is told none (`run_feed`).
-/
import OrderbookGC.Server.Cleanup
import OrderbookGC.Server.SessionMap

namespace OrderbookGC

open Container OrderBook MatchState

namespace Server

/-- The trades of a symbol that a session has been told of. -/
def feed (sv : Server) (s : SessionPtr) (symbol : String) : List (Trade ℚ) :=
  sv.sent.filterMap fun e =>
    match e.2 with
    | .tradeNotification t => if e.1 = s ∧ t.symbol = symbol then some t else none
    | _ => none

theorem feed_of_sent {sv sv' : Server} (h : sv'.sent = sv.sent) (s : SessionPtr) (symbol : String) :
    sv'.feed s symbol = sv.feed s symbol := by
  unfold feed
  rw [h]

theorem feed_sendMessage (sv : Server) (t : SessionPtr) {r : Response} (hr : ∀ x, r ≠ .tradeNotification x) (s : SessionPtr)
    (symbol : String) : (sv.sendMessage t r).feed s symbol = sv.feed s symbol := by
  unfold feed sendMessage
  rw [List.filterMap_append]
  cases r with
  | tradeNotification x => exact absurd rfl (hr x)
  | _ => simp

theorem feed_sendMessage_trade (sv : Server) (r s : SessionPtr) (symbol : String) (t : Trade ℚ) :
    (sv.sendMessage r (.tradeNotification t)).feed s symbol =
      sv.feed s symbol ++ if r = s ∧ t.symbol = symbol then [t] else [] := by
  unfold feed sendMessage
  rw [List.filterMap_append]
  by_cases hc : r = s ∧ t.symbol = symbol <;> simp [hc]

/-! ## The subscribers of a symbol -/

/-- The client of the session is subscribed to the symbol. -/
def Wants (sv : Server) (c symbol : String) : Prop :=
  ∃ symbols, sv.subscriptions.find? c = some symbols ∧ (symbols.find? symbol).isSome

theorem mem_subscribers {sv : Server} {s : SessionPtr} {symbol : String} :
    s ∈ sv.subscribers symbol ↔ ∃ c, sv.Wants c symbol ∧ sv.sessions.find? c = some s := by
  unfold subscribers Wants
  rw [List.mem_filterMap]
  constructor
  · rintro ⟨e, he, h⟩
    split_ifs at h with hs
    exact ⟨e.1, ⟨e.2, SortedMap.find?_eq_some_iff.2 he, hs⟩, h⟩
  · rintro ⟨c, ⟨symbols, hc, hs⟩, h⟩
    exact ⟨(c, symbols), SortedMap.find?_eq_some_iff.1 hc, by rw [if_pos hs]; exact h⟩

/-- A session stands under one client id, so it is told a trade once. -/
theorem nodup_subscribers {sv : Server} (ha : ∀ c s, sv.sessions.find? c = some s → sv.clientId s = c) (symbol : String) :
    (sv.subscribers symbol).Nodup := by
  refine sv.subscriptions.sorted.filterMap _ fun e e' hlt s he s' he' => ?_
  split_ifs at he with h1
  split_ifs at he' with h2
  rintro rfl
  exact absurd ((ha e.1 s he).symm.trans (ha e'.1 s he')) (ne_of_lt hlt)

theorem subscribers_congr {sv sv' : Server} (hsub : sv'.subscriptions = sv.subscriptions) (hses : sv'.sessions = sv.sessions)
    (symbol : String) : sv'.subscribers symbol = sv.subscribers symbol := by
  unfold subscribers
  rw [hsub, hses]

/-! ## What reports trades -/

/-- A step without trades and without trade notifications, which subscribes nobody. -/
structure Silent (sv sv' : Server) : Prop extends Tidy sv sv' where
  trades : sv'.trades = sv.trades
  feed : ∀ s symbol, sv'.feed s symbol = sv.feed s symbol

theorem Silent.requireAuth (sv : Server) (s : SessionPtr) (permission : String) : Silent sv (sv.requireAuth s permission).2 := by
  refine ⟨.requireAuth sv s permission, (Quiet.requireAuth sv s permission).trades, fun t symbol => ?_⟩
  unfold Server.requireAuth
  dsimp only
  split_ifs
  · rfl
  · rfl
  · exact feed_sendMessage _ _ (by simp) _ _
  · exact feed_sendMessage _ _ (by simp) _ _
  · rfl

/-- A step that subscribes nobody and tells every subscriber the trades it makes. -/
structure Fed (sv sv' : Server) : Prop where
  subscriptions : sv'.subscriptions = sv.subscriptions
  sessions : sv'.sessions = sv.sessions
  reports : ∃ ts, sv'.trades = sv.trades ++ ts ∧ ∀ s symbol, (sv.subscribers symbol).Nodup →
    sv'.feed s symbol = sv.feed s symbol ++ if s ∈ sv.subscribers symbol then ts.filter (·.symbol = symbol) else []

namespace Fed

variable {sv sv' sv'' : Server}

theorem trans (h : Fed sv sv') (h' : Fed sv' sv'') : Fed sv sv'' := by
  obtain ⟨ts, ht, hf⟩ := h.reports
  obtain ⟨ts', ht', hf'⟩ := h'.reports
  have hsame : ∀ symbol, sv'.subscribers symbol = sv.subscribers symbol := subscribers_congr h.subscriptions h.sessions
  refine ⟨h'.subscriptions.trans h.subscriptions, h'.sessions.trans h.sessions, ts ++ ts',
    by rw [ht', ht, List.append_assoc], fun s symbol hnd => ?_⟩
  rw [hf' s symbol (by rw [hsame]; exact hnd), hf s symbol hnd, hsame, List.append_assoc]
  split_ifs
  · rw [List.filter_append]
  · rfl

theorem of_silent (h : Silent sv sv') : Fed sv sv' :=
  ⟨h.subscriptions, h.sessions, [], by rw [h.trades, List.append_nil], fun s symbol _ => by
    rw [h.feed, List.filter_nil, ite_self, List.append_nil]⟩

theorem silent (ht : Tidy sv sv') (htr : sv'.trades = sv.trades) (hf : ∀ s symbol, sv'.feed s symbol = sv.feed s symbol) :
    Fed sv sv' := of_silent ⟨ht, htr, hf⟩

theorem refl (sv : Server) : Fed sv sv := silent (.refl sv) rfl fun _ _ => rfl

variable (sv) (env : Env) (s : SessionPtr)

theorem sendMessage {r : Response} (hr : ∀ x, r ≠ .tradeNotification x) : Fed sv (sv.sendMessage s r) :=
  silent (.sendMessage sv s) rfl (feed_sendMessage sv s hr)

theorem write (stmt : Bool → Db → Bool × Db) : Fed sv (sv.write env stmt).2 := by
  obtain ⟨disk, n, hw, -⟩ := write_eq sv env stmt
  refine silent (.write sv env stmt) ?_ fun _ _ => feed_of_sent ?_ _ _ <;> rw [hw]

theorem setBook (symbol : String) (b : OrderBook ℚ) : Fed sv (sv.setBook symbol b) :=
  silent ⟨fun _ => rfl, rfl, rfl, fun _ _ hc => hc⟩ rfl fun _ _ => rfl

theorem login (username permissions : String) (t : SessionPtr) (symbol : String) :
    (sv.login env username permissions s).feed t symbol = sv.feed t symbol := by
  unfold Server.login
  exact feed_sendMessage _ _ (by simp) _ _

theorem handleLogin (username password : String) : Fed sv (sv.handleLogin env username password s) := by
  refine silent (.handleLogin sv env s username password) (Quiet.handleLogin sv env s username password).trades fun t symbol => ?_
  unfold Server.handleLogin
  split_ifs
  · exact login ..
  · split
    · exact login ..
    · exact login ..
  · exact feed_sendMessage _ _ (by simp) _ _

theorem handleRegister (username password : String) : Fed sv (sv.handleRegister env username password s) := by
  have hsend : ∀ (sv : Server) ok text, Fed sv (sv.sendMessage s (.registerResponse ok username text)) :=
    fun sv _ _ => sendMessage sv s (by simp)
  unfold Server.handleRegister
  split_ifs
  · exact hsend ..
  · exact hsend ..
  · exact hsend ..
  · exact hsend ..
  · exact hsend ..
  · dsimp only
    refine (write sv env (Db.saveUser · ⟨username, password, "trade,view"⟩ (env.salts 0))).trans ?_
    split_ifs
    · exact hsend ..
    · exact hsend ..

theorem broadcastSnapshot (symbol : String) (b : OrderBook ℚ) : Fed sv (sv.broadcast symbol (snapshotMessage symbol b)) := by
  unfold Server.broadcast
  generalize sv.subscribers symbol = l
  induction l generalizing sv with
  | nil => exact refl sv
  | cons s l ih => exact (sendMessage sv s (by simp [snapshotMessage])).trans (ih _)

theorem sendOrderbookSnapshots : Fed sv sv.sendOrderbookSnapshots := by
  unfold Server.sendOrderbookSnapshots
  generalize sv.orderbooks.entries = l
  induction l generalizing sv with
  | nil => exact refl sv
  | cons e l ih => exact (broadcastSnapshot sv e.1 e.2).trans (ih _)

/-- A list of sessions without repetition is told a trade once each. -/
theorem feed_notify (t : Trade ℚ) (symbol : String) : ∀ (l : List SessionPtr) (sv : Server), l.Nodup →
    (l.foldl (fun sv r => sv.sendMessage r (.tradeNotification t)) sv).feed s symbol =
      sv.feed s symbol ++ if s ∈ l ∧ t.symbol = symbol then [t] else []
  | [], sv, _ => by simp
  | r :: l, sv, hnd => by
    obtain ⟨hr, hl⟩ := List.nodup_cons.1 hnd
    rw [List.foldl_cons, feed_notify t symbol l _ hl, feed_sendMessage_trade, List.append_assoc]
    congr 1
    by_cases hs : t.symbol = symbol
    · by_cases hrs : r = s
      · subst hrs
        simp [hs, hr]
      · simp [hs, hrs, Ne.symm hrs]
    · simp [hs]

/-- `onTradeExecuted` tells the subscribers of the symbol. -/
theorem onTradeExecuted (t : Trade ℚ) : Fed sv (Server.onTradeExecuted env sv t) := by
  unfold Server.onTradeExecuted
  dsimp only
  generalize hsv : ({ sv with generator := sv.generator.map (Generator.updateLastPrice · t.price)
                              trades := sv.trades ++ [t] } : Server) = sv₁
  obtain ⟨disk, n, hw, -⟩ := write_eq sv₁ env (Db.saveTrade · t env.now)
  rw [hw]
  have htidy := Tidy.broadcast { sv₁ with disk, writes := n } t.symbol (.tradeNotification t)
  have htr := (Quiet.broadcast { sv₁ with disk, writes := n } t.symbol (r := .tradeNotification t) (by simp)).trades
  refine ⟨htidy.subscriptions.trans (by rw [← hsv]), htidy.sessions.trans (by rw [← hsv]), [t],
    htr.trans (by rw [← hsv]), fun s symbol hnd => ?_⟩
  have hfeed : ({ sv₁ with disk, writes := n } : Server).feed s symbol = sv.feed s symbol := by rw [← hsv]; rfl
  have hsub : ∀ x, ({ sv₁ with disk, writes := n } : Server).subscribers x = sv.subscribers x := by rw [← hsv]; exact fun _ => rfl
  unfold Server.broadcast
  by_cases hs : t.symbol = symbol
  · rw [feed_notify s t symbol _ _ (by rw [hsub, hs]; exact hnd), hfeed, hsub, hs]
    by_cases hmem : s ∈ sv.subscribers symbol <;> simp [hmem, hs]
  · have hquiet : ∀ (l : List SessionPtr) (sv : Server),
        (l.foldl (fun sv r => sv.sendMessage r (.tradeNotification t)) sv).feed s symbol = sv.feed s symbol := by
      intro l
      induction l with
      | nil => exact fun _ => rfl
      | cons r l ih => intro sv; rw [List.foldl_cons, ih, feed_sendMessage_trade, if_neg fun h => hs h.2, List.append_nil]
    rw [hquiet, hfeed]
    simp [hs]

theorem onOrderUpdated (o : Order ℚ) : Fed sv (Server.onOrderUpdated env sv o) := by
  unfold Server.onOrderUpdated
  have hw := write sv env (Db.updateOrder · o)
  generalize (sv.write env (Db.updateOrder · o)).2 = sv₁ at hw
  dsimp only
  split
  · exact hw
  · next c hc =>
    have herase : Fed sv₁ { sv₁ with orderOwners :=
        if o.status = .filled || o.status = .canceled then sv₁.orderOwners.erase o.id else sv₁.orderOwners } :=
      ⟨rfl, rfl, [], (List.append_nil _).symm, fun s symbol _ => by rw [List.filter_nil, ite_self, List.append_nil]; rfl⟩
    have h := hw.trans herase
    split_ifs at h ⊢
    · exact h
    · exact h
    · split
      · exact h
      · exact h.trans (sendMessage _ _ (by simp))
    · split
      · exact h
      · exact h.trans (sendMessage _ _ (by simp))

theorem dispatch (heap : OrderPtr → Order ℚ) (cbs : List (Callback ℚ)) : Fed sv (Server.dispatch env heap cbs sv) := by
  unfold Server.dispatch
  induction cbs generalizing sv with
  | nil => exact refl sv
  | cons cb cbs ih =>
    rw [List.foldl_cons]
    cases cb with
    | trade t => exact (onTradeExecuted sv env t).trans (ih _)
    | order p => exact (onOrderUpdated sv env (heap p)).trans (ih _)

theorem addOrder {b : OrderBook ℚ} {o : Order ℚ} {r : Order ℚ × Server} (h : sv.addOrder env b o = some r) : Fed sv r.2 := by
  unfold Server.addOrder at h
  obtain ⟨out, -, rfl⟩ := Option.map_eq_some_iff.1 h
  exact (setBook sv o.symbol _).trans (dispatch _ env _ _)

theorem cancelOrder (symbol : String) (b : OrderBook ℚ) (id : String) : Fed sv (sv.cancelOrder env symbol b id).2 := by
  unfold Server.cancelOrder
  exact (setBook sv symbol _).trans (dispatch _ env _ _)

theorem cancelLoop (id : String) : ∀ (l : List (String × OrderBook ℚ)) (sv : Server), Fed sv (Server.cancelLoop env id l sv).2
  | [], sv => refl sv
  | (symbol, b) :: rest, sv => by
    unfold Server.cancelLoop
    dsimp only
    split_ifs
    · exact cancelOrder sv env symbol b id
    · exact (cancelOrder sv env symbol b id).trans (cancelLoop id rest _)

theorem handleOrderCancel (id : String) : Fed sv (sv.handleOrderCancel env id s) := by
  unfold Server.handleOrderCancel
  dsimp only
  split_ifs
  · exact cancelLoop env id _ sv
  · exact (cancelLoop env id _ sv).trans (sendMessage _ s (by simp))
  · exact sendMessage sv s (by simp)

theorem handleOrderStatus (id : String) : Fed sv (sv.handleOrderStatus id s) := by
  unfold Server.handleOrderStatus
  split_ifs
  · split
    · exact sendMessage sv s (by simp)
    · exact sendMessage sv s (by simp)
  · exact sendMessage sv s (by simp)

theorem saveSubmission (x : Submission) (o : Order ℚ) : Fed sv (sv.saveSubmission env x o) := by
  obtain ⟨disk, n, heq, -⟩ := saveSubmission_eq sv env x o
  refine silent (.saveSubmission sv env x o) ?_ fun _ _ => feed_of_sent ?_ _ _ <;> rw [heq]

theorem createOrderbook (symbol : String) (tickSize : ℚ) : Fed sv (sv.createOrderbook symbol tickSize).2 := by
  unfold Server.createOrderbook
  split_ifs
  · exact refl sv
  · exact setBook sv symbol _

theorem setOrderbookTickSize (symbol : String) (tickSize : ℚ) : Fed sv (sv.setOrderbookTickSize symbol tickSize).2 := by
  unfold Server.setOrderbookTickSize
  split_ifs
  · exact refl sv
  · split
    · exact refl sv
    · exact setBook sv symbol _

theorem generate (d : GeneratorDraws) : Fed sv (sv.generate env d) := by
  refine silent (.generate sv env d) ?_ fun _ _ => feed_of_sent ?_ _ _ <;>
  · unfold Server.generate
    split <;> rfl

theorem handlePosted {sv'} (h : sv.handlePosted env = some sv') : Fed sv sv' := by
  unfold Server.handlePosted at h
  split at h
  · cases h; exact refl sv
  · next o rest hp =>
    have hpop : Fed sv { sv with posted := rest } := silent ⟨fun _ => rfl, rfl, rfl, fun _ _ hc => hc⟩ rfl fun _ _ => rfl
    dsimp only at h
    split at h
    · cases h; exact hpop
    · obtain ⟨r, hr, rfl⟩ := Option.map_eq_some_iff.1 h
      exact hpop.trans (addOrder _ env hr)

theorem tryCancel (i : Nat) : Fed sv (sv.tryCancel env i) := by
  unfold Server.tryCancel
  split
  · exact refl sv
  · next g hg =>
    split
    · exact refl sv
    · next id hid =>
      have htrack : Fed sv { sv with generator := some { g with tracked := g.tracked.eraseIdx i } } :=
        silent ⟨fun _ => rfl, rfl, rfl, fun _ _ hc => hc⟩ rfl fun _ _ => rfl
      dsimp only
      split
      · exact htrack
      · exact htrack.trans (cancelOrder _ env _ _ _)

theorem restoreLoop : ∀ (orders : List (Order ℚ)) (sv sv' : Server), orders.foldlM (restore env) sv = some sv' → Fed sv sv'
  | [], sv, sv', h => by cases h; exact refl sv
  | o :: orders, sv, sv', h => by
    rw [List.foldlM_cons] at h
    obtain ⟨sv₁, h1, h2⟩ := Option.bind_eq_some_iff.1 h
    refine trans ?_ (restoreLoop orders sv₁ sv' h2)
    unfold restore at h1
    split at h1
    · cases h1; exact refl sv
    · obtain ⟨r, hr, rfl⟩ := Option.map_eq_some_iff.1 h1
      exact addOrder sv env hr

theorem initPersistence {opens : Bool} {sv' : Server} (h : sv.initPersistence env opens = some sv') : Fed sv sv' := by
  unfold Server.initPersistence at h
  split_ifs at h
  · obtain ⟨disk, n, hseed, -⟩ := seedDefaultUsers_eq { sv with storeOpen := true } env
    rw [hseed] at h
    refine trans ?_ (restoreLoop env _ _ _ h)
    exact silent ⟨fun _ => rfl, rfl, rfl, fun _ _ hc => hc⟩ rfl fun _ _ => rfl
  · cases h; exact refl sv

end Fed

/-! ## One event -/

/-- The event asks for the symbol on behalf of the session. -/
def Asks (s : SessionPtr) (symbol : String) : Event → Prop
  | .message t (.snapshotRequest x) => t = s ∧ x = symbol
  | .message t (.orderSubmit m) => t = s ∧ m.symbol = symbol
  | _ => False

/-- The ways an event changes subscriptions and reports trades. -/
inductive FeedStep (env : Env) : Event → Server → Server → Prop
  | fed {ev : Event} {sv sv' : Server} (h : Fed sv sv') : FeedStep env ev sv sv'
  | subscribed {ev : Event} {sv sv₁ sv' : Server} {s : SessionPtr} {symbol : String} (ha : Asks s symbol ev)
      (hs : sv.hasSession s = true) (h₁ : Silent sv sv₁) (h₂ : Fed (sv₁.subscribe s symbol) sv') : FeedStep env ev sv sv'
  | connected {sv : Server} : FeedStep env .connect sv (sv.acceptConnection env)
  | closed {sv : Server} {s : SessionPtr} (hs : sv.hasSession s = true) : FeedStep env (.close s) sv
      ((sv.setSession s { sv.sessionAt s with connected := false }).removeSession s)
  | restarted {sv sv₁ sv' : Server} (hempty : sv₁.subscriptions = .empty) (htr : sv₁.trades = sv.trades)
      (hf : ∀ s symbol, sv₁.feed s symbol = sv.feed s symbol) (h : Fed sv₁ sv') : FeedStep env .restart sv sv'

section Steps

variable {sv sv' : Server} {env : Env} {ev : Event}

theorem handleSnapshotRequest_fed (sv : Server) (symbol : String) (s : SessionPtr) :
    Fed (sv.subscribe s symbol) (sv.handleSnapshotRequest symbol s) := by
  unfold handleSnapshotRequest
  dsimp only
  generalize hr : (if ((sv.subscribe s symbol).getOrderbook symbol).isSome then (true, sv.subscribe s symbol)
    else (sv.subscribe s symbol).createOrderbook symbol defaultTickSize) = r
  have hfed : Fed (sv.subscribe s symbol) r.2 := by
    rw [← hr]
    split_ifs
    · exact .refl _
    · exact .createOrderbook _ symbol defaultTickSize
  split_ifs
  · exact hfed.trans (.sendMessage _ s (by simp))
  · split
    · exact hfed
    · exact hfed.trans (.sendMessage _ s (by simp [snapshotMessage]))

theorem handleMessage_feedStep {s : SessionPtr} {m : Request} (hs : sv.hasSession s = true)
    (h : sv.handleMessage env m s = some sv') : FeedStep env (.message s m) sv sv' := by
  cases m with
  | login username password => cases h; exact .fed (.handleLogin sv env s username password)
  | register username password => cases h; exact .fed (.handleRegister sv env s username password)
  | snapshotRequest symbol =>
    unfold handleMessage at h
    dsimp only at h
    split_ifs at h
    · cases h
      exact .subscribed ⟨rfl, rfl⟩ hs (.requireAuth sv s "view") (handleSnapshotRequest_fed _ symbol s)
    · cases h
      exact .fed (.of_silent (.requireAuth sv s "view"))
  | orderSubmit m =>
    unfold handleMessage at h
    dsimp only at h
    split_ifs at h
    · unfold handleOrderSubmit at h
      split at h
      · cases h
        exact .fed ((Fed.of_silent (.requireAuth sv s "trade")).trans (.sendMessage _ s (by simp)))
      · next b hb =>
        dsimp only at h
        obtain ⟨r, hr, rfl⟩ := Option.map_eq_some_iff.1 h
        refine .subscribed (show Asks s m.symbol _ from ⟨rfl, rfl⟩) hs (.requireAuth sv s "trade") ?_
        refine ((Fed.saveSubmission _ env _ _).trans (Fed.addOrder _ env hr)).trans ?_
        unfold acknowledge
        have howner : Fed r.2 { r.2 with orderOwners := r.2.orderOwners.insert r.1.id (r.2.clientId s) } :=
          ⟨rfl, rfl, [], (List.append_nil _).symm, fun s symbol _ => by rw [List.filter_nil, ite_self, List.append_nil]; rfl⟩
        exact howner.trans (.sendMessage _ s (by simp))
    · cases h
      exact .fed (.of_silent (.requireAuth sv s "trade"))
  | orderCancel id c =>
    unfold handleMessage at h
    dsimp only at h
    have hauth := Fed.of_silent (Silent.requireAuth sv s "trade")
    split_ifs at h
    · cases h; exact .fed (hauth.trans (.handleOrderCancel _ env s id))
    · cases h; exact .fed hauth
  | orderStatus id c =>
    unfold handleMessage at h
    dsimp only at h
    have hauth := Fed.of_silent (Silent.requireAuth sv s "view")
    split_ifs at h
    · cases h; exact .fed (hauth.trans (.handleOrderStatus _ s id))
    · cases h; exact .fed hauth
  | other => cases h; exact .fed (.sendMessage sv s (by simp))

theorem restart_feedStep (h : sv.restart env = some sv') : FeedStep env .restart sv sv' := by
  unfold Server.restart at h
  obtain ⟨sv₁, h1, h2⟩ := Option.bind_eq_some_iff.1 h
  obtain ⟨g, hg⟩ := configureOrderGenerator_eq sv₁
  have hconf : Fed sv₁ sv₁.configureOrderGenerator := by
    rw [hg]
    exact .silent ⟨fun _ => rfl, rfl, rfl, fun _ _ hc => hc⟩ rfl fun _ _ => rfl
  have hfed := (Fed.initPersistence _ env h1).trans hconf
  obtain ⟨m, hm, -⟩ := boot_eq sv
  refine .restarted (show sv.boot.subscriptions = .empty by rw [hm]; rfl) (by rw [hm]; rfl) (fun s symbol => by rw [hm]; rfl) ?_
  dsimp only at h2
  split_ifs at h2
  · cases h2; exact hfed
  · exact hfed.trans (Fed.initPersistence _ env h2)

theorem step_feedStep (h : sv.step (env, ev) = some sv') : FeedStep env ev sv sv' := by
  cases ev with
  | connect => cases h; exact .connected
  | close s =>
    cases h
    split_ifs with hs
    · unfold Server.close
      split_ifs
      · exact .closed hs
      · exact .fed (.refl sv)
    · exact .fed (.refl sv)
  | message s m =>
    unfold step at h
    dsimp only at h
    split_ifs at h with hs
    · exact handleMessage_feedStep hs h
    · cases h; exact .fed (.refl sv)
  | snapshotTimer => cases h; exact .fed (.sendOrderbookSnapshots sv)
  | generate d => cases h; exact .fed (.generate sv env d)
  | posted => exact .fed (.handlePosted sv env h)
  | generatorCancel i => cases h; exact .fed (.tryCancel sv env i)
  | createOrderbook symbol tickSize => cases h; exact .fed (.createOrderbook sv symbol tickSize)
  | setOrderbookTickSize symbol tickSize => cases h; exact .fed (.setOrderbookTickSize sv symbol tickSize)
  | restart => exact restart_feedStep h

/-- In every event a session is told the trades of the event in the symbols it is subscribed to afterwards. -/
theorem FeedStep.told (h : FeedStep env ev sv sv') (ha : Attached sv) : ∃ ts, sv'.trades = sv.trades ++ ts ∧
    ∀ s symbol, sv'.feed s symbol =
      sv.feed s symbol ++ if s ∈ sv'.subscribers symbol then ts.filter (·.symbol = symbol) else [] := by
  have told : ∀ {sv₁ : Server}, Fed sv₁ sv' → (∀ symbol, (sv₁.subscribers symbol).Nodup) → sv₁.trades = sv.trades →
      (∀ s symbol, sv₁.feed s symbol = sv.feed s symbol) → ∃ ts, sv'.trades = sv.trades ++ ts ∧ ∀ s symbol,
        sv'.feed s symbol = sv.feed s symbol ++ if s ∈ sv'.subscribers symbol then ts.filter (·.symbol = symbol) else [] := by
    intro sv₁ hfed hnd htr hf
    obtain ⟨ts, h1, h2⟩ := hfed.reports
    refine ⟨ts, by rw [h1, htr], fun s symbol => ?_⟩
    rw [h2 s symbol (hnd symbol), hf, subscribers_congr hfed.subscriptions hfed.sessions]
  have none : sv'.trades = sv.trades → (∀ s symbol, sv'.feed s symbol = sv.feed s symbol) →
      ∃ ts, sv'.trades = sv.trades ++ ts ∧ ∀ s symbol, sv'.feed s symbol =
        sv.feed s symbol ++ if s ∈ sv'.subscribers symbol then ts.filter (·.symbol = symbol) else [] := fun htr hf =>
    ⟨[], by rw [htr, List.append_nil], fun s symbol => by rw [hf, List.filter_nil, ite_self, List.append_nil]⟩
  cases h with
  | fed h => exact told h (nodup_subscribers fun c s hc => (ha c s hc).2.1) rfl fun _ _ => rfl
  | @subscribed _ _ sv₁ _ s symbol hasks hs h₁ h₂ =>
    refine told h₂ (nodup_subscribers fun c t hc => ?_) h₁.trades h₁.feed
    have hc' : sv.sessions.find? c = some t := by rw [← h₁.sessions]; exact hc
    exact (h₁.clientId t).trans (ha c t hc').2.1
  | connected => exact none rfl fun _ _ => rfl
  | closed hs => exact none rfl fun _ _ => rfl
  | @restarted _ sv₁ _ hempty htr hf h =>
    refine told h (fun symbol => ?_) htr hf
    have hnil : sv₁.subscribers symbol = [] := by
      unfold subscribers
      rw [hempty]
      rfl
    rw [hnil]
    exact .nil

theorem wants_subscribe {c x : String} {s : SessionPtr} {symbol : String} :
    (sv.subscribe s symbol).Wants c x ↔ sv.Wants c x ∨ c = sv.clientId s ∧ x = symbol := by
  unfold Wants subscribe
  dsimp only
  rw [SortedMap.find?_insert]
  by_cases hc : c = sv.clientId s
  · subst hc
    rw [if_pos rfl]
    simp only [Option.some.injEq, exists_eq_left']
    rw [SortedMap.find?_insert]
    by_cases hx : x = symbol
    · simp [hx]
    · rw [if_neg hx]
      cases sv.subscriptions.find? (sv.clientId s) with
      | none => simp [hx, SortedMap.find?_empty]
      | some symbols => simp [hx]
  · simp [hc]

/-- A subscriber remains one until its session is closed or the process ends. -/
theorem FeedStep.stays (h : FeedStep env ev sv sv') (ha : Attached sv) (hI : IdInv sv) (hnd : sv'.uuids.Nodup)
    {s : SessionPtr} {symbol : String} (hs : s ∈ sv.subscribers symbol) (hclose : ev ≠ .close s) (hrestart : ev ≠ .restart) :
    s ∈ sv'.subscribers symbol := by
  obtain ⟨c, hw, hc⟩ := mem_subscribers.1 hs
  obtain ⟨hlt, hid, -⟩ := ha c s hc
  cases h with
  | fed h => rw [subscribers_congr h.subscriptions h.sessions]; exact hs
  | @subscribed _ _ sv₁ _ t x hasks ht h₁ h₂ =>
    rw [subscribers_congr h₂.subscriptions h₂.sessions]
    refine mem_subscribers.2 ⟨c, wants_subscribe.2 (.inl ?_), ?_⟩
    · unfold Wants
      rw [h₁.subscriptions]
      exact hw
    · show sv₁.sessions.find? c = some s
      rw [h₁.sessions]
      exact hc
  | connected =>
    refine mem_subscribers.2 ⟨c, hw, ?_⟩
    show (sv.sessions.insert (generateUuid env.uuid) sv.nextSession).find? c = some s
    rw [SortedMap.find?_insert, if_neg, hc]
    rintro rfl
    exact not_mem_of_append hnd (hid ▸ hI.client s hlt)
  | @closed _ t ht =>
    have hne : c ≠ sv.clientId t := by
      rintro rfl
      exact hclose (by rw [hI.clientInj s hlt t (hasSession_lt ht) hid])
    have hself : (sv.setSession t { sv.sessionAt t with connected := false }).clientId t = sv.clientId t :=
      (Quiet.setSession sv t { sv.sessionAt t with connected := false } rfl).clientId t
    refine mem_subscribers.2 ⟨c, ?_, ?_⟩
    · obtain ⟨symbols, h1, h2⟩ := hw
      refine ⟨symbols, ?_, h2⟩
      unfold removeSession
      dsimp only
      rw [hself, SortedMap.find?_erase, if_neg hne]
      exact h1
    · unfold removeSession
      dsimp only
      rw [hself, SortedMap.find?_erase, if_neg hne]
      exact hc
  | restarted _ _ _ _ => exact absurd rfl hrestart

/-- A session that is not subscribed and does not ask is not subscribed afterwards. -/
theorem FeedStep.absent (h : FeedStep env ev sv sv') (ha : Attached sv) (hI : IdInv sv) {s : SessionPtr} {symbol : String}
    (hlt : s < sv.nextSession) (hs : s ∉ sv.subscribers symbol) (hasks : ¬ Asks s symbol ev) :
    s ∉ sv'.subscribers symbol := by
  intro hs'
  obtain ⟨c, hw, hc⟩ := mem_subscribers.1 hs'
  cases h with
  | fed h => rw [subscribers_congr h.subscriptions h.sessions] at hs'; exact hs hs'
  | @subscribed _ _ sv₁ _ t x hasks' ht h₁ h₂ =>
    rw [subscribers_congr h₂.subscriptions h₂.sessions] at hs'
    obtain ⟨c, hw, hc⟩ := mem_subscribers.1 hs'
    have hc₀ : sv.sessions.find? c = some s := by rw [← h₁.sessions]; exact hc
    rcases wants_subscribe.1 hw with hw | ⟨hct, rfl⟩
    · refine hs (mem_subscribers.2 ⟨c, ?_, hc₀⟩)
      unfold Wants at hw ⊢
      rwa [h₁.subscriptions] at hw
    · -- the client that was subscribed is this session's, so the session asked
      have hst : s = t := by
        refine hI.clientInj s hlt t (hasSession_lt ht) ?_
        rw [(ha c s hc₀).2.1, hct, h₁.clientId]
      rw [hst] at hasks
      exact hasks hasks'
  | connected =>
    have hc' : (sv.sessions.insert (generateUuid env.uuid) sv.nextSession).find? c = some s := hc
    rw [SortedMap.find?_insert] at hc'
    split_ifs at hc' with heq
    · cases hc'; exact absurd hlt (lt_irrefl _)
    · exact hs (mem_subscribers.2 ⟨c, hw, hc'⟩)
  | @closed _ t ht =>
    unfold removeSession at hw hc
    obtain ⟨symbols, h1, h2⟩ := hw
    dsimp only at h1 hc
    rw [SortedMap.find?_erase] at h1 hc
    split_ifs at h1
    split_ifs at hc
    exact hs (mem_subscribers.2 ⟨c, ⟨symbols, h1, h2⟩, hc⟩)
  | @restarted _ sv₁ _ hempty _ _ h =>
    rw [subscribers_congr h.subscriptions h.sessions] at hs'
    obtain ⟨c, ⟨symbols, h1, -⟩, -⟩ := mem_subscribers.1 hs'
    rw [hempty] at h1
    cases h1

end Steps

/-! ## Runs -/

/-- Session objects are numbered in order. -/
theorem Effect.nextSession_le {env : Env} {ev : Event} {sv sv' : Server} (h : Effect env ev sv sv') :
    sv.nextSession ≤ sv'.nextSession := by
  by_cases hconnect : ev = .connect
  · subst hconnect
    cases h with
    | quiet h _ => exact le_of_eq h.nextSession.symm
    | connected => exact Nat.le_succ _
    | created h₁ _ h₂ _ => exact le_of_eq (h₂.nextSession.trans h₁.nextSession).symm
  by_cases hclose : ∃ s, ev = .close s
  · obtain ⟨s, rfl⟩ := hclose
    cases h with
    | quiet h _ => exact le_of_eq h.nextSession.symm
    | closed _ => exact le_rfl
    | created h₁ _ h₂ _ => exact le_of_eq (h₂.nextSession.trans h₁.nextSession).symm
  by_cases hrestart : ev = .restart
  · subst hrestart
    cases h with
    | quiet _ hev => exact absurd rfl hev
    | created _ _ _ hev => exact absurd rfl hev
    | @restarted _ sv₁ sv₂ _ hb hr hq =>
      have hkeep : sv₂.nextSession = sv₁.nextSession :=
        hr.rule (K := fun x => x.nextSession = sv₁.nextSession) rfl fun ha h => (SameSessions.added ha).nextSession.trans h
      rw [hq.nextSession, hkeep, hb.nextSession]
  exact le_of_eq (SameSessions.effect h hconnect (fun s hs => hclose ⟨s, hs⟩) hrestart).nextSession.symm

/-- What the histories so far keep. -/
structure Wired (sv : Server) : Prop where
  sound : Sound sv
  attached : Attached sv
  ids : sv.uuids.Nodup → IdInv sv

theorem step_wired {sv : Server} (h : Wired sv) (a : Env × Event) : ∃ sv', step sv a = some sv' ∧ Wired sv' ∧
    sv.uuids <+: sv'.uuids ∧ sv.nextSession ≤ sv'.nextSession ∧ FeedStep a.1 a.2 sv sv' := by
  obtain ⟨sv', hstep, he⟩ := step_effect h.sound a.1 a.2
  exact ⟨sv', hstep, ⟨he.sound h.sound, h.attached.step he hstep, fun hnd =>
    he.idInv (h.ids (hnd.sublist he.uuids.sublist)) hnd⟩, he.uuids, he.nextSession_le, step_feedStep hstep⟩

theorem run_wired (config : Config) (env : Env) (evs : List (Env × Event)) :
    ∃ sv, run config env evs = some sv ∧ Wired sv :=
  Machine.foldlM_prefix (I := fun _ sv => Wired sv)
    (fun _ a _ _ h => by
      obtain ⟨sv', h1, h2, -⟩ := step_wired h a
      exact ⟨sv', h1, h2⟩)
    ⟨.initial config, fun _ _ h => (by cases h), fun _ => .initial config⟩

theorem Wired.uuids : ∀ (evs : List (Env × Event)) {sv sv' : Server}, Wired sv → evs.foldlM step sv = some sv' →
    sv.uuids <+: sv'.uuids
  | [], _, _, _, h => by cases h; exact List.prefix_refl _
  | a :: evs, sv, sv', hw, h => by
    obtain ⟨sv₁, h1, hw₁, hu, -⟩ := step_wired hw a
    rw [List.foldlM_cons, h1] at h
    exact hu.trans (Wired.uuids evs hw₁ h)

/-- A session that is a subscriber of a symbol all along, or never, as every step keeps it, is told along a run all the
trades of the symbol, or none. -/
theorem Wired.feed {s : SessionPtr} {symbol : String} {C : Event → Prop} {I : Prop} [Decidable I]
    (hkeep : ∀ {env ev sv sv'}, Wired sv → IdInv sv → sv'.uuids.Nodup → s < sv.nextSession → C ev →
      FeedStep env ev sv sv' → (s ∈ sv.subscribers symbol ↔ I) → (s ∈ sv'.subscribers symbol ↔ I)) :
    ∀ (evs : List (Env × Event)) {sv sv' : Server}, Wired sv → s < sv.nextSession → (s ∈ sv.subscribers symbol ↔ I) →
      (∀ a ∈ evs, C a.2) → evs.foldlM step sv = some sv' → sv'.uuids.Nodup → ∃ ts, sv'.trades = sv.trades ++ ts ∧
        sv'.feed s symbol = sv.feed s symbol ++ if I then ts.filter (·.symbol = symbol) else []
  | [], sv, sv', _, _, _, _, h, _ => by
    cases h
    exact ⟨[], (List.append_nil _).symm, by rw [List.filter_nil, ite_self, List.append_nil]⟩
  | a :: evs, sv, sv', hw, hlt, hin, hC, h, hnd => by
    obtain ⟨sv₁, h1, hw₁, hu, hle, hf⟩ := step_wired hw a
    rw [List.foldlM_cons, h1] at h
    have hnd₁ : sv₁.uuids.Nodup := hnd.sublist (Wired.uuids evs hw₁ h).sublist
    have hin₁ := hkeep hw (hw.ids (hnd₁.sublist hu.sublist)) hnd₁ hlt (hC a List.mem_cons_self) hf hin
    obtain ⟨ts, ht, hfeed⟩ := hf.told hw.attached
    obtain ⟨ts', ht', hfeed'⟩ := Wired.feed hkeep evs hw₁ (hlt.trans_le hle) hin₁
      (fun b hb => hC b (List.mem_cons_of_mem _ hb)) h hnd
    refine ⟨ts ++ ts', by rw [ht', ht, List.append_assoc], ?_⟩
    rw [hfeed', hfeed, List.append_assoc]
    by_cases hIn : I
    · rw [if_pos (hin₁.2 hIn), if_pos hIn, if_pos hIn, List.filter_append]
    · rw [if_neg fun hm => hIn (hin₁.1 hm), if_neg hIn, if_neg hIn, List.append_nil]

/-- The market data feed is exact. When generated ids do not repeat, then from any state of any history on, a session
that is subscribed to a symbol is told, as long as its connection and the process last, exactly the trades of the
symbol, each once and in the order in which they are made; and a session that is not subscribed is told none of them as
long as it does not ask for the symbol. -/
theorem run_feed (config : Config) (env : Env) (evs evs' : List (Env × Event)) (s : SessionPtr) (symbol : String)
    {sv sv' : Server} (hrun : run config env evs = some sv) (hrun' : evs'.foldlM step sv = some sv')
    (hids : sv'.uuids.Nodup) (hs : s < sv.nextSession) :
    (s ∈ sv.subscribers symbol → (∀ a ∈ evs', a.2 ≠ .close s ∧ a.2 ≠ .restart) →
      sv'.feed s symbol = sv.feed s symbol ++ (sv'.trades.drop sv.trades.length).filter (·.symbol = symbol)) ∧
    (s ∉ sv.subscribers symbol → (∀ a ∈ evs', ¬ Asks s symbol a.2) → sv'.feed s symbol = sv.feed s symbol) := by
  obtain ⟨sv₀, hrun₀, hw⟩ := run_wired config env evs
  cases hrun₀.symm.trans hrun
  constructor
  · intro hin hstay
    obtain ⟨ts, ht, hf⟩ := Wired.feed (C := fun ev => ev ≠ .close s ∧ ev ≠ .restart) (I := True)
      (fun hw hI hnd _ hC h hin => iff_true_intro (h.stays hw.attached hI hnd (hin.2 trivial) hC.1 hC.2))
      evs' hw hs (iff_true_intro hin) hstay hrun' hids
    rw [hf, if_pos trivial, ht, List.drop_left]
  · intro hout hno
    obtain ⟨ts, -, hf⟩ := Wired.feed (C := fun ev => ¬ Asks s symbol ev) (I := False)
      (fun hw hI _ hlt hC h hout => iff_false_intro (h.absent hw.attached hI hlt (fun hm => hout.1 hm) hC))
      evs' hw hs (iff_false_intro hout) hno hrun' hids
    rw [hf, if_neg not_false, List.append_nil]

/-- Two clients connect and the first asks for the symbol. -/
def watched : List (Env × Event) :=
  [(sampleEnv false 1, .connect), (sampleEnv false 2, .connect), (sampleEnv false 3, .message 0 (.snapshotRequest "SYM"))]

/-- The second client sells, and buys back in two parts. -/
def tradedTwice : List (Env × Event) :=
  [(sampleEnv false 4, .message 1 (sampleSubmit .sell .limit 10 0 5)),
    (sampleEnv false 5, .message 1 (sampleSubmit .buy .limit 10 0 3)),
    (sampleEnv false 6, .message 1 (sampleSubmit .buy .market 0 0 3))]

theorem run_feed_tradedTwice : ∃ sv sv', run sampleConfig (sampleEnv false 0) watched = some sv ∧
    tradedTwice.foldlM step sv = some sv' ∧ (sv'.feed 0 "SYM").map (·.quantity) = [3, 2] ∧
    sv'.feed 0 "SYM" = sv.feed 0 "SYM" ++ (sv'.trades.drop sv.trades.length).filter (·.symbol = "SYM") := by
  obtain ⟨sv, hrun, hw⟩ := run_wired sampleConfig (sampleEnv false 0) watched
  obtain ⟨sv', hrun', -⟩ := Machine.foldlM_prefix (I := fun _ sv => Wired sv) (l := tradedTwice)
    (fun _ a _ _ h => by
      obtain ⟨t, h1, h2, -⟩ := step_wired h a
      exact ⟨t, h1, h2⟩) hw
  have hstate : ((run sampleConfig (sampleEnv false 0) watched).bind fun sv => (tradedTwice.foldlM step sv).map fun sv' =>
      (decide (0 < sv.nextSession), decide (0 ∈ sv.subscribers "SYM"), decide sv'.uuids.Nodup,
        (sv'.feed 0 "SYM").map (·.quantity))) = some (true, true, true, [3, 2]) := by decide +kernel
  rw [hrun, Option.bind_some, hrun', Option.map_some, Option.some.injEq, Prod.mk.injEq, Prod.mk.injEq, Prod.mk.injEq,
    decide_eq_true_eq, decide_eq_true_eq, decide_eq_true_eq] at hstate
  obtain ⟨hlt, hsub, hnd, hfeed⟩ := hstate
  exact ⟨sv, sv', hrun, hrun', hfeed,
    (run_feed sampleConfig (sampleEnv false 0) watched tradedTwice 0 "SYM" hrun hrun' hnd hlt).1 hsub
      (by simp [tradedTwice])⟩

end Server

end OrderbookGC
