/-
What one event of the server can do. Most of what a handler does concerns no order: replies, logins,
subscriptions (`Quiet`). The callbacks of a book write the order table, clean up the ownership map
and notify the owners (`Dispatched`). On top of these two, `Effect` lists the ways an event changes
the server; `run_rule` is the rule the properties of whole histories are proved with.
-/
import OrderbookGC.Server.Server
import OrderbookGC.Book.Call

namespace OrderbookGC

open Container OrderBook MatchState

namespace Server

/-- The status messages sent so far. -/
def statuses (sv : Server) : List (SessionPtr × OrderStatusMessage) :=
  sv.sent.filterMap fun e =>
    match e.2 with
    | .orderStatus m => some (e.1, m)
    | _ => none

/-- The order is in the index of some book. -/
def Live (sv : Server) (id : String) : Prop := ∃ symbol b p, sv.orderbooks.find? symbol = some b ∧ b.getOrder id = some p

/-! ## Quiet steps -/

/-- A step that concerns no order; it may draw ids, and change what it does not mention. -/
structure Quiet (sv sv' : Server) : Prop where
  config : sv'.config = sv.config
  orderbooks : sv'.orderbooks = sv.orderbooks
  clientId : ∀ s, sv'.clientId s = sv.clientId s
  firstSession : sv'.firstSession = sv.firstSession
  nextSession : sv'.nextSession = sv.nextSession
  sessions : sv'.sessions = sv.sessions
  orderOwners : sv'.orderOwners = sv.orderOwners
  posted : sv'.posted = sv.posted
  storeOpen : sv'.storeOpen = sv.storeOpen
  orders : sv'.disk.orders = sv.disk.orders
  tradeRows : sv'.disk.trades = sv.disk.trades
  statuses : sv'.statuses = sv.statuses
  uuids : sv.uuids <+: sv'.uuids
  drawn : ∀ u ∈ sv'.uuids, u ∈ sv.uuids ∨ ∃ d, u = generateUuid d
  submissions : sv'.submissions = sv.submissions
  trades : sv'.trades = sv.trades

namespace Quiet

theorem refl (sv : Server) : Quiet sv sv :=
  ⟨rfl, rfl, fun _ => rfl, rfl, rfl, rfl, rfl, rfl, rfl, rfl, rfl, rfl, List.prefix_refl _, fun _ h => .inl h, rfl, rfl⟩

theorem trans {sv sv' sv'' : Server} (h : Quiet sv sv') (h' : Quiet sv' sv'') : Quiet sv sv'' where
  config := h'.config.trans h.config
  orderbooks := h'.orderbooks.trans h.orderbooks
  clientId s := (h'.clientId s).trans (h.clientId s)
  firstSession := h'.firstSession.trans h.firstSession
  nextSession := h'.nextSession.trans h.nextSession
  sessions := h'.sessions.trans h.sessions
  orderOwners := h'.orderOwners.trans h.orderOwners
  posted := h'.posted.trans h.posted
  storeOpen := h'.storeOpen.trans h.storeOpen
  orders := h'.orders.trans h.orders
  tradeRows := h'.tradeRows.trans h.tradeRows
  statuses := h'.statuses.trans h.statuses
  uuids := h.uuids.trans h'.uuids
  drawn u hu := (h'.drawn u hu).elim (h.drawn u) .inr
  submissions := h'.submissions.trans h.submissions
  trades := h'.trades.trans h.trades

variable (sv : Server) (env : Env) (s : SessionPtr)

theorem sendMessage {r : Response} (hr : ∀ m, r ≠ .orderStatus m) : Quiet sv (sv.sendMessage s r) := by
  refine { refl sv with statuses := ?_ }
  unfold Server.statuses Server.sendMessage
  rw [List.filterMap_append]
  cases r with
  | orderStatus m => exact absurd rfl (hr m)
  | _ => simp

theorem subscribe (symbol : String) : Quiet sv (sv.subscribe s symbol) := { refl sv with }

theorem setSession (x : Session) (hx : x.clientId = sv.clientId s) : Quiet sv (sv.setSession s x) := by
  refine { refl sv with clientId := fun t => ?_ }
  show (Function.update sv.sessionAt s x t).clientId = _
  by_cases ht : t = s
  · rw [ht, Function.update_self, hx]
  · rw [Function.update_of_ne ht]; rfl

theorem logUuid (d : UuidDraws) : Quiet sv (sv.logUuid (generateUuid d)) :=
  { refl sv with
    uuids := List.prefix_append ..
    drawn := fun _ hu => (List.mem_append.1 hu).imp_right fun h => ⟨d, List.mem_singleton.1 h⟩ }

/-- A write that leaves the tables of orders and trades alone. -/
theorem write (stmt : Bool → Db → Bool × Db)
    (h : ∀ ok db, (stmt ok db).2.orders = db.orders ∧ (stmt ok db).2.trades = db.trades) :
    Quiet sv (sv.write env stmt).2 := by
  unfold Server.write
  split_ifs
  · exact { refl sv with orders := (h ..).1, tradeRows := (h ..).2 }
  · exact refl sv

theorem requireAuth (permission : String) : Quiet sv (sv.requireAuth s permission).2 := by
  unfold Server.requireAuth
  dsimp only
  split_ifs
  · exact refl sv
  · exact setSession sv s _ rfl
  · exact sendMessage sv s (by simp)
  · exact sendMessage sv s (by simp)
  · exact refl sv

theorem login (username permissions : String) : Quiet sv (sv.login env username permissions s) := by
  unfold Server.login
  dsimp only
  refine (logUuid sv env.uuid).trans ((setSession _ s _ ?_).trans (sendMessage _ s ?_))
  · rfl
  · simp

theorem handleLogin (username password : String) : Quiet sv (sv.handleLogin env username password s) := by
  unfold Server.handleLogin
  split_ifs
  · exact login ..
  · split
    · exact login ..
    · exact login ..
  · exact sendMessage sv s (by simp)

theorem saveUser (user : UserRecord) (salt : SaltDraws) : Quiet sv (sv.write env (Db.saveUser · user salt)).2 := by
  refine write sv env _ fun ok db => ?_
  unfold Db.saveUser
  split_ifs <;> exact ⟨rfl, rfl⟩

theorem handleRegister (username password : String) : Quiet sv (sv.handleRegister env username password s) := by
  unfold Server.handleRegister
  have hsend : ∀ (sv : Server) text, Quiet sv (sv.sendMessage s (.registerResponse false username text)) :=
    fun sv _ => sendMessage sv s (by simp)
  split_ifs
  · exact hsend ..
  · exact hsend ..
  · exact hsend ..
  · exact hsend ..
  · exact hsend ..
  · dsimp only
    refine (saveUser sv env ⟨username, password, "trade,view"⟩ (env.salts 0)).trans ?_
    split_ifs
    · exact sendMessage _ s (by simp)
    · exact hsend ..

theorem broadcast (symbol : String) {r : Response} (hr : ∀ m, r ≠ .orderStatus m) : Quiet sv (sv.broadcast symbol r) := by
  unfold Server.broadcast
  generalize sv.subscribers symbol = l
  induction l generalizing sv with
  | nil => exact refl sv
  | cons s l ih => exact (sendMessage sv s hr).trans (ih _)

theorem sendOrderbookSnapshots : Quiet sv sv.sendOrderbookSnapshots := by
  unfold Server.sendOrderbookSnapshots
  generalize sv.orderbooks.entries = l
  induction l generalizing sv with
  | nil => exact refl sv
  | cons e l ih => exact (broadcast sv e.1 (by simp [snapshotMessage])).trans (ih _)

theorem configureOrderGenerator : Quiet sv sv.configureOrderGenerator := by
  unfold Server.configureOrderGenerator
  split
  · split
    · exact refl sv
    · exact { refl sv with }
  · exact refl sv

end Quiet

/-! ## The callbacks of one call -/

/-- Everything the callbacks of one call change; `heap` are the objects as the call left them. -/
structure Dispatched (env : Env) (heap : OrderPtr → Order ℚ) (cbs : List (Callback ℚ)) (sv sv' : Server) : Prop where
  config : sv'.config = sv.config
  orderbooks : sv'.orderbooks = sv.orderbooks
  sessionAt : sv'.sessionAt = sv.sessionAt
  firstSession : sv'.firstSession = sv.firstSession
  nextSession : sv'.nextSession = sv.nextSession
  sessions : sv'.sessions = sv.sessions
  posted : sv'.posted = sv.posted
  storeOpen : sv'.storeOpen = sv.storeOpen
  uuids : sv'.uuids = sv.uuids
  submissions : sv'.submissions = sv.submissions
  trades : sv'.trades = sv.trades ++ cbs.filterMap fun c => match c with
    | .trade t => some t
    | .order _ => none
  /-- A finished order that is announced loses its owner, and no other order does. -/
  erased : ∀ p, .order p ∈ cbs → (heap p).Finished → sv'.orderOwners.find? (heap p).id = none
  kept : ∀ id, (∀ p, .order p ∈ cbs → (heap p).id = id → ¬ (heap p).Finished) →
    sv'.orderOwners.find? id = sv.orderOwners.find? id
  /-- The messages are about announced orders and go to the sessions of their recorded owners. -/
  statuses : ∃ l, sv'.statuses = sv.statuses ++ l ∧ ∀ e ∈ l, ∃ p c, .order p ∈ cbs ∧ e.2 = (heap p).statusMessage ∧
    sv.orderOwners.find? (heap p).id = some c ∧ sv.sessions.find? c = some e.1
  /-- Rows are rewritten only from announced orders, and when the writes succeed, from all of them. -/
  rows : ∃ f : OrderRow → OrderRow, sv'.disk.orders = sv.disk.orders.map f ∧
    (∀ r, f r = r ∨ ∃ p, .order p ∈ cbs ∧ r.id = cStr (heap p).id ∧ f r = Db.OrderRow.update r (heap p)) ∧
    (sv.storeOpen = true → (∀ n, env.writeOk n = true) → ∀ r p, .order p ∈ cbs → r.id = cStr (heap p).id →
      ∃ p', .order p' ∈ cbs ∧ r.id = cStr (heap p').id ∧ f r = Db.OrderRow.update r (heap p'))

namespace Dispatched

variable {env : Env} {heap : OrderPtr → Order ℚ} {cbs : List (Callback ℚ)} {sv sv' sv'' : Server}

theorem owner_of (h : Dispatched env heap cbs sv sv') {id c : String} (hc : sv'.orderOwners.find? id = some c) :
    sv.orderOwners.find? id = some c := by
  by_cases hf : ∃ p, .order p ∈ cbs ∧ (heap p).id = id ∧ (heap p).Finished
  · obtain ⟨p, hp, rfl, hfin⟩ := hf
    rw [h.erased p hp hfin] at hc; cases hc
  · rw [← h.kept id fun p hp hid hfin => hf ⟨p, hp, hid, hfin⟩]; exact hc

theorem nil : Dispatched env heap [] sv sv :=
  ⟨rfl, rfl, rfl, rfl, rfl, rfl, rfl, rfl, rfl, rfl, by simp, fun _ hp => (by cases hp), fun _ _ => rfl,
    ⟨[], by simp, fun _ he => (by cases he)⟩, ⟨id, by simp, fun _ => .inl rfl, fun _ _ _ _ hp => (by cases hp)⟩⟩

theorem cons {c : Callback ℚ} (h : Dispatched env heap [c] sv sv') (h' : Dispatched env heap cbs sv' sv'') :
    Dispatched env heap (c :: cbs) sv sv'' := by
  obtain ⟨l, hl, hl'⟩ := h.statuses
  obtain ⟨m, hm, hm'⟩ := h'.statuses
  obtain ⟨f, hf, hf', hfok⟩ := h.rows
  obtain ⟨g, hg, hg', hgok⟩ := h'.rows
  have hid : ∀ r, (f r).id = r.id := fun r => by
    rcases hf' r with heq | ⟨p, -, -, heq⟩ <;> rw [heq]
    rfl
  have hupd : ∀ r (o o' : Order ℚ), Db.OrderRow.update (Db.OrderRow.update r o) o' = Db.OrderRow.update r o' := fun _ _ _ => rfl
  refine ⟨h'.config.trans h.config, h'.orderbooks.trans h.orderbooks, h'.sessionAt.trans h.sessionAt,
    h'.firstSession.trans h.firstSession, h'.nextSession.trans h.nextSession, h'.sessions.trans h.sessions,
    h'.posted.trans h.posted, h'.storeOpen.trans h.storeOpen, h'.uuids.trans h.uuids, h'.submissions.trans h.submissions,
    ?_, fun p hp hfin => ?_, fun id hno => ?_, ⟨l ++ m, ?_, fun e he => ?_⟩, ⟨g ∘ f, ?_, fun r => ?_, fun ho hw r p hp hr => ?_⟩⟩
  · rw [h'.trades, h.trades, List.append_assoc, ← List.filterMap_append]; rfl
  · rcases List.mem_cons.1 hp with rfl | hp
    · have hnone := h.erased p (List.mem_singleton.2 rfl) hfin
      cases hs : sv''.orderOwners.find? (heap p).id with
      | none => rfl
      | some x => rw [h'.owner_of hs] at hnone; cases hnone
    · exact h'.erased p hp hfin
  · rw [h'.kept id fun p hp => hno p (List.mem_cons_of_mem _ hp)]
    exact h.kept id fun p hp => hno p (by rw [List.mem_singleton.1 hp]; exact List.mem_cons_self ..)
  · rw [hm, hl, List.append_assoc]
  · rcases List.mem_append.1 he with he | he
    · obtain ⟨p, x, hp, h1, h2, h3⟩ := hl' e he
      exact ⟨p, x, by rw [List.mem_singleton.1 hp]; exact List.mem_cons_self .., h1, h2, h3⟩
    · obtain ⟨p, x, hp, h1, h2, h3⟩ := hm' e he
      exact ⟨p, x, List.mem_cons_of_mem _ hp, h1, h.owner_of h2, by rw [← h.sessions]; exact h3⟩
  · rw [hg, hf, List.map_map]
  · rcases hg' (f r) with hgr | ⟨p, hp, hr, hgr⟩
    · rw [Function.comp_apply, hgr]
      refine (hf' r).imp_right fun ⟨p, hp, h1, h2⟩ => ⟨p, ?_, h1, h2⟩
      rw [List.mem_singleton.1 hp]; exact List.mem_cons_self ..
    · right
      refine ⟨p, List.mem_cons_of_mem _ hp, by rw [← hid r]; exact hr, ?_⟩
      rw [Function.comp_apply, hgr]
      rcases hf' r with heq | ⟨p', -, -, heq⟩ <;> rw [heq]
      exact hupd ..
  · -- the last callback for the row wins
    have hcomp : ∀ p', .order p' ∈ cbs → r.id = cStr (heap p').id → ∃ q, .order q ∈ c :: cbs ∧ r.id = cStr (heap q).id ∧
        (g ∘ f) r = Db.OrderRow.update r (heap q) := fun p' hp' hr' => by
      obtain ⟨q, hq, hrq, heq⟩ := hgok (by rw [h.storeOpen]; exact ho) hw (f r) p' hp' (by rw [hid]; exact hr')
      refine ⟨q, List.mem_cons_of_mem _ hq, by rw [← hid r]; exact hrq, ?_⟩
      rw [Function.comp_apply, heq]
      rcases hf' r with heq | ⟨p', -, -, heq⟩ <;> rw [heq]
      exact hupd ..
    rcases List.mem_cons.1 hp with rfl | hp
    · obtain ⟨q, hq, hrq, heq⟩ := hfok ho hw r p (List.mem_singleton.2 rfl) hr
      rcases hg' (f r) with hgr | ⟨p', hp', hr', -⟩
      · refine ⟨q, ?_, hrq, ?_⟩
        · rw [List.mem_singleton.1 hq]; exact List.mem_cons_self ..
        · rw [Function.comp_apply, hgr]; exact heq
      · exact hcomp p' hp' (by rw [← hid r]; exact hr')
    · exact hcomp p hp hr

end Dispatched

/-- A write changes the database only, and when the store is open exactly as its statement does. -/
theorem write_eq (sv : Server) (env : Env) (stmt : Bool → Db → Bool × Db) :
    ∃ disk n, (sv.write env stmt).2 = { sv with disk, writes := n } ∧
      (sv.storeOpen = true ∧ disk = (stmt (env.writeOk sv.writes) sv.disk).2 ∨ sv.storeOpen = false ∧ disk = sv.disk) := by
  unfold write
  cases ho : sv.storeOpen with
  | true => exact ⟨_, sv.writes + 1, by rw [if_pos rfl, ← ho], .inl ⟨rfl, rfl⟩⟩
  | false => exact ⟨_, sv.writes, by rw [if_neg (by simp), ← ho], .inr ⟨rfl, rfl⟩⟩

/-- A broadcast only sends. -/
theorem broadcast_eq (sv : Server) (symbol : String) (r : Response) :
    ∃ l, sv.broadcast symbol r = { sv with sent := sv.sent ++ l } ∧ ∀ e ∈ l, e.2 = r := by
  unfold broadcast
  generalize sv.subscribers symbol = l
  induction l generalizing sv with
  | nil => exact ⟨[], by simp, fun _ he => (by cases he)⟩
  | cons s l ih =>
    obtain ⟨m, hm, hm'⟩ := ih (sv.sendMessage s r)
    refine ⟨(s, r) :: m, ?_, fun e he => ?_⟩
    · rw [List.foldl_cons, hm]
      simp [sendMessage]
    · rcases List.mem_cons.1 he with rfl | he
      · rfl
      · exact hm' e he

@[simp] theorem statuses_sendMessage (sv : Server) (s : SessionPtr) (m : OrderStatusMessage) :
    (sv.sendMessage s (.orderStatus m)).statuses = sv.statuses ++ [(s, m)] := by
  unfold statuses sendMessage
  rw [List.filterMap_append]; rfl

namespace Dispatched

variable {env : Env} {heap : OrderPtr → Order ℚ} {cbs : List (Callback ℚ)} {sv sv' sv'' : Server}

theorem trade (t : Trade ℚ) : Dispatched env heap [.trade t] sv (onTradeExecuted env sv t) := by
  unfold onTradeExecuted
  dsimp only
  generalize hsv : ({ sv with generator := sv.generator.map (Generator.updateLastPrice · t.price)
                              trades := sv.trades ++ [t] } : Server) = sv₁
  obtain ⟨disk, n, hw, hdisk⟩ := write_eq sv₁ env (Db.saveTrade · t env.now)
  obtain ⟨l, hb, hl⟩ := broadcast_eq (sv₁.write env (Db.saveTrade · t env.now)).2 t.symbol (.tradeNotification t)
  have horders : disk.orders = sv.disk.orders := by
    rcases hdisk with ⟨-, hd⟩ | ⟨-, hd⟩
    · rw [hd, ← hsv]
      unfold Db.saveTrade
      split_ifs <;> rfl
    · rw [hd, ← hsv]
  have hnone : ∀ e ∈ l, (match e.2 with | .orderStatus m => some (e.1, m) | _ => none :
      Option (SessionPtr × OrderStatusMessage)) = none := fun e he => by rw [hl e he]
  rw [hb, hw]
  subst hsv
  refine ⟨rfl, rfl, rfl, rfl, rfl, rfl, rfl, rfl, rfl, rfl, rfl, fun _ hp => ?_, fun _ _ => rfl,
    ⟨[], ?_, fun _ he => (by cases he)⟩, ⟨id, ?_, fun _ => .inl rfl, fun _ _ _ _ hp => ?_⟩⟩
  · simp at hp
  · unfold Server.statuses
    rw [List.filterMap_append, List.filterMap_eq_nil_iff.2 hnone]
  · rw [List.map_id]; exact horders
  · simp at hp

theorem order (p : OrderPtr) : Dispatched env heap [.order p] sv (onOrderUpdated env sv (heap p)) := by
  unfold onOrderUpdated
  obtain ⟨disk, n, hw, hdisk⟩ := write_eq sv env (Db.updateOrder · (heap p))
  have hmem : ∀ {q}, (.order q : Callback ℚ) ∈ [.order p] ↔ q = p := fun {q} => by simp
  -- the row of the order is updated, when the write succeeds
  have hrows : ∃ f : OrderRow → OrderRow, disk.orders = sv.disk.orders.map f ∧
      (∀ r, f r = r ∨ ∃ q, .order q ∈ [Callback.order (P := ℚ) p] ∧ r.id = cStr (heap q).id ∧
        f r = Db.OrderRow.update r (heap q)) ∧
      (sv.storeOpen = true → (∀ n, env.writeOk n = true) → ∀ r q, .order q ∈ [Callback.order (P := ℚ) p] →
        r.id = cStr (heap q).id → ∃ q', .order q' ∈ [Callback.order (P := ℚ) p] ∧ r.id = cStr (heap q').id ∧
          f r = Db.OrderRow.update r (heap q')) := by
    by_cases hok : sv.storeOpen = true ∧ env.writeOk sv.writes = true
    · refine ⟨fun r => if r.id = cStr (heap p).id then Db.OrderRow.update r (heap p) else r, ?_, fun r => ?_,
        fun _ _ r q hq hr => ?_⟩
      · rcases hdisk with ⟨-, hd⟩ | ⟨ho, -⟩
        · rw [hd, hok.2]; rfl
        · rw [hok.1] at ho; cases ho
      · by_cases hr : r.id = cStr (heap p).id
        · exact .inr ⟨p, hmem.2 rfl, hr, if_pos hr⟩
        · exact .inl (if_neg hr)
      · rw [hmem.1 hq] at hr
        exact ⟨p, hmem.2 rfl, hr, if_pos hr⟩
    · refine ⟨id, ?_, fun _ => .inl rfl, fun ho hwok => absurd ⟨ho, hwok _⟩ hok⟩
      rw [List.map_id]
      rcases hdisk with ⟨ho, hd⟩ | ⟨-, hd⟩
      · rw [hd]
        unfold Db.updateOrder
        rw [if_neg fun hw => hok ⟨ho, hw⟩]
      · rw [hd]
  rw [hw]
  dsimp only
  have hfin : ((heap p).status = .filled || (heap p).status = .canceled) = true ↔ (heap p).Finished := by
    unfold Order.Finished; simp
  cases hown : sv.orderOwners.find? (heap p).id with
  | none =>
    refine ⟨rfl, rfl, rfl, rfl, rfl, rfl, rfl, rfl, rfl, rfl, by simp, fun q hq _ => ?_, fun _ _ => rfl,
      ⟨[], by rw [List.append_nil]; rfl, fun _ he => (by cases he)⟩, hrows⟩
    rw [hmem.1 hq]; exact hown
  | some c =>
    generalize hm : (if ((heap p).status = .filled || (heap p).status = .canceled) = true
      then sv.orderOwners.erase (heap p).id else sv.orderOwners) = m
    have hquiet : Dispatched env heap [.order p] sv { sv with disk, writes := n, orderOwners := m } := by
      refine ⟨rfl, rfl, rfl, rfl, rfl, rfl, rfl, rfl, rfl, rfl, by simp, fun q hq hf => ?_, fun id hno => ?_,
        ⟨[], by rw [List.append_nil]; rfl, fun _ he => (by cases he)⟩, hrows⟩
      · rw [hmem.1 hq] at hf ⊢
        rw [← hm, if_pos (hfin.2 hf), SortedMap.find?_erase, if_pos rfl]
      · rw [← hm]
        split_ifs with hf
        · rw [SortedMap.find?_erase, if_neg fun he => hno p (hmem.2 rfl) he.symm (hfin.1 hf)]
        · rfl
    dsimp only
    split_ifs with hempty
    · exact hquiet
    · cases hs : sv.sessions.find? c with
      | none => exact hquiet
      | some s =>
        refine { hquiet with statuses := ⟨[(s, (heap p).statusMessage)], ?_, fun e he => ?_⟩ }
        · exact statuses_sendMessage ..
        · rw [List.mem_singleton.1 he]
          exact ⟨p, c, hmem.2 rfl, rfl, hown, hs⟩

end Dispatched

theorem dispatch_dispatched (env : Env) (heap : OrderPtr → Order ℚ) :
    ∀ (cbs : List (Callback ℚ)) (sv : Server), Dispatched env heap cbs sv (dispatch env heap cbs sv)
  | [], sv => .nil
  | c :: cbs, sv => by
    have hrest := dispatch_dispatched env heap cbs
    cases c with
    | trade t => exact (Dispatched.trade t).cons (hrest _)
    | order p => exact (Dispatched.order p).cons (hrest _)

end Server

end OrderbookGC
