/-
An event taken on both of two servers that are alike in a symbol: what the handlers read of the symbol, of the sessions
and of the users is the same on both sides, so they decide the same and leave the servers alike.
-/
import OrderbookGC.Server.Alike

namespace OrderbookGC

open Container OrderBook MatchState

namespace Server

variable {symbol : String} {Q : Prop} {env : Env} {sv sv' : Server} {s : SessionPtr}

namespace Alike

theorem send_both (h : Alike symbol Q sv sv') (s : SessionPtr) (r r' : Response) :
    Alike symbol Q (sv.sendMessage s r) (sv'.sendMessage s r') :=
  ((sendMessage s r).symm.trans h).trans (sendMessage s r')

/-! ## Sessions -/

/-- A session is rewritten on both sides, the same up to what it is called. -/
theorem setSession_both (h : Alike symbol Q sv sv') (s : SessionPtr) (x x' : Session) (hc : x'.clientId = x.clientId)
    (hk : x'.connected = x.connected) (hg : sv.config.authRequired = true → x'.authenticated = x.authenticated ∧
      x'.permissions = x.permissions) : Alike symbol Q (sv.setSession s x) (sv'.setSession s x') := by
  have hat : ∀ (sv : Server) (x : Session) t, (sv.setSession s x).sessionAt t = if t = s then x else sv.sessionAt t :=
    fun sv x t => Function.update_apply ..
  refine { h with clientId := fun t => ?_, connected := fun t => ?_, granted := fun ha t => ?_ }
  · unfold Server.clientId
    rw [hat, hat]
    split_ifs
    · exact hc
    · exact h.clientId t
  · rw [hat, hat]
    split_ifs
    · exact hk
    · exact h.connected t
  · rw [hat, hat]
    split_ifs
    · exact hg ha
    · exact h.granted ha t

/-- Authorisation changes no more than what is granted to everyone anyway. -/
theorem requireAuth (s : SessionPtr) (permission : String) : Alike symbol Q sv (sv.requireAuth s permission).2 := by
  unfold Server.requireAuth
  dsimp only
  split_ifs with hreq
  · exact refl sv
  · have hsame : sv.setSession s (sv.sessionAt s) = sv := by
      unfold Server.setSession
      rw [Function.update_eq_self]
    have hrefl : Alike symbol Q sv sv := refl sv
    have h := hrefl.setSession_both s (sv.sessionAt s)
      { sv.sessionAt s with authenticated := true, permissions := "trade,view,admin", username := "auto" } rfl rfl
      fun ha => by simp [ha] at hreq
    rwa [hsame] at h
  · exact .sendMessage ..
  · exact .sendMessage ..
  · exact refl sv

theorem requireAuth_fst (h : Alike symbol Q sv sv') (s : SessionPtr) (permission : String) :
    (sv'.requireAuth s permission).1 = (sv.requireAuth s permission).1 := by
  unfold Server.requireAuth
  dsimp only
  rw [h.config]
  cases hreq : sv.config.authRequired with
  | false =>
    simp only [Bool.not_false, if_true]
    split_ifs <;> rfl
  | true =>
    obtain ⟨h1, h2⟩ := h.granted hreq s
    unfold Session.hasPermission
    simp only [Bool.not_true, Bool.false_eq_true, if_false, h1, h2]
    split_ifs <;> rfl

theorem requireAuth_both (h : Alike symbol Q sv sv') (s : SessionPtr) (permission : String) :
    Alike symbol Q (sv.requireAuth s permission).2 (sv'.requireAuth s permission).2 :=
  ((requireAuth s permission).symm.trans h).trans (requireAuth s permission)

theorem acceptConnection_both (h : Alike symbol Q sv sv') :
    Alike symbol Q (sv.acceptConnection env) (sv'.acceptConnection env) := by
  have hat : ∀ (sv : Server) t, (sv.acceptConnection env).sessionAt t =
      if t = sv.nextSession then .new (generateUuid env.uuid) else sv.sessionAt t := fun sv t => Function.update_apply ..
  refine { h with
    clientId := fun t => ?_, connected := fun t => ?_, granted := fun ha t => ?_, nextSession := ?_, sessions := ?_ }
  · unfold Server.clientId
    rw [hat, hat, h.nextSession]
    split_ifs
    · rfl
    · exact h.clientId t
  · rw [hat, hat, h.nextSession]
    split_ifs
    · rfl
    · exact h.connected t
  · rw [hat, hat, h.nextSession]
    split_ifs
    · exact ⟨rfl, rfl⟩
    · exact h.granted ha t
  · exact congrArg (· + 1) h.nextSession
  · show sv'.sessions.insert _ sv'.nextSession = sv.sessions.insert _ sv.nextSession
    rw [h.sessions, h.nextSession]

theorem removeSession_both (h : Alike symbol Q sv sv') (s : SessionPtr) :
    Alike symbol Q (sv.removeSession s) (sv'.removeSession s) := by
  refine { h with sessions := ?_, owner := fun id hin => ?_ }
  · show sv'.sessions.erase _ = sv.sessions.erase _
    rw [h.sessions, h.clientId]
  · show (sv'.orderOwners.filterMapVals _).find? id = (sv.orderOwners.filterMapVals _).find? id
    rw [SortedMap.find?_filterMapVals, SortedMap.find?_filterMapVals, h.clientId, h.owner id hin]

theorem close_both (h : Alike symbol Q sv sv') (s : SessionPtr) : Alike symbol Q (sv.close s) (sv'.close s) := by
  unfold Server.close
  rw [h.connected]
  split_ifs
  · have hset := h.setSession_both s { sv.sessionAt s with connected := false }
      { sv'.sessionAt s with connected := false } (h.clientId s) rfl fun ha => h.granted ha s
    exact hset.removeSession_both s
  · exact h

/-! ## Accounts -/

theorem getUser_eq (h : Alike symbol Q sv sv') (username : String) : sv'.disk.getUser username = sv.disk.getUser username := by
  unfold Db.getUser
  rw [h.users]

theorem login_both (h : Alike symbol Q sv sv') (username permissions : String) (s : SessionPtr) :
    Alike symbol Q (sv.login env username permissions s) (sv'.login env username permissions s) := by
  have hlog : Alike symbol Q (sv.logUuid (generateUuid env.uuid)) (sv'.logUuid (generateUuid env.uuid)) :=
    ((logUuid _).symm.trans h).trans (logUuid _)
  have hset := hlog.setSession_both s
    { sv.sessionAt s with authenticated := true, username, sessionToken := generateUuid env.uuid, permissions }
    { sv'.sessionAt s with authenticated := true, username, sessionToken := generateUuid env.uuid, permissions }
    (h.clientId s) (h.connected s) fun _ => ⟨rfl, rfl⟩
  exact hset.send_both s _ _

theorem handleLogin_both (h : Alike symbol Q sv sv') (username password : String) (s : SessionPtr) :
    Alike symbol Q (sv.handleLogin env username password s) (sv'.handleLogin env username password s) := by
  have hauth : sv'.disk.authenticateUser username password = sv.disk.authenticateUser username password := by
    unfold Db.authenticateUser
    rw [h.getUser_eq]
  unfold Server.handleLogin
  rw [h.storeOpen, hauth, h.getUser_eq]
  split_ifs
  · exact h.login_both ..
  · split
    · exact h.login_both ..
    · exact h.login_both ..
  · exact h.send_both s _ _

/-- A write to the users table. -/
theorem saveUser_both (hst : env.Steady) (h : Alike symbol Q sv sv') (user : UserRecord) (salt : SaltDraws) :
    (sv'.write env (Db.saveUser · user salt)).1 = (sv.write env (Db.saveUser · user salt)).1 ∧
      Alike symbol Q (sv.write env (Db.saveUser · user salt)).2 (sv'.write env (Db.saveUser · user salt)).2 := by
  unfold Server.write
  rw [h.storeOpen, hst sv'.writes sv.writes]
  cases sv.storeOpen with
  | false => exact ⟨rfl, h⟩
  | true =>
    simp only [if_true]
    unfold Db.saveUser
    cases env.writeOk sv.writes with
    | false => exact ⟨rfl, { h with storeOpen := rfl }⟩
    | true =>
      refine ⟨rfl, { h with storeOpen := rfl, users := ?_ }⟩
      show sv'.disk.users.filter _ ++ _ = sv.disk.users.filter _ ++ _
      rw [h.users]

theorem handleRegister_both (hst : env.Steady) (h : Alike symbol Q sv sv') (username password : String) (s : SessionPtr) :
    Alike symbol Q (sv.handleRegister env username password s) (sv'.handleRegister env username password s) := by
  obtain ⟨hok, hw⟩ := h.saveUser_both hst ⟨username, password, "trade,view"⟩ (env.salts 0)
  unfold Server.handleRegister
  rw [h.storeOpen, h.getUser_eq]
  dsimp only
  rw [hok]
  split_ifs
  · exact h.send_both s _ _
  · exact h.send_both s _ _
  · exact h.send_both s _ _
  · exact h.send_both s _ _
  · exact h.send_both s _ _
  · exact hw.send_both s _ _
  · exact hw.send_both s _ _

/-! ## Books -/

theorem createOrderbook_other {name : String} (hn : name ≠ symbol) (tickSize : ℚ) :
    Alike symbol Q sv (sv.createOrderbook name tickSize).2 := by
  unfold Server.createOrderbook
  split_ifs
  · exact refl sv
  · exact .setBook_other hn _

theorem createOrderbook_both (h : Alike symbol Q sv sv') (name : String) (tickSize : ℚ) :
    Alike symbol Q (sv.createOrderbook name tickSize).2 (sv'.createOrderbook name tickSize).2 := by
  by_cases hn : name = symbol
  · subst hn
    unfold Server.createOrderbook
    rw [h.book]
    split_ifs
    · exact h
    · exact h.setBook_both fun id p hp => by cases hp
  · exact ((createOrderbook_other hn tickSize).symm.trans h).trans (createOrderbook_other hn tickSize)

theorem setOrderbookTickSize_both (h : Alike symbol Q sv sv') (name : String) (tickSize : ℚ) :
    Alike symbol Q (sv.setOrderbookTickSize name tickSize).2 (sv'.setOrderbookTickSize name tickSize).2 := by
  by_cases hn : name = symbol
  · subst hn
    unfold Server.setOrderbookTickSize
    rw [h.book]
    split_ifs
    · exact h
    · cases hb : sv.orderbooks.find? name with
      | none => exact h
      | some b =>
        refine h.setBook_both fun id p hp => .inl ⟨b, p, hb, ?_⟩
        rw [setTickSize_getOrder] at hp
        exact hp
  · have hother : ∀ sv : Server, Alike symbol Q sv (sv.setOrderbookTickSize name tickSize).2 := fun sv => by
      unfold Server.setOrderbookTickSize
      split_ifs
      · exact refl sv
      · cases sv.orderbooks.find? name with
        | none => exact refl sv
        | some b => exact .setBook_other hn _
    exact ((hother sv).symm.trans h).trans (hother sv')

/-- A snapshot request for another symbol. -/
theorem handleSnapshotRequest_other {name : String} (hn : name ≠ symbol) (s : SessionPtr) :
    Alike symbol Q sv (sv.handleSnapshotRequest name s) := by
  have hsub : Alike symbol Q sv (sv.subscribe s name) := .subscribe s name
  unfold Server.handleSnapshotRequest
  dsimp only
  cases hb : (sv.subscribe s name).getOrderbook name with
  | some b =>
    simp only [Option.isSome_some, if_true, Bool.not_true, Bool.false_eq_true, if_false, hb]
    exact hsub.trans (.sendMessage ..)
  | none =>
    simp only [Option.isSome_none, Bool.false_eq_true, if_false]
    have hcr : Alike symbol Q (sv.subscribe s name) ((sv.subscribe s name).createOrderbook name defaultTickSize).2 :=
      createOrderbook_other hn _
    split_ifs
    · exact (hsub.trans hcr).trans (.sendMessage ..)
    · split
      · exact hsub.trans hcr
      · exact (hsub.trans hcr).trans (.sendMessage ..)

theorem handleSnapshotRequest_both (h : Alike symbol Q sv sv') (s : SessionPtr) :
    Alike symbol Q (sv.handleSnapshotRequest symbol s) (sv'.handleSnapshotRequest symbol s) := by
  have hsub : Alike symbol Q (sv.subscribe s symbol) (sv'.subscribe s symbol) :=
    ((subscribe s symbol).symm.trans h).trans (subscribe s symbol)
  have hcr := hsub.createOrderbook_both symbol defaultTickSize
  unfold Server.handleSnapshotRequest Server.createOrderbook Server.getOrderbook at *
  dsimp only at *
  rw [hsub.book] at *
  cases hb : (sv.subscribe s symbol).orderbooks.find? symbol with
  | some b =>
    simp only [hb, Option.isSome_some, if_true, Bool.not_true, Bool.false_eq_true, if_false, hsub.book]
    exact hsub.send_both s _ _
  | none =>
    simp only [hb, Option.isSome_none, Bool.false_eq_true, if_false, Bool.not_true] at hcr ⊢
    simp only [setBook_find?, if_true]
    exact hcr.send_both s _ _

end Alike

/-! ## Orders -/

theorem saveSubmission_disk (sv : Server) (env : Env) (x : Submission) (o : Order ℚ) : sv.saveSubmission env x o =
    { sv with uuids := sv.uuids ++ [x.orderId], submissions := sv.submissions ++ [x]
              disk := if sv.storeOpen then (Db.saveOrder (env.writeOk sv.writes) o env.now sv.disk).2 else sv.disk
              writes := if sv.storeOpen then sv.writes + 1 else sv.writes } := by
  unfold saveSubmission write
  cases ho : sv.storeOpen with
  | true => simp [logUuid, ho]
  | false => simp [logUuid, ho]

/-- What a saved order does to the rows of a symbol. -/
theorem symbolRows_saveOrder (symbol : String) (ok : Bool) (o : Order ℚ) (now : Int) (db : Db) :
    symbolRows symbol (Db.saveOrder ok o now db).2.orders = if ok then
      (symbolRows symbol db.orders).filter (·.id ≠ cStr o.id) ++ symbolRows symbol [Db.orderRow o now]
    else symbolRows symbol db.orders := by
  unfold Db.saveOrder
  cases ok with
  | false => rfl
  | true =>
    simp only [if_true]
    unfold symbolRows
    rw [List.filter_append, List.filter_filter, List.filter_filter]
    congr 1
    refine List.filter_congr fun r _ => ?_
    rw [Bool.and_comm]

theorem saveOrder_users (ok : Bool) (o : Order ℚ) (now : Int) (db : Db) : (Db.saveOrder ok o now db).2.users = db.users := by
  unfold Db.saveOrder
  split_ifs <;> rfl

namespace Alike

/-- An order persisted for another symbol, under a new id. -/
theorem saved {x : Submission} {o : Order ℚ} (hn : cStr o.symbol ≠ symbol)
    (hrow : ∀ r ∈ symbolRows symbol sv.disk.orders, r.id ≠ cStr o.id) : Alike symbol Q sv (sv.saveSubmission env x o) := by
  rw [saveSubmission_disk]
  refine { refl (Q := Q) sv with users := ?_, rows := ?_ }
  · show Db.users (if _ then _ else _) = _
    split_ifs
    · exact saveOrder_users ..
    · rfl
  · show symbolRows symbol (Db.orders (if _ then _ else _)) = _
    split_ifs
    · have hnew : symbolRows symbol [Db.orderRow o env.now] = [] :=
        List.filter_eq_nil_iff.2 fun r hr => by rw [List.mem_singleton.1 hr, decide_eq_true_eq]; exact hn
      rw [symbolRows_saveOrder, hnew, List.append_nil]
      split_ifs
      · exact List.filter_eq_self.2 fun r hr => by simpa using hrow r hr
      · rfl
    · rfl

theorem saved_both (hst : env.Steady) (h : Alike symbol Q sv sv') (x : Submission) (o : Order ℚ) :
    Alike symbol Q (sv.saveSubmission env x o) (sv'.saveSubmission env x o) := by
  rw [saveSubmission_disk, saveSubmission_disk, h.storeOpen, hst sv'.writes sv.writes]
  refine { h with storeOpen := rfl, users := ?_, rows := ?_ }
  · show Db.users (if _ then _ else _) = Db.users (if _ then _ else _)
    split_ifs
    · rw [saveOrder_users, saveOrder_users, h.users]
    · exact h.users
  · show symbolRows symbol (Db.orders (if _ then _ else _)) = symbolRows symbol (Db.orders (if _ then _ else _))
    split_ifs
    · rw [symbolRows_saveOrder, symbolRows_saveOrder, h.rows]
    · exact h.rows

theorem acknowledge {o : Order ℚ} (hin : ¬ sv.InBook symbol o.id) (s : SessionPtr) :
    Alike symbol Q sv (sv.acknowledge s o) := by
  refine { refl (Q := Q) sv with owner := fun id hid => ?_ }
  show (sv.orderOwners.insert o.id _).find? id = _
  rw [SortedMap.find?_insert, if_neg]
  rintro rfl
  exact hin hid

theorem acknowledge_both (h : Alike symbol Q sv sv') (s : SessionPtr) (o : Order ℚ) :
    Alike symbol Q (sv.acknowledge s o) (sv'.acknowledge s o) := by
  refine { h with owner := fun id hid => ?_ }
  show (sv'.orderOwners.insert o.id _).find? id = (sv.orderOwners.insert o.id _).find? id
  rw [SortedMap.find?_insert, SortedMap.find?_insert, h.clientId]
  split_ifs
  · rfl
  · exact h.owner id hid

/-- A submission to the symbol's book; a new id has no owner. -/
theorem handleOrderSubmit_both (hst : env.Steady) (h : Alike symbol Q sv sv') (hS : Sound sv) (hS' : Sound sv')
    {m : OrderSubmitMessage} (hm : m.symbol = symbol) (hown : ∀ id, id ∉ sv.uuids → sv.orderOwners.find? id = none)
    (hown' : ∀ id, id ∉ sv'.uuids → sv'.orderOwners.find? id = none) {r r' : Server}
    (hr : sv.handleOrderSubmit env m s = some r) (hr' : sv'.handleOrderSubmit env m s = some r') (hnd : r.uuids.Nodup)
    (hnd' : r'.uuids.Nodup) : Alike symbol Q r r' := by
  have hbook : sv'.orderbooks.find? m.symbol = sv.orderbooks.find? m.symbol := hm.symm ▸ h.book
  cases hb : sv.orderbooks.find? m.symbol with
  | none =>
    unfold handleOrderSubmit getOrderbook at hr hr'
    rw [hb] at hr
    rw [hbook, hb] at hr'
    cases hr
    cases hr'
    exact h.send_both s _ _
  | some b =>
    obtain ⟨out, sv₁, h1, ha⟩ := handleOrderSubmit_added env hS hb s
    obtain ⟨out', sv₂, h2, ha'⟩ := handleOrderSubmit_added env hS' (hbook.trans hb) s
    cases hr.symm.trans h1
    cases hr'.symm.trans h2
    have hsub : Alike symbol Q (sv.subscribe s m.symbol) (sv'.subscribe s m.symbol) :=
      ((subscribe s _).symm.trans h).trans (subscribe s _)
    have hnone : ∀ {sv : Server} {x o}, sv.orderOwners.find? (generateUuid env.uuid) = none →
        (sv.saveSubmission env x o).orderOwners.find? (generateUuid env.uuid) = none := fun h => by
      rw [saveSubmission_disk]; exact h
    have hnew : generateUuid env.uuid ∉ (sv.subscribe s m.symbol).uuids := submitted_new ha (show sv₁.uuids.Nodup from hnd)
    have hnew' : generateUuid env.uuid ∉ (sv'.subscribe s m.symbol).uuids :=
      submitted_new ha' (show sv₂.uuids.Nodup from hnd')
    obtain ⟨-, rfl, hA⟩ := (hsub.saved_both hst _ _).added_both hst ha ha' hm (hnone (hown _ hnew)) (hnone (hown' _ hnew'))
    exact hA.acknowledge_both s _

end Alike

/-- The loop over the books when none of them has the order. -/
theorem cancelLoop_miss (env : Env) {id : String} : ∀ {l : List (String × OrderBook ℚ)},
    (∀ e ∈ l, sv.orderbooks.find? e.1 = some e.2 ∧ e.2.ordersById.find? id = none) → cancelLoop env id l sv = (false, sv)
  | [], _ => rfl
  | (name, b) :: l, h => by
    obtain ⟨h1, h2⟩ := h _ List.mem_cons_self
    unfold cancelLoop
    rw [cancelOrder_miss h1 h2]
    exact cancelLoop_miss env fun e he => h e (List.mem_cons_of_mem _ he)

/-- The loop over the books when one of them has the order. -/
theorem cancelLoop_hit (hS : Sound sv) (env : Env) {id : String} {b : OrderBook ℚ} {p : OrderPtr}
    (hb : sv.orderbooks.find? symbol = some b) (hp : b.ordersById.find? id = some p)
    (hmiss : ∀ name x, sv.orderbooks.find? name = some x → name ≠ symbol → x.ordersById.find? id = none) :
    ∀ {l : List (String × OrderBook ℚ)}, (∀ e ∈ l, sv.orderbooks.find? e.1 = some e.2) → (symbol, b) ∈ l →
      cancelLoop env id l sv = (true, (sv.cancelOrder env symbol b id).2)
  | (name, x) :: l, h, hm => by
    have hx := h _ List.mem_cons_self
    unfold cancelLoop
    by_cases hn : name = symbol
    · subst hn
      cases hx.symm.trans hb
      obtain ⟨b', sv', h1, -⟩ := cancelOrder_hit hS env hb hp
      rw [h1]; rfl
    · rw [cancelOrder_miss hx (hmiss name x hx hn)]
      refine cancelLoop_hit hS env hb hp hmiss (fun e he => h e (List.mem_cons_of_mem _ he)) ?_
      exact (List.mem_cons.1 hm).resolve_left fun he => hn (congrArg Prod.fst he).symm

namespace Alike

/-- A cancel of an order that no other book has. -/
theorem handleOrderCancel_both (hst : env.Steady) (h : Alike symbol Q sv sv') (hS : Sound sv) (hS' : Sound sv') {id : String}
    (hin : ∀ name, sv.InBook name id → name = symbol) (hin' : ∀ name, sv'.InBook name id → name = symbol) :
    Alike symbol Q (sv.handleOrderCancel env id s) (sv'.handleOrderCancel env id s) := by
  have hmiss : ∀ {sv : Server}, (∀ name, sv.InBook name id → name = symbol) → ∀ name x, sv.orderbooks.find? name = some x →
      name ≠ symbol → x.ordersById.find? id = none := fun hin name x hx hn => by
    cases hp : x.ordersById.find? id with
    | none => rfl
    | some p => exact absurd (hin name ⟨x, p, hx, hp⟩) hn
  have hentries : ∀ sv : Server, ∀ e ∈ sv.orderbooks.entries, sv.orderbooks.find? e.1 = some e.2 :=
    fun sv e he => SortedMap.find?_eq_some_iff.2 he
  by_cases hlive : sv.InBook symbol id
  · obtain ⟨b, p, hb, hp⟩ := hlive
    have hb' := h.book.trans hb
    have h1 := cancelLoop_hit hS env hb hp (hmiss hin) (hentries sv) (SortedMap.find?_eq_some_iff.1 hb)
    have h2 := cancelLoop_hit hS' env hb' hp (hmiss hin') (hentries sv') (SortedMap.find?_eq_some_iff.1 hb')
    have howns : sv'.owns s id = sv.owns s id := by
      unfold owns
      rw [h.owner id ⟨b, p, hb, hp⟩, h.clientId]
    unfold handleOrderCancel
    rw [h1, h2, howns]
    split_ifs
    · exact (h.cancelOrder_both hst hS hb id).2
    · exact h.send_both s _ _
  · -- nothing happens when the symbol's book does not have the order either
    have hnone : ∀ {sv : Server}, (∀ name, sv.InBook name id → name = symbol) → ¬ sv.InBook symbol id →
        Alike symbol Q sv (sv.handleOrderCancel env id s) := fun {sv} hin hlive => by
      have h1 : cancelLoop env id sv.orderbooks.entries sv = (false, sv) := cancelLoop_miss env fun e he => by
        refine ⟨hentries sv e he, ?_⟩
        cases hp : e.2.ordersById.find? id with
        | none => rfl
        | some p =>
          have hbook : sv.InBook e.1 id := ⟨e.2, p, hentries sv e he, hp⟩
          exact absurd (hin e.1 hbook ▸ hbook) hlive
      unfold handleOrderCancel
      rw [h1]
      split_ifs
      · exact .sendMessage ..
      · exact .sendMessage ..
    exact ((hnone hin hlive).symm.trans h).trans (hnone hin' fun hin => hlive (hin.congr h.book))

theorem handleOrderStatus (id : String) : Alike symbol Q sv (sv.handleOrderStatus id s) := by
  unfold Server.handleOrderStatus
  split_ifs
  · split
    · exact .sendMessage ..
    · exact .sendMessage ..
  · exact .sendMessage ..

theorem sendOrderbookSnapshots (sv : Server) : Alike symbol Q sv sv.sendOrderbookSnapshots := by
  unfold Server.sendOrderbookSnapshots
  generalize sv.orderbooks.entries = l
  induction l generalizing sv with
  | nil => exact refl sv
  | cons e l ih => exact (broadcast ..).trans (ih _)

/-! ## The order generator -/

theorem unpriced_eq {g g' : Generator} : g'.unpriced = g.unpriced ↔
    g'.symbol = g.symbol ∧ g'.tickSize = g.tickSize ∧ g'.maxTracked = g.maxTracked ∧ g'.tracked = g.tracked := by
  unfold Generator.unpriced
  cases g
  cases g'
  simp

/-- The generators agree up to a reference price that is not the symbol's. -/
theorem generator_cases (h : Alike symbol Q sv sv') : sv.generator = none ∧ sv'.generator = none ∨
    ∃ g g', sv.generator = some g ∧ sv'.generator = some g' ∧ g'.symbol = g.symbol ∧ g'.tickSize = g.tickSize ∧
      g'.maxTracked = g.maxTracked ∧ g'.tracked = g.tracked ∧ (Q → g.symbol = symbol → g'.lastPrice = g.lastPrice) := by
  have hg := h.generator
  have hp := h.price
  unfold referencePrice at hp
  cases h1 : sv.generator with
  | none =>
    rw [h1] at hg
    exact .inl ⟨rfl, Option.map_eq_none_iff.1 hg⟩
  | some g =>
    rw [h1] at hg
    obtain ⟨g', h2, heq⟩ := Option.map_eq_some_iff.1 hg
    rw [h1, h2] at hp
    obtain ⟨hsym, htick, hmax, htr⟩ := unpriced_eq.1 heq
    refine .inr ⟨g, g', rfl, h2, hsym, htick, hmax, htr, fun hq hs => ?_⟩
    have hp := hp hq
    simp only [hsym, hs, if_true, Option.some.injEq] at hp
    exact hp

theorem setGenerator_both (h : Alike symbol Q sv sv') (g g' : Generator) (hg : g'.unpriced = g.unpriced)
    (hp : Q → g.symbol = symbol → g'.lastPrice = g.lastPrice) :
    Alike symbol Q { sv with generator := some g } { sv' with generator := some g' } := by
  refine { h with generator := congrArg some hg, price := fun hq => ?_ }
  have hsym : g'.symbol = g.symbol := (unpriced_eq.1 hg).1
  show (if g'.symbol = symbol then some g'.lastPrice else none) = if g.symbol = symbol then some g.lastPrice else none
  rw [hsym]
  split_ifs with hs
  · rw [hp hq hs]
  · rfl

theorem generate_both (h : Alike symbol Q sv sv') (d : GeneratorDraws) :
    Alike symbol Q (sv.generate env d) (sv'.generate env d) := by
  unfold Server.generate
  rcases h.generator_cases with ⟨h1, h2⟩ | ⟨g, g', h1, h2, hsym, htick, hmax, htr, hp⟩
  · rw [h1, h2]; exact h
  · rw [h1, h2]
    have hlog : Alike symbol Q (sv.logUuid (generateUuid env.uuid)) (sv'.logUuid (generateUuid env.uuid)) :=
      ((logUuid _).symm.trans h).trans (logUuid _)
    have hset := hlog.setGenerator_both (g.track (generateUuid env.uuid)) (g'.track (generateUuid env.uuid))
      (unpriced_eq.2 ⟨hsym, htick, hmax, by unfold Generator.track; rw [hmax, htr]⟩) hp
    refine { hset with posted := ?_ }
    show sv'.posted ++ _ = sv.posted ++ _
    rw [h.posted]
    unfold Generator.generateOrder Generator.orderPrice
    simp only [hsym, htick]

end Alike

end Server

end OrderbookGC
