/-
No client can put lines into what the server says. The format has no escapes, and names that one client chooses reach
others: in trade notifications, in snapshots, and through the order table even after a restart. But requests are read
line by line, so no string of theirs holds a newline; `OneLine` follows the strings through sessions, books and rows, and
every message the server sends is read as the one that it meant (`run_uninjected`).
-/
import OrderbookGC.Server.Payload
import OrderbookGC.Wire.Strings

namespace OrderbookGC

open Container OrderBook MatchState

/-! ## Strings on one line -/

def OneLine (s : String) : Prop := '\n' ∉ s.toList

instance (s : String) : Decidable (OneLine s) := inferInstanceAs (Decidable (¬ '\n' ∈ s.toList))

namespace OneLine

theorem bytes {s : String} (h : OneLine s) : Text.newline ∉ bytes s := fun hm =>
  h ((Text.ofChar_mem_encodeUtf8 (by decide) _).1 hm)

theorem append {s t : String} (hs : OneLine s) (ht : OneLine t) : OneLine (s ++ t) := by
  unfold OneLine
  rw [String.toList_append, List.mem_append]
  exact fun h => h.elim hs ht

theorem cStr {s : String} (h : OneLine s) : OneLine (cStr s) := by
  unfold OneLine OrderbookGC.cStr
  rw [String.toList_ofList]
  exact fun hm => h ((List.takeWhile_sublist _).subset hm)

theorem decoded {l : List UInt8} (h : Text.newline ∉ l) : OneLine (String.ofList (Text.decodeUtf8 l)) := by
  unfold OneLine
  rw [String.toList_ofList]
  exact fun hm => h (Text.ofChar_mem_of_mem_decodeUtf8 (by decide) hm)

theorem uuid (d : UuidDraws) : OneLine (generateUuid d) := by
  have hdigit : ∀ n, hexDigit n ≠ '\n' := by decide
  have hhex : ∀ i n, '\n' ∉ d.hex i n := fun i n hm => by
    obtain ⟨k, -, hk⟩ := List.mem_filterMap.1 hm
    split_ifs at hk
    exact hdigit _ (Option.some.inj hk)
  have hvar : d.variantDigit ≠ '\n' := hdigit _
  unfold OneLine generateUuid
  rw [String.toList_ofList]
  simp [hhex, hvar.symm]

end OneLine

/-- The names of an order. -/
structure Order.OneLine (o : Order ℚ) : Prop where
  id : OrderbookGC.OneLine o.id
  clientId : OrderbookGC.OneLine o.clientId
  symbol : OrderbookGC.OneLine o.symbol

theorem Order.SameStatic.oneLine {o o' : Order ℚ} (h : o.SameStatic o') (ho : o.OneLine) : o'.OneLine :=
  ⟨h.id ▸ ho.id, h.clientId ▸ ho.clientId, h.symbol ▸ ho.symbol⟩

structure OrderRow.OneLine (r : OrderRow) : Prop where
  id : OrderbookGC.OneLine r.id
  clientId : OrderbookGC.OneLine r.clientId
  symbol : OrderbookGC.OneLine r.symbol

theorem Order.OneLine.row {o : Order ℚ} (h : o.OneLine) (now : Int) : (Db.orderRow o now).OneLine :=
  ⟨h.id.cStr, h.clientId.cStr, h.symbol.cStr⟩

theorem OrderRow.OneLine.restored {r : OrderRow} (h : r.OneLine) (now : Int) : (Db.restoreOrder now r).OneLine := by
  have hnew : (Order.new r.id r.side r.price (columnInt r.remainingQuantity) r.symbol r.clientId r.orderType r.stopPrice
    now).OneLine := ⟨h.id, h.clientId, h.symbol⟩
  unfold Db.restoreOrder
  dsimp only
  split_ifs
  · exact (Order.fill_static ..).oneLine hnew
  · exact hnew

def Response.strings : Response → List String
  | .orderStatus m => [m.orderId, m.clientId, m.symbol]
  | .orderbookSnapshot symbol _ _ => [symbol]
  | .tradeNotification t => [t.buyOrderId, t.sellOrderId, t.symbol]
  | .error errorCode description => [errorCode, description]
  | .loginResponse _ sessionToken username errorMessage => [sessionToken, username, errorMessage]
  | .registerResponse _ username errorMessage => [username, errorMessage]

def Response.OneLine (r : Response) : Prop := ∀ s ∈ r.strings, OrderbookGC.OneLine s

theorem Response.strings_toWire (now : Int) (r : Response) : (r.toWire now).strings = r.strings.map bytes := by
  cases r <;> rfl

theorem Response.OneLine.toWire {r : Response} (h : r.OneLine) (now : Int) : (r.toWire now).OneLine := by
  unfold Wire.Message.OneLine
  rw [Response.strings_toWire]
  intro s hs
  obtain ⟨x, hx, rfl⟩ := List.mem_map.1 hs
  exact (h x hx).bytes

theorem Order.OneLine.status {o : Order ℚ} (h : o.OneLine) : (Response.orderStatus o.statusMessage).OneLine := fun s hs => by
  simp only [Response.strings, List.mem_cons, List.not_mem_nil, or_false] at hs
  rcases hs with rfl | rfl | rfl
  · exact h.id
  · exact h.clientId
  · exact h.symbol

theorem Response.OneLine.error {errorCode description : String} (hc : OrderbookGC.OneLine errorCode)
    (hd : OrderbookGC.OneLine description) : (Response.error errorCode description).OneLine := fun s hs => by
  simp only [Response.strings, List.mem_cons, List.not_mem_nil, or_false] at hs
  rcases hs with rfl | rfl
  · exact hc
  · exact hd

/-- The strings of a request that its answer, or a later message, can hold. -/
def Request.names : Request → List String
  | .login username _ => [username]
  | .register username _ => [username]
  | .snapshotRequest symbol => [symbol]
  | .orderSubmit m => [m.clientId, m.symbol]
  | _ => []

namespace Server

/-- Whatever is read off the wire holds no newline in a name. -/
theorem received_names (read : List UInt8 → Int) (payload : List UInt8) :
    ∀ name ∈ (received (Wire.parseMessage read payload)).names, OneLine name := by
  have hread := Wire.parseMessage_oneLine read payload
  generalize Wire.parseMessage read payload = m at hread
  have hname : ∀ {l : List UInt8}, l ∈ m.strings → OneLine (String.ofList (Text.decodeUtf8 l)) := fun hl => .decoded (hread _ hl)
  intro name hn
  cases m with
  | login m | register m | snapshotRequest m =>
    rw [List.mem_singleton.1 hn]
    exact hname List.mem_cons_self
  | orderSubmit m =>
    rcases List.mem_cons.1 hn with rfl | hn
    · exact hname List.mem_cons_self
    · rw [List.mem_singleton.1 hn]
      exact hname (List.mem_cons_of_mem _ List.mem_cons_self)
  | orderCancel _ | orderStatus _ | orderbookSnapshot _ | tradeNotification _ | error _ | loginResponse _
  | registerResponse _ => cases hn

/-! ## What the server holds -/

/-- The strings that reach messages. -/
structure TextInv (sv : Server) : Prop where
  config : ∀ symbol ∈ sv.config.symbols, OneLine symbol
  name : ∀ {symbol b}, sv.orderbooks.find? symbol = some b → OneLine symbol
  held : ∀ {symbol b}, sv.orderbooks.find? symbol = some b → ∀ p, b.Held p → (b.heap p).OneLine
  generator : ∀ g ∈ sv.generator, OneLine g.symbol
  posted : ∀ o ∈ sv.posted, o.OneLine
  row : ∀ r ∈ sv.disk.orders, r.OneLine
  sent : ∀ e ∈ sv.sent, e.2.OneLine

namespace TextInv

variable {env : Env} {sv sv' : Server}

theorem initial {config : Config} (h : ∀ symbol ∈ config.symbols, OneLine symbol) : TextInv (initial config) :=
  ⟨h, nofun, nofun, nofun, nofun, nofun, nofun⟩

theorem say (h : TextInv sv) {l : List (SessionPtr × Response)} (hl : ∀ e ∈ l, e.2.OneLine) :
    TextInv { sv with sent := sv.sent ++ l } := by
  refine { h with sent := fun e he => ?_ }
  rcases List.mem_append.1 he with he | he
  · exact h.sent e he
  · exact hl e he

theorem sendMessage (h : TextInv sv) (s : SessionPtr) {r : Response} (hr : r.OneLine) : TextInv (sv.sendMessage s r) :=
  h.say fun e he => by
    rw [List.mem_singleton.1 he]
    exact hr

theorem broadcast (h : TextInv sv) (symbol : String) {r : Response} (hr : r.OneLine) : TextInv (sv.broadcast symbol r) := by
  obtain ⟨l, hl, hmem⟩ := broadcast_eq sv symbol r
  rw [hl]
  exact h.say fun e he => by
    rw [hmem e he]
    exact hr

theorem setOwners (h : TextInv sv) (orderOwners : SortedMap String String) : TextInv { sv with orderOwners } := { h with }

theorem write (h : TextInv sv) (env : Env) (stmt : Bool → Db → Bool × Db)
    (hstmt : ∀ ok db, (∀ r ∈ db.orders, r.OneLine) → ∀ r ∈ (stmt ok db).2.orders, r.OneLine) :
    TextInv (sv.write env stmt).2 := by
  obtain ⟨disk, n, hw, hd⟩ := write_eq sv env stmt
  rw [hw]
  refine { h with row := ?_ }
  rcases hd with ⟨-, hd⟩ | ⟨-, hd⟩
  · rw [hd]
    exact hstmt _ _ h.row
  · rw [hd]
    exact h.row

theorem setBook (h : TextInv sv) {symbol : String} {b : OrderBook ℚ} (hs : OneLine symbol)
    (hb : ∀ p, b.Held p → (b.heap p).OneLine) : TextInv (sv.setBook symbol b) := by
  refine { h with name := fun {x c} hx => ?_, held := fun {x c} hx => ?_ }
  all_goals
    rw [setBook_find?] at hx
    split_ifs at hx with heq
  · rw [heq]
    exact hs
  · exact h.name hx
  · cases hx
    exact hb
  · exact h.held hx

theorem new_held (symbol : String) (tickSize : ℚ) : ∀ p, (OrderBook.new symbol tickSize).Held p →
    ((OrderBook.new symbol tickSize).heap p).OneLine := fun p hp =>
  absurd ((empty_inv symbol tickSize).alloc (.inl hp)) (Nat.not_lt_zero p)

/-! ## Calls of the books -/

theorem onTradeExecuted (h : TextInv sv) {t : Trade ℚ} (ht : (Response.tradeNotification t).OneLine) :
    TextInv (onTradeExecuted env sv t) := by
  unfold Server.onTradeExecuted
  have hlog : TextInv { sv with generator := sv.generator.map (Generator.updateLastPrice · t.price)
                                trades := sv.trades ++ [t] } := by
    refine { h with generator := fun g hg => ?_ }
    obtain ⟨g', hg', rfl⟩ := Option.mem_map.1 hg
    exact h.generator g' hg'
  refine (hlog.write env _ fun ok db hdb => ?_).broadcast t.symbol ht
  unfold Db.saveTrade
  split_ifs <;> exact hdb

theorem onOrderUpdated (h : TextInv sv) {o : Order ℚ} (ho : o.OneLine) : TextInv (onOrderUpdated env sv o) := by
  unfold Server.onOrderUpdated
  have hw : TextInv (sv.write env (Db.updateOrder · o)).2 := h.write env _ fun ok db hdb => by
    unfold Db.updateOrder
    split_ifs
    · intro r hr
      obtain ⟨r', hr', rfl⟩ := List.mem_map.1 hr
      split_ifs
      · exact ⟨(hdb r' hr').id, (hdb r' hr').clientId, (hdb r' hr').symbol⟩
      · exact hdb r' hr'
    · exact hdb
  generalize (sv.write env (Db.updateOrder · o)).2 = sv₁ at hw
  dsimp only
  split
  · exact hw
  · split
    · exact hw.setOwners _
    · split
      · exact hw.setOwners _
      · exact (hw.setOwners _).sendMessage _ ho.status

theorem dispatch {heap : OrderPtr → Order ℚ} (cbs : List (Callback ℚ)) (h : TextInv sv)
    (ht : ∀ t, .trade t ∈ cbs → (Response.tradeNotification t).OneLine) (ho : ∀ p, .order p ∈ cbs → (heap p).OneLine) :
    TextInv (dispatch env heap cbs sv) := by
  unfold Server.dispatch
  induction cbs generalizing sv with
  | nil => exact h
  | cons c cbs ih =>
    rw [List.foldl_cons]
    refine ih ?_ (fun t hm => ht t (List.mem_cons_of_mem _ hm)) fun p hm => ho p (List.mem_cons_of_mem _ hm)
    cases c with
    | trade t => exact h.onTradeExecuted (ht t List.mem_cons_self)
    | order p => exact h.onOrderUpdated (ho p List.mem_cons_self)

/-- A call trades and announces what it found in the book, and its own order. -/
theorem added {o : Order ℚ} {b : OrderBook ℚ} {out : AddOutcome ℚ} (h : TextInv sv) (hs : Sound sv) (ho : o.OneLine)
    (ha : Added env o b out sv sv') : TextInv sv' := by
  have hknown : ∀ p, b.Held p ∨ p = b.nextPtr → ((b.alloc o).2.heap p).OneLine := fun p hp => by
    by_cases hn : p = b.nextPtr
    · rw [hn, alloc_heap_self]
      exact ho
    · rw [alloc_heap_of_ne hn]
      exact h.held ha.book p (hp.resolve_right hn)
  have hleft : ∀ p, b.Held p ∨ p = b.nextPtr → (out.state.heap p).OneLine := fun p hp => (ha.call.static p).oneLine (hknown p hp)
  rw [ha.returned]
  refine (h.setBook ho.symbol fun p hp => hleft p (ha.call.held p hp)).dispatch _ (fun t ht s hs' => ?_)
    fun p hp => hleft p (ha.call.announced p hp)
  obtain ⟨hsym, ⟨p, hp⟩, ⟨q, hq⟩⟩ := ha.call.trades t ht
  simp only [Response.strings, List.mem_cons, List.not_mem_nil, or_false] at hs'
  rcases hs' with rfl | rfl | rfl
  · rw [← hp.id]
    exact (hknown p hp.known).id
  · rw [← hq.id]
    exact (hknown q hq.known).id
  · rw [hsym]
    show OneLine b.symbol
    rw [hs.symbol ha.book]
    exact ho.symbol

theorem cancelled {symbol id : String} {b b' : OrderBook ℚ} {p : OrderPtr} (h : TextInv sv)
    (hc : Cancelled env symbol id b p b' sv sv') : TextInv sv' := by
  have hheap : ∀ q, b.Held q → (b'.heap q).OneLine := fun q hq => (hc.cancel.static q).oneLine (h.held hc.book q hq)
  rw [hc.result]
  exact (h.setBook (h.name hc.book) fun q hq => hheap q
    ((hc.cancel.held_iff hc.inv.toBookInv).1 hq).1).onOrderUpdated (hheap p hc.cancel.held)

/-! ## Handlers -/

theorem setSession (h : TextInv sv) (s : SessionPtr) (x : Session) : TextInv (sv.setSession s x) := { h with }

theorem requireAuth (h : TextInv sv) (s : SessionPtr) {permission : String} (hp : OneLine permission) :
    TextInv (sv.requireAuth s permission).2 := by
  unfold Server.requireAuth
  dsimp only
  split_ifs
  · exact h
  · exact h.setSession ..
  · exact h.sendMessage s (.error (by decide) (by decide))
  · exact h.sendMessage s (.error (by decide) (.append (by decide) hp))
  · exact h

theorem login (h : TextInv sv) (env : Env) {username : String} (hu : OneLine username) (permissions : String) (s : SessionPtr) :
    TextInv (sv.login env username permissions s) := by
  unfold Server.login
  have hlog : TextInv (sv.logUuid (generateUuid env.uuid)) := { h with }
  refine (hlog.setSession ..).sendMessage s fun x hx => ?_
  simp only [Response.strings, List.mem_cons, List.not_mem_nil, or_false] at hx
  rcases hx with rfl | rfl | rfl
  · exact .uuid _
  · exact hu
  · decide

theorem handleLogin (h : TextInv sv) (env : Env) {username : String} (hu : OneLine username) (password : String) (s : SessionPtr) :
    TextInv (sv.handleLogin env username password s) := by
  unfold Server.handleLogin
  split_ifs
  · exact h.login env hu _ s
  · split <;> exact h.login env hu _ s
  · refine h.sendMessage s fun x hx => ?_
    simp only [Response.strings, List.mem_cons, List.not_mem_nil, or_false] at hx
    rcases hx with rfl | rfl | rfl
    · decide
    · exact hu
    · decide

theorem handleRegister (h : TextInv sv) (env : Env) {username : String} (hu : OneLine username) (password : String)
    (s : SessionPtr) : TextInv (sv.handleRegister env username password s) := by
  have hsend : ∀ {sv : Server}, TextInv sv → ∀ ok {text : String}, OneLine text →
      TextInv (sv.sendMessage s (.registerResponse ok username text)) := fun h ok text ht => h.sendMessage s fun x hx => by
    simp only [Response.strings, List.mem_cons, List.not_mem_nil, or_false] at hx
    rcases hx with rfl | rfl
    · exact hu
    · exact ht
  unfold Server.handleRegister
  split_ifs
  · exact hsend h _ (by decide)
  · exact hsend h _ (by decide)
  · exact hsend h _ (by decide)
  · exact hsend h _ (by decide)
  · exact hsend h _ (by decide)
  · have hw := h.write env (Db.saveUser · ⟨username, password, "trade,view"⟩ (env.salts 0)) fun ok db hdb => by
      unfold Db.saveUser
      split_ifs <;> exact hdb
    dsimp only
    split_ifs
    · exact hsend hw _ (by decide)
    · exact hsend hw _ (by decide)

theorem snapshot {symbol : String} (hs : OneLine symbol) (b : OrderBook ℚ) : (snapshotMessage symbol b).OneLine := fun x hx => by
  rw [List.mem_singleton.1 hx]
  exact hs

theorem createOrderbook (h : TextInv sv) {symbol : String} (hs : OneLine symbol) (tickSize : ℚ) :
    TextInv (sv.createOrderbook symbol tickSize).2 := by
  unfold Server.createOrderbook
  split_ifs
  · exact h
  · exact h.setBook hs (new_held symbol tickSize)

theorem handleSnapshotRequest (h : TextInv sv) {symbol : String} (hs : OneLine symbol) (s : SessionPtr) :
    TextInv (sv.handleSnapshotRequest symbol s) := by
  have hsub : TextInv (sv.subscribe s symbol) := { h with }
  unfold Server.handleSnapshotRequest
  dsimp only
  generalize hr : (if ((sv.subscribe s symbol).getOrderbook symbol).isSome then (true, sv.subscribe s symbol)
    else (sv.subscribe s symbol).createOrderbook symbol defaultTickSize) = r
  have hinv : TextInv r.2 := by
    rw [← hr]
    split_ifs
    · exact hsub
    · exact hsub.createOrderbook hs defaultTickSize
  split_ifs
  · exact hinv.sendMessage s (.error (by decide) (.append (by decide) hs))
  · split
    · exact hinv
    · exact hinv.sendMessage s (snapshot hs _)

theorem saveSubmission (h : TextInv sv) (x : Submission) {o : Order ℚ} (ho : o.OneLine) :
    TextInv (sv.saveSubmission env x o) := by
  unfold Server.saveSubmission
  have hlog : TextInv { sv.logUuid x.orderId with submissions := sv.submissions ++ [x] } := { h with }
  refine hlog.write env _ fun ok db hdb => ?_
  unfold Db.saveOrder
  split_ifs
  · intro r hr
    rcases List.mem_append.1 hr with hr | hr
    · exact hdb r (List.mem_of_mem_filter hr)
    · rw [List.mem_singleton.1 hr]
      exact ho.row _
  · exact hdb

theorem handleOrderSubmit (h : TextInv sv) (hs : Sound sv) {m : OrderSubmitMessage} (hc : OneLine m.clientId)
    (hsym : OneLine m.symbol) {s : SessionPtr} (hrun : sv.handleOrderSubmit env m s = some sv') : TextInv sv' := by
  cases hb : sv.orderbooks.find? m.symbol with
  | none =>
    unfold Server.handleOrderSubmit getOrderbook at hrun
    rw [hb] at hrun
    cases hrun
    exact h.sendMessage s (.error (by decide) (.append (by decide) hsym))
  | some b =>
    obtain ⟨out, sv₁, h1, ha⟩ := handleOrderSubmit_added env hs hb s
    cases h1.symm.trans hrun
    have ho : (submittedOrder env m b.tickSize).OneLine := ⟨.uuid _, hc, hsym⟩
    have hsub : TextInv (sv.subscribe s m.symbol) := { h with }
    have hadded := (hsub.saveSubmission _ ho).added (((Quiet.subscribe sv s m.symbol).sound hs).saveSubmission ..) ho ha
    refine (hadded.setOwners _).sendMessage s (Order.OneLine.status ((ha.call.static b.nextPtr).oneLine ?_))
    rw [alloc_heap_self]
    exact ho

theorem handleOrderCancel (h : TextInv sv) (hs : Sound sv) (id : String) (s : SessionPtr) :
    TextInv (sv.handleOrderCancel env id s) := by
  unfold Server.handleOrderCancel
  by_cases howns : sv.owns s id = true
  · rw [if_pos howns]
    rcases cancelLoop_effect hs env id sv.orderbooks.entries fun e he => SortedMap.find?_eq_some_iff.2 he with
      ⟨h1, -⟩ | ⟨symbol, b, p, b', sv', h1, hc⟩
    · rw [h1]
      exact h.sendMessage s (.error (by decide) (by decide))
    · rw [h1]
      exact h.cancelled hc
  · rw [if_neg howns]
    exact h.sendMessage s (.error (by decide) (by decide))

theorem handleOrderStatus (h : TextInv sv) (hs : Sound sv) (id : String) (s : SessionPtr) :
    TextInv (sv.handleOrderStatus id s) := by
  unfold Server.handleOrderStatus
  split_ifs
  · split
    · exact h.sendMessage s (.error (by decide) (by decide))
    · next o hf =>
      obtain ⟨⟨symbol, b⟩, he, hm⟩ := List.exists_of_findSome?_eq_some hf
      obtain ⟨p, hp, rfl⟩ := Option.map_eq_some_iff.1 hm
      have hb : sv.orderbooks.find? symbol = some b := SortedMap.find?_eq_some_iff.2 he
      have hheld : b.Held p := ((hs.books hb).index.1 hp).2.resolve_right List.not_mem_nil
      exact h.sendMessage s (h.held hb p hheld).status
  · exact h.sendMessage s (.error (by decide) (by decide))

theorem handleMessage (h : TextInv sv) (hs : Sound sv) {m : Request} (hm : ∀ name ∈ m.names, OneLine name) {s : SessionPtr}
    (hrun : sv.handleMessage env m s = some sv') : TextInv sv' := by
  have hview : TextInv (sv.requireAuth s "view").2 := h.requireAuth s (by decide)
  have htrade : TextInv (sv.requireAuth s "trade").2 := h.requireAuth s (by decide)
  have hsound : ∀ permission, Sound (sv.requireAuth s permission).2 := fun permission =>
    (Quiet.requireAuth sv s permission).sound hs
  cases m with
  | login username password =>
    cases hrun
    exact h.handleLogin env (hm _ List.mem_cons_self) _ s
  | register username password =>
    cases hrun
    exact h.handleRegister env (hm _ List.mem_cons_self) _ s
  | snapshotRequest symbol =>
    unfold Server.handleMessage at hrun
    dsimp only at hrun
    split_ifs at hrun
    · cases hrun
      exact hview.handleSnapshotRequest (hm _ List.mem_cons_self) s
    · cases hrun
      exact hview
  | orderSubmit m =>
    unfold Server.handleMessage at hrun
    dsimp only at hrun
    split_ifs at hrun
    · exact htrade.handleOrderSubmit (hsound _) (hm _ List.mem_cons_self) (hm _ (List.mem_cons_of_mem _ List.mem_cons_self)) hrun
    · cases hrun
      exact htrade
  | orderCancel id c =>
    unfold Server.handleMessage at hrun
    dsimp only at hrun
    split_ifs at hrun
    · cases hrun
      exact htrade.handleOrderCancel (hsound _) _ s
    · cases hrun
      exact htrade
  | orderStatus id c =>
    unfold Server.handleMessage at hrun
    dsimp only at hrun
    split_ifs at hrun
    · cases hrun
      exact hview.handleOrderStatus (hsound _) _ s
    · cases hrun
      exact hview
  | other =>
    cases hrun
    exact h.sendMessage s (.error (by decide) (by decide))

/-! ## Events -/

theorem sendOrderbookSnapshots (h : TextInv sv) : TextInv sv.sendOrderbookSnapshots := by
  have hname : ∀ e ∈ sv.orderbooks.entries, OneLine e.1 := fun e he => h.name (SortedMap.find?_eq_some_iff.2 he)
  unfold Server.sendOrderbookSnapshots
  generalize sv.orderbooks.entries = l at hname
  induction l generalizing sv with
  | nil => exact h
  | cons e l ih =>
    rw [List.foldl_cons]
    exact ih (h.broadcast e.1 (snapshot (hname e List.mem_cons_self) e.2)) fun e he => hname e (List.mem_cons_of_mem _ he)

theorem generate (h : TextInv sv) (env : Env) (d : GeneratorDraws) : TextInv (sv.generate env d) := by
  unfold Server.generate
  split
  · exact h
  · next g hg =>
    have hsym : OneLine g.symbol := h.generator g hg
    refine { h with generator := fun g' hg' => ?_, posted := fun o ho => ?_ }
    · cases hg'
      exact hsym
    · rcases List.mem_append.1 ho with ho | ho
      · exact h.posted o ho
      · rw [List.mem_singleton.1 ho]
        exact ⟨.uuid _, show OneLine "AUTO_GEN" by decide, hsym⟩

theorem handlePosted (h : TextInv sv) (hs : Sound sv) (hrun : sv.handlePosted env = some sv') : TextInv sv' := by
  unfold Server.handlePosted at hrun
  split at hrun
  · cases hrun
    exact h
  · next o rest hp =>
    have hmem : ∀ o' ∈ rest, o' ∈ sv.posted := fun o' ho' => by
      rw [hp]
      exact List.mem_cons_of_mem _ ho'
    have hfirst : o ∈ sv.posted := by
      rw [hp]
      exact List.mem_cons_self
    have hpop : TextInv { sv with posted := rest } := { h with posted := fun o' ho' => h.posted o' (hmem o' ho') }
    have hspop : Sound { sv with posted := rest } := ⟨hs.books, hs.symbol, fun o' ho' => hs.posted o' (hmem o' ho')⟩
    dsimp only at hrun
    split at hrun
    · cases hrun
      exact hpop
    · next b hb =>
      obtain ⟨out, sv₁, h1, ha⟩ := addOrder_added hspop env hb (.inl (hs.posted o hfirst))
      rw [h1] at hrun
      cases hrun
      exact hpop.added hspop (h.posted o hfirst) ha

theorem tryCancel (h : TextInv sv) (hs : Sound sv) (env : Env) (i : Nat) : TextInv (sv.tryCancel env i) := by
  unfold Server.tryCancel
  split
  · exact h
  · next g hg =>
    split
    · exact h
    · next id hid =>
      have htrack : TextInv { sv with generator := some { g with tracked := g.tracked.eraseIdx i } } := by
        refine { h with generator := fun g' hg' => ?_ }
        cases hg'
        exact h.generator g hg
      have hstrack : Sound { sv with generator := some { g with tracked := g.tracked.eraseIdx i } } := ⟨hs.books, hs.symbol, hs.posted⟩
      dsimp only
      split
      · exact htrack
      · next b hb =>
        cases hx : b.ordersById.find? id with
        | none =>
          rw [cancelOrder_miss hb hx]
          exact htrack
        | some p =>
          obtain ⟨b', sv', h1, hc⟩ := cancelOrder_hit hstrack env hb hx
          rw [h1]
          exact htrack.cancelled hc

theorem setOrderbookTickSize (h : TextInv sv) (symbol : String) (tickSize : ℚ) :
    TextInv (sv.setOrderbookTickSize symbol tickSize).2 := by
  unfold Server.setOrderbookTickSize
  split_ifs
  · exact h
  · split
    · exact h
    · next b hb =>
      refine h.setBook (h.name hb) fun p hp => ?_
      unfold OrderBook.setTickSize at hp ⊢
      split_ifs at hp ⊢
      · exact h.held hb p hp
      · exact h.held hb p hp

theorem boot (h : TextInv sv) : TextInv sv.boot := by
  have hnew : TextInv sv.newProcess := ⟨h.config, nofun, nofun, nofun, nofun, h.row, h.sent⟩
  have hbooks : ∀ (symbols : List String) {sv : Server}, (∀ symbol ∈ symbols, OneLine symbol) → TextInv sv →
      TextInv (symbols.foldl (fun sv symbol => (sv.createOrderbook symbol defaultTickSize).2) sv) := by
    intro symbols
    induction symbols with
    | nil => exact fun _ h => h
    | cons symbol symbols ih =>
      intro sv hsym h
      rw [List.foldl_cons]
      exact ih (fun x hx => hsym x (List.mem_cons_of_mem _ hx)) (h.createOrderbook (hsym symbol List.mem_cons_self) _)
  exact hbooks _ h.config hnew

theorem restored {rows : List OrderRow} (hr : Restored env rows sv sv') (hs : Sound sv) (hrows : ∀ r ∈ rows, r.OneLine)
    (h : TextInv sv) : TextInv sv' := by
  induction hr with
  | nil => exact h
  | skip _ _ ih => exact ih hs (fun r hr => hrows r (List.mem_cons_of_mem _ hr)) h
  | add ha _ ih =>
    exact ih (ha.sound hs) (fun r hr => hrows r (List.mem_cons_of_mem _ hr))
      (h.added hs ((hrows _ List.mem_cons_self).restored _) ha)

theorem initPersistence (h : TextInv sv) (hs : Sound sv) {opens : Bool} (hrun : sv.initPersistence env opens = some sv') :
    TextInv sv' ∧ Sound sv' := by
  unfold Server.initPersistence at hrun
  split_ifs at hrun
  · obtain ⟨disk, n, hseed, hd, -⟩ := seedDefaultUsers_eq { sv with storeOpen := true } env
    rw [hseed] at hrun
    have hrow : ∀ r ∈ disk.orders, r.OneLine := fun r hr => h.row r (hd ▸ hr)
    have h₁ : TextInv { sv with storeOpen := true, disk, writes := n } := { h with row := hrow }
    have hs₁ : Sound { sv with storeOpen := true, disk, writes := n } := ⟨hs.books, hs.symbol, hs.posted⟩
    obtain ⟨sv₂, h2, hr, hs₂⟩ := restore_effect env disk.activeRows _ hs₁
    cases h2.symm.trans hrun
    refine ⟨restored hr hs₁ (fun r hr => hrow r ?_) h₁, hs₂⟩
    exact List.mem_of_mem_filter ((List.perm_insertionSort _ _).subset hr)
  · cases hrun
    exact ⟨h, hs⟩

theorem configureOrderGenerator (h : TextInv sv) : TextInv sv.configureOrderGenerator := by
  unfold Server.configureOrderGenerator
  split
  · next symbol symbols _ hsym =>
    split
    · exact h
    · refine { h with generator := fun g hg => ?_ }
      cases hg
      exact h.config symbol (by rw [hsym]; exact List.mem_cons_self)
  · exact h

theorem restart (h : TextInv sv) (hrun : sv.restart env = some sv') : TextInv sv' := by
  have hs : Sound sv.boot := by
    obtain ⟨m, hm, -⟩ := boot_eq sv
    have hb := (boot_booted sv env sv.disk 0 none rfl rfl).sound
    exact ⟨hb.books, hb.symbol, by rw [hm]; nofun⟩
  unfold Server.restart at hrun
  obtain ⟨sv₁, h1, h2⟩ := Option.bind_eq_some_iff.1 hrun
  obtain ⟨hT, hs₁⟩ := h.boot.initPersistence hs h1
  obtain ⟨g, hg⟩ := configureOrderGenerator_eq sv₁
  have hsg : Sound sv₁.configureOrderGenerator := by
    rw [hg]
    exact ⟨hs₁.books, hs₁.symbol, hs₁.posted⟩
  dsimp only at h2
  split_ifs at h2
  · cases h2
    exact hT.configureOrderGenerator
  · exact (hT.configureOrderGenerator.initPersistence hsg h2).1

end TextInv

/-! ## Runs -/

/-- A request comes off the wire; the names of books that the program is told to create are on one line. -/
def OffWire : Event → Prop
  | .message _ m => ∃ read payload, m = received (Wire.parseMessage read payload)
  | .createOrderbook symbol _ => OneLine symbol
  | _ => True

theorem step_textInv {sv sv' : Server} {env : Env} {ev : Event} (hs : Sound sv) (h : TextInv sv) (hev : OffWire ev)
    (hrun : sv.step (env, ev) = some sv') : TextInv sv' := by
  cases ev with
  | connect =>
    cases hrun
    exact { h with }
  | close s =>
    cases hrun
    unfold close
    split_ifs
    · exact { h with }
    · exact h
    · exact h
  | message s m =>
    obtain ⟨read, payload, rfl⟩ := hev
    unfold step at hrun
    dsimp only at hrun
    split_ifs at hrun
    · exact h.handleMessage hs (received_names read payload) hrun
    · cases hrun
      exact h
  | snapshotTimer =>
    cases hrun
    exact h.sendOrderbookSnapshots
  | generate d =>
    cases hrun
    exact h.generate env d
  | posted => exact h.handlePosted hs hrun
  | generatorCancel i =>
    cases hrun
    exact h.tryCancel hs env i
  | createOrderbook symbol tickSize =>
    cases hrun
    exact h.createOrderbook hev tickSize
  | setOrderbookTickSize symbol tickSize =>
    cases hrun
    exact h.setOrderbookTickSize symbol tickSize
  | restart => exact h.restart hrun

/-- The strings of the server, in every history. -/
theorem run_textInv (config : Config) (env : Env) (evs : List (Env × Event))
    (hconfig : ∀ symbol ∈ config.symbols, OneLine symbol) (hevs : ∀ a ∈ evs, OffWire a.2) :
    ∃ sv, run config env evs = some sv ∧ TextInv sv := by
  obtain ⟨sv, hrun, -, h⟩ := Machine.foldlM_prefix (l := (env, .restart) :: evs)
    (I := fun _ sv => Sound sv ∧ TextInv sv) (fun pre a sv hpre ⟨hs, h⟩ => by
      obtain ⟨e, ev⟩ := a
      obtain ⟨sv', h1, h2⟩ := step_effect hs e ev
      refine ⟨sv', h1, h2.sound hs, step_textInv hs h ?_ h1⟩
      rcases List.mem_cons.1 (hpre.subset (List.mem_append_right _ (List.mem_singleton.2 rfl))) with heq | hmem
      · rw [(Prod.mk.inj heq).2]
        trivial
      · exact hevs _ hmem) ⟨.initial config, .initial hconfig⟩
  exact ⟨sv, hrun, h⟩

/-- Whatever bytes clients send, in whatever history: every message that the server sends is read as one of its class with
its strings. Nobody who chooses a name adds a line to what others are told. -/
theorem run_uninjected (config : Config) (env : Env) (evs : List (Env × Event))
    (hconfig : ∀ symbol ∈ config.symbols, OneLine symbol) (hevs : ∀ a ∈ evs, OffWire a.2) :
    ∃ sv, run config env evs = some sv ∧ ∀ e ∈ sv.sent, ∀ localtime read now,
      (Wire.parseMessage read (e.2.payload localtime now)).SameStrings (e.2.toWire now) := by
  obtain ⟨sv, hrun, h⟩ := run_textInv config env evs hconfig hevs
  exact ⟨sv, hrun, fun e he localtime read now => Wire.parseMessage_strings localtime read _ ((h.sent e he).toWire now)⟩

/-- A login whose user name would go on in a line of its own. -/
def forgedLogin : List UInt8 := Text.lit "type=LOGIN\nusername=mallory\nerror_message=none\npassword=x"

/-- The answer names `mallory`, and is read as that. -/
theorem run_uninjected_forgedLogin : ∃ sv, run sampleConfig (sampleEnv false 0)
      [(sampleEnv false 1, .connect), (sampleEnv false 2, .message 0 (received (Wire.parseMessage (fun _ => 0) forgedLogin)))] =
        some sv ∧
    sv.sent = [(0, .loginResponse true (generateUuid (sampleEnv false 2).uuid) "mallory" "")] ∧
    ∀ e ∈ sv.sent, (Wire.parseMessage (fun _ => 0) (e.2.payload Wire.sampleClock 0)).SameStrings (e.2.toWire 0) := by
  obtain ⟨sv, hrun, h⟩ := run_uninjected sampleConfig (sampleEnv false 0)
    [(sampleEnv false 1, .connect), (sampleEnv false 2, .message 0 (received (Wire.parseMessage (fun _ => 0) forgedLogin)))]
    (by decide) (by
      intro a ha
      rcases List.mem_cons.1 ha with rfl | ha
      · trivial
      · rw [List.mem_singleton.1 ha]
        exact ⟨fun _ => 0, forgedLogin, rfl⟩)
  have hstate : (run sampleConfig (sampleEnv false 0) [(sampleEnv false 1, .connect),
      (sampleEnv false 2, .message 0 (received (Wire.parseMessage (fun _ => 0) forgedLogin)))]).map (·.sent) =
        some [(0, .loginResponse true (generateUuid (sampleEnv false 2).uuid) "mallory" "")] := by decide +kernel
  rw [hrun, Option.map_some, Option.some.injEq] at hstate
  exact ⟨sv, hrun, hstate, fun e he => h e he Wire.sampleClock (fun _ => 0) 0⟩

end Server

end OrderbookGC
