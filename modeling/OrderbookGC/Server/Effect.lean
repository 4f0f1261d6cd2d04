/-
`Effect` lists the ways an event changes the server, in terms of the books' calls and their callbacks.
Every event returns (`step_effect`), and `run_rule` lifts what the effects keep to whole histories.
-/
import OrderbookGC.Server.Step

namespace OrderbookGC

open Container OrderBook MatchState

namespace Server

theorem setBook_find? (sv : Server) (symbol : String) (b : OrderBook ℚ) (name : String) :
    (sv.setBook symbol b).orderbooks.find? name = if name = symbol then some b else sv.orderbooks.find? name :=
  SortedMap.find?_insert ..

/-! ## Calls of the books -/

/-- What holds between events whatever the clients do. -/
structure Sound (sv : Server) : Prop where
  books : ∀ {symbol b}, sv.orderbooks.find? symbol = some b → Inv [] b
  symbol : ∀ {symbol b}, sv.orderbooks.find? symbol = some b → b.symbol = symbol
  posted : ∀ o ∈ sv.posted, o.Fresh

/-- `addOrder` of the order `o` on its book, with the callbacks. -/
structure Added (env : Env) (o : Order ℚ) (b : OrderBook ℚ) (out : AddOutcome ℚ) (sv sv' : Server) : Prop where
  book : sv.orderbooks.find? o.symbol = some b
  inv : Inv [] b
  result : OrderBook.addOrder (some b.nextPtr) (b.alloc o).2 = some out
  add : AddEffect b.nextPtr (b.alloc o).2 out
  dispatched : Dispatched env out.state.heap out.callbacks (sv.setBook o.symbol out.state.toOrderBook) sv'
  returned : sv' = dispatch env out.state.heap out.callbacks (sv.setBook o.symbol out.state.toOrderBook)

/-- A successful `cancelOrder` on the book of `symbol`, with the callback. -/
structure Cancelled (env : Env) (symbol id : String) (b : OrderBook ℚ) (p : OrderPtr) (b' : OrderBook ℚ)
    (sv sv' : Server) : Prop where
  book : sv.orderbooks.find? symbol = some b
  inv : Inv [] b
  cancel : CancelEffect id p b b'
  result : sv' = onOrderUpdated env (sv.setBook symbol b') (b'.heap p)

section Calls

variable {env : Env} {o : Order ℚ} {b b' : OrderBook ℚ} {out : AddOutcome ℚ} {sv sv' : Server} {symbol id : String}
  {p : OrderPtr}

theorem Added.invAlloc (h : Added env o b out sv sv') : Inv [] (b.alloc o).2 :=
  ⟨h.inv.toBookInv.allocate o, fun _ hp => by cases hp⟩

theorem Added.call (h : Added env o b out sv sv') : CallEffect b.nextPtr (b.alloc o).2 out := h.add.call h.invAlloc

theorem Added.find? (h : Added env o b out sv sv') (symbol : String) : sv'.orderbooks.find? symbol =
    if symbol = o.symbol then some out.state.toOrderBook else sv.orderbooks.find? symbol := by
  rw [h.dispatched.orderbooks]
  exact setBook_find? ..

theorem Cancelled.dispatched (h : Cancelled env symbol id b p b' sv sv') :
    Dispatched env b'.heap [.order p] (sv.setBook symbol b') sv' := by
  rw [h.result]; exact .order p

theorem Cancelled.find? (h : Cancelled env symbol id b p b' sv sv') (x : String) : sv'.orderbooks.find? x =
    if x = symbol then some b' else sv.orderbooks.find? x := by
  rw [h.dispatched.orderbooks]
  exact setBook_find? ..

/-- An order without a remainder is refused before its status is looked at. -/
theorem addOrder_added (hs : Sound sv) (env : Env) (hb : sv.orderbooks.find? o.symbol = some b)
    (ho : o.Fresh ∨ o.remainingQuantity = 0) :
    ∃ out sv', sv.addOrder env b o = some (out.state.heap b.nextPtr, sv') ∧ Added env o b out sv sv' := by
  have hI := hs.books hb
  have hout : ∃ out, OrderBook.addOrder (some b.nextPtr) (b.alloc o).2 = some out ∧ AddEffect b.nextPtr (b.alloc o).2 out := by
    rcases ho with ho | ho
    · exact (alloc_addOrder hI ho).2
    · have h0 : ((b.alloc o).2.heap b.nextPtr).remainingQuantity = 0 := by
        show (Function.update b.heap b.nextPtr o b.nextPtr).remainingQuantity = 0
        rw [Function.update_self]; exact ho
      refine ⟨_, ?_, .refused (.inl h0)⟩
      unfold OrderBook.addOrder
      simp only [if_pos h0]
  obtain ⟨out, hout, he⟩ := hout
  refine ⟨out, _, ?_, hb, hI, hout, he, dispatch_dispatched env _ _ _, rfl⟩
  unfold addOrder
  show Option.map _ (OrderBook.addOrder (some b.nextPtr) (b.alloc o).2) = _
  rw [hout]; rfl

theorem Added.sound (h : Added env o b out sv sv') (hs : Sound sv) : Sound sv' := by
  refine ⟨fun {symbol x} hx => ?_, fun {symbol x} hx => ?_, fun q hq => hs.posted q (by rw [h.dispatched.posted] at hq; exact hq)⟩
  · rw [h.find?] at hx
    split_ifs at hx
    · cases hx; exact h.call.inv
    · exact hs.books hx
  · rw [h.find?] at hx
    split_ifs at hx with heq
    · cases hx
      rw [heq, h.call.symbol]
      show b.symbol = _
      exact hs.symbol h.book
    · exact hs.symbol hx

theorem Cancelled.sound (h : Cancelled env symbol id b p b' sv sv') (hs : Sound sv) : Sound sv' := by
  refine ⟨fun {symbol x} hx => ?_, fun {symbol x} hx => ?_, fun q hq => hs.posted q (by rw [h.dispatched.posted] at hq; exact hq)⟩
  · rw [h.find?] at hx
    split_ifs at hx
    · cases hx; exact h.cancel.inv h.inv
    · exact hs.books hx
  · rw [h.find?] at hx
    split_ifs at hx with heq
    · cases hx
      rw [heq, h.cancel.symbol]; exact hs.symbol h.book
    · exact hs.symbol hx

theorem Quiet.sound (h : Quiet sv sv') (hs : Sound sv) : Sound sv' :=
  ⟨fun hx => hs.books (h.orderbooks ▸ hx), fun hx => hs.symbol (h.orderbooks ▸ hx), fun q hq => hs.posted q (h.posted ▸ hq)⟩

theorem cancelOrder_miss (hb : sv.orderbooks.find? symbol = some b) (hid : b.ordersById.find? id = none) :
    sv.cancelOrder env symbol b id = (false, sv) := by
  unfold cancelOrder
  rw [cancelOrder_none hid]
  show (false, sv.setBook symbol b) = _
  unfold setBook
  rw [SortedMap.insert_eq_self hb]

theorem cancelOrder_hit (hs : Sound sv) (env : Env) (hb : sv.orderbooks.find? symbol = some b)
    (hid : b.ordersById.find? id = some p) :
    ∃ b' sv', sv.cancelOrder env symbol b id = (true, sv') ∧ Cancelled env symbol id b p b' sv sv' := by
  obtain ⟨b', hb', he⟩ := cancelOrder_effect (hs.books hb).toBookInv hid
  refine ⟨b', _, ?_, hb, hs.books hb, he, rfl⟩
  unfold cancelOrder
  rw [hb']; rfl

/-- The loop over the books: nothing happens, or the first book that has the order cancels it. -/
theorem cancelLoop_effect (hs : Sound sv) (env : Env) (id : String) :
    ∀ l : List (String × OrderBook ℚ), (∀ e ∈ l, sv.orderbooks.find? e.1 = some e.2) →
      (cancelLoop env id l sv = (false, sv) ∧ ∀ e ∈ l, e.2.ordersById.find? id = none) ∨
      ∃ symbol b p b' sv', cancelLoop env id l sv = (true, sv') ∧ Cancelled env symbol id b p b' sv sv'
  | [], _ => .inl ⟨rfl, fun _ he => by cases he⟩
  | (symbol, b) :: rest, hl => by
    have hb := hl (symbol, b) (List.mem_cons_self ..)
    unfold cancelLoop
    cases hid : b.ordersById.find? id with
    | none =>
      rw [cancelOrder_miss hb hid]
      simp only [Bool.false_eq_true, if_false]
      rcases cancelLoop_effect hs env id rest fun e he => hl e (List.mem_cons_of_mem _ he) with ⟨h1, h2⟩ | h
      · refine .inl ⟨h1, fun e he => ?_⟩
        rcases List.mem_cons.1 he with rfl | he
        · exact hid
        · exact h2 e he
      · exact .inr h
    | some p =>
      obtain ⟨b', sv', h1, h2⟩ := cancelOrder_hit hs env hb hid
      rw [h1]
      exact .inr ⟨symbol, b, p, b', sv', rfl, h2⟩

end Calls

/-- A submission is logged, and inserted into the order table when the write succeeds. -/
theorem saveSubmission_eq (sv : Server) (env : Env) (x : Submission) (o : Order ℚ) :
    ∃ disk n, sv.saveSubmission env x o =
        { sv with uuids := sv.uuids ++ [x.orderId], submissions := sv.submissions ++ [x], disk, writes := n } ∧
      (disk.orders = sv.disk.orders ∧ ¬ (sv.storeOpen = true ∧ ∀ n, env.writeOk n = true) ∨
        sv.storeOpen = true ∧ disk.orders = sv.disk.orders.filter (·.id ≠ cStr o.id) ++ [Db.orderRow o env.now]) := by
  unfold saveSubmission
  obtain ⟨disk, n, hw, hd⟩ := write_eq { sv.logUuid x.orderId with submissions := sv.submissions ++ [x] } env
    (Db.saveOrder · o env.now)
  dsimp only
  refine ⟨disk, n, hw, ?_⟩
  rcases hd with ⟨ho, hd⟩ | ⟨ho, hd⟩
  · cases hok : env.writeOk sv.writes with
    | true =>
      refine .inr ⟨ho, ?_⟩
      rw [hd]
      show (Db.saveOrder (env.writeOk sv.writes) o env.now sv.disk).2.orders = _
      rw [hok]; rfl
    | false =>
      refine .inl ⟨?_, fun h => by rw [h.2] at hok; cases hok⟩
      rw [hd]
      show (Db.saveOrder (env.writeOk sv.writes) o env.now sv.disk).2.orders = _
      rw [hok]; rfl
  · refine .inl ⟨by rw [hd]; rfl, fun h => ?_⟩
    rw [show sv.storeOpen = false from ho] at h
    cases h.1

/-- The table after a submission is saved: the old rows, and at most the new one. -/
theorem mem_saveSubmission_orders {sv : Server} {env : Env} {x : Submission} {o : Order ℚ} {r : OrderRow}
    (hr : r ∈ (sv.saveSubmission env x o).disk.orders) : r ∈ sv.disk.orders ∨ r = Db.orderRow o env.now := by
  obtain ⟨disk, n, heq, hd⟩ := saveSubmission_eq sv env x o
  rw [heq] at hr
  rcases hd with ⟨hd, -⟩ | ⟨-, hd⟩
  · exact .inl (hd ▸ hr)
  · have hr : r ∈ sv.disk.orders.filter _ ++ [_] := hd ▸ hr
    exact (List.mem_append.1 hr).imp List.mem_of_mem_filter List.mem_singleton.1

theorem mem_saveSubmission (sv : Server) (env : Env) (x : Submission) (o : Order ℚ) :
    x.orderId ∈ (sv.saveSubmission env x o).uuids ∧ x ∈ (sv.saveSubmission env x o).submissions := by
  obtain ⟨disk, n, heq, -⟩ := saveSubmission_eq sv env x o
  rw [heq]
  exact ⟨List.mem_append_right _ (List.mem_singleton.2 rfl), List.mem_append_right _ (List.mem_singleton.2 rfl)⟩

theorem saveSubmission_orderbooks (sv : Server) (env : Env) (x : Submission) (o : Order ℚ) :
    (sv.saveSubmission env x o).orderbooks = sv.orderbooks := by
  obtain ⟨disk, n, heq, -⟩ := saveSubmission_eq sv env x o
  rw [heq]

theorem Sound.saveSubmission {sv : Server} (hs : Sound sv) (env : Env) (x : Submission) (o : Order ℚ) :
    Sound (sv.saveSubmission env x o) := by
  obtain ⟨disk, n, heq, -⟩ := saveSubmission_eq sv env x o
  rw [heq]
  exact ⟨hs.books, hs.symbol, hs.posted⟩

/-! ## A new process -/

/-- The state of a new process before its restore loop. -/
structure Booted (env : Env) (sv sv' : Server) : Prop where
  config : sv'.config = sv.config
  orderbooks : ∀ symbol, sv'.orderbooks.find? symbol =
    if symbol ∈ sv.config.symbols then some (.new symbol defaultTickSize) else none
  clientId : ∀ s, sv'.clientId s = sv.clientId s
  firstSession : sv'.firstSession = sv.nextSession
  nextSession : sv'.nextSession = sv.nextSession
  sessions : sv'.sessions = .empty
  orderOwners : sv'.orderOwners = .empty
  posted : sv'.posted = []
  storeOpen : sv'.storeOpen = (env.opens.1 || env.opens.2)
  orders : sv'.disk.orders = sv.disk.orders
  tradeRows : sv'.disk.trades = sv.disk.trades
  statuses : sv'.statuses = sv.statuses
  uuids : sv'.uuids = sv.uuids
  submissions : sv'.submissions = sv.submissions
  trades : sv'.trades = sv.trades

/-- The restore loop over the rows of the active orders; rows of symbols without a book are skipped. -/
inductive Restored (env : Env) : List OrderRow → Server → Server → Prop
  | nil {sv : Server} : Restored env [] sv sv
  | skip {r : OrderRow} {rows : List OrderRow} {sv sv' : Server} (hb : sv.orderbooks.find? r.symbol = none)
      (h : Restored env rows sv sv') : Restored env (r :: rows) sv sv'
  | add {r : OrderRow} {rows : List OrderRow} {sv sv₁ sv' : Server} {b : OrderBook ℚ} {out : AddOutcome ℚ}
      (ha : Added env (Db.restoreOrder env.now r) b out sv sv₁) (h : Restored env rows sv₁ sv') :
      Restored env (r :: rows) sv sv'

/-- The order restored from a row is refused or fresh. -/
theorem restoreOrder_fresh (now : Int) (r : OrderRow) :
    (Db.restoreOrder now r).Fresh ∨ (Db.restoreOrder now r).remainingQuantity = 0 := by
  unfold Db.restoreOrder
  dsimp only
  split_ifs
  · by_cases h0 : columnInt r.remainingQuantity = 0
    · right
      simp [Order.fill, Order.new, h0]
    · left; right
      simp [Order.fill, Order.new, h0]
  · exact .inl (.inl rfl)

@[simp] theorem restoreOrder_symbol (now : Int) (r : OrderRow) : (Db.restoreOrder now r).symbol = r.symbol := by
  unfold Db.restoreOrder
  dsimp only
  split_ifs
  · exact (Order.fill_static ..).symbol
  · rfl

@[simp] theorem restoreOrder_id (now : Int) (r : OrderRow) : (Db.restoreOrder now r).id = r.id := by
  unfold Db.restoreOrder
  dsimp only
  split_ifs
  · exact (Order.fill_static ..).id
  · rfl

theorem restoreOrder_static (now : Int) (r : OrderRow) : (Db.restoreOrder now r).side = r.side ∧
    (Db.restoreOrder now r).orderType = r.orderType ∧ (Db.restoreOrder now r).price = r.price := by
  unfold Db.restoreOrder
  dsimp only
  split_ifs
  · refine ⟨(Order.fill_static ..).side, ?_, (Order.fill_static ..).price⟩
    unfold Order.fill
    split_ifs <;> rfl
  · exact ⟨rfl, rfl, rfl⟩

theorem restore_effect (env : Env) : ∀ (rows : List OrderRow) (sv : Server), Sound sv →
    ∃ sv', (rows.map (Db.restoreOrder env.now)).foldlM (restore env) sv = some sv' ∧ Restored env rows sv sv' ∧ Sound sv'
  | [], sv, hs => ⟨sv, rfl, .nil, hs⟩
  | r :: rows, sv, hs => by
    rw [List.map_cons, List.foldlM_cons]
    unfold restore
    rw [restoreOrder_symbol]
    unfold getOrderbook
    cases hb : sv.orderbooks.find? r.symbol with
    | none =>
      obtain ⟨sv', h1, h2, h3⟩ := restore_effect env rows sv hs
      exact ⟨sv', h1, .skip hb h2, h3⟩
    | some b =>
      obtain ⟨out, sv₁, h1, ha⟩ := addOrder_added (o := Db.restoreOrder env.now r) hs env (by rw [restoreOrder_symbol]; exact hb)
        (restoreOrder_fresh env.now r)
      obtain ⟨sv', h2, h3, h4⟩ := restore_effect env rows sv₁ (ha.sound hs)
      refine ⟨sv', ?_, .add ha h3, h4⟩
      simp only [h1, Option.map_some]
      exact h2

/-- The books created by `main`. -/
theorem createBooks_find? : ∀ (symbols : List String) (sv : Server) (symbol : String),
    ((symbols.foldl (fun sv symbol => (sv.createOrderbook symbol defaultTickSize).2) sv).orderbooks.find? symbol =
      match sv.orderbooks.find? symbol with
      | some b => some b
      | none => if symbol ∈ symbols then some (.new symbol defaultTickSize) else none) ∧
    ∃ m, symbols.foldl (fun sv symbol => (sv.createOrderbook symbol defaultTickSize).2) sv = { sv with orderbooks := m }
  | [], sv, symbol => by
    refine ⟨?_, sv.orderbooks, rfl⟩
    simp only [List.foldl_nil, List.not_mem_nil, if_false]
    cases sv.orderbooks.find? symbol <;> rfl
  | x :: symbols, sv, symbol => by
    rw [List.foldl_cons]
    obtain ⟨h1, m, h2⟩ := createBooks_find? symbols (sv.createOrderbook x defaultTickSize).2 symbol
    unfold createOrderbook at h1 h2 ⊢
    cases hx : sv.orderbooks.find? x with
    | some b =>
      simp only [hx, Option.isSome_some, if_true] at h1 h2 ⊢
      refine ⟨?_, m, h2⟩
      rw [h1]
      by_cases he : symbol = x
      · rw [he, hx]
      · simp [List.mem_cons, he]
    | none =>
      simp only [hx, Option.isSome_none, Bool.false_eq_true, if_false] at h1 h2 ⊢
      refine ⟨?_, m, h2⟩
      rw [h1]
      unfold setBook
      rw [SortedMap.find?_insert]
      by_cases he : symbol = x
      · rw [if_pos he, he, hx]
        simp
      · simp [List.mem_cons, he]

theorem boot_eq (sv : Server) : ∃ m, sv.boot = { sv.newProcess with orderbooks := m } ∧ ∀ symbol, m.find? symbol =
    if symbol ∈ sv.config.symbols then some (.new symbol defaultTickSize) else none := by
  have h := createBooks_find? sv.config.symbols sv.newProcess
  obtain ⟨-, m, hm⟩ := h ""
  refine ⟨m, hm, fun symbol => ?_⟩
  have h := (h symbol).1
  rw [hm] at h
  exact h

theorem boot_booted (sv : Server) (env : Env) (disk : Db) (n : Nat) (g : Option Generator)
    (hd : disk.orders = sv.disk.orders) (ht : disk.trades = sv.disk.trades) :
    Booted env sv { sv.boot with storeOpen := env.opens.1 || env.opens.2, disk, writes := n, generator := g } := by
  obtain ⟨m, hm, h⟩ := boot_eq sv
  rw [hm]
  exact ⟨rfl, h, fun _ => rfl, rfl, rfl, rfl, rfl, rfl, rfl, hd, ht, rfl, rfl, rfl, rfl⟩

/-- The books of a new process are those `main` creates. -/
theorem Booted.orderbooks_eq {env : Env} {sv sv' : Server} (h : Booted env sv sv') : sv'.orderbooks = sv.boot.orderbooks := by
  obtain ⟨m, hm, hfind⟩ := boot_eq sv
  rw [hm]
  refine SortedMap.ext_find? fun symbol => ?_
  rw [h.orderbooks, hfind]

theorem Booted.sound {env : Env} {sv sv' : Server} (h : Booted env sv sv') : Sound sv' := by
  have hx : ∀ {symbol b}, sv'.orderbooks.find? symbol = some b → b = .new symbol defaultTickSize := fun hb => by
    rw [h.orderbooks] at hb
    split_ifs at hb
    exact (Option.some.inj hb).symm
  refine ⟨fun hb => ?_, fun hb => ?_, fun o ho => ?_⟩
  · rw [hx hb]; exact empty_inv ..
  · rw [hx hb]; rfl
  · rw [h.posted] at ho; cases ho

/-- What every call of a book keeps, the restore loop keeps. -/
theorem Restored.rule {K : Server → Prop} {env : Env} {rows : List OrderRow} {sv sv' : Server} (h : Restored env rows sv sv')
    (hK : K sv) (hadd : ∀ {o b out sv sv'}, Added env o b out sv sv' → K sv → K sv') : K sv' := by
  induction h with
  | nil => exact hK
  | skip _ _ ih => exact ih hK
  | add ha _ ih => exact ih (hadd ha hK)

/-- Seeding writes to the users table only. -/
theorem seedDefaultUsers_eq (sv : Server) (env : Env) :
    ∃ disk n, sv.seedDefaultUsers env = { sv with disk, writes := n } ∧ disk.orders = sv.disk.orders ∧
      disk.trades = sv.disk.trades := by
  unfold seedDefaultUsers
  split_ifs with h
  · clear h
    generalize Db.defaultUsers.zipIdx = l
    induction l generalizing sv with
    | nil => exact ⟨sv.disk, sv.writes, rfl, rfl, rfl⟩
    | cons u l ih =>
      obtain ⟨disk, n, hw, hd⟩ := write_eq sv env (Db.saveUser · u.1 (env.salts u.2))
      obtain ⟨disk', n', h1, h2, h3⟩ := ih (sv.write env (Db.saveUser · u.1 (env.salts u.2))).2
      refine ⟨disk', n', ?_, ?_⟩
      · rw [List.foldl_cons, h1, hw]
      · rw [h2, h3, hw]
        rcases hd with ⟨-, hd⟩ | ⟨-, hd⟩
        · rw [hd]
          unfold Db.saveUser
          split_ifs <;> exact ⟨rfl, rfl⟩
        · rw [hd]
          exact ⟨rfl, rfl⟩
  · exact ⟨sv.disk, sv.writes, rfl, rfl, rfl⟩

theorem configureOrderGenerator_eq (sv : Server) : ∃ g, sv.configureOrderGenerator = { sv with generator := g } := by
  unfold configureOrderGenerator
  split
  · split
    · exact ⟨_, rfl⟩
    · exact ⟨_, rfl⟩
  · exact ⟨_, rfl⟩

/-- A restart returns: it boots, and replays the active orders if the database could be opened. -/
theorem restart_effect (sv : Server) (env : Env) :
    ∃ sv₁ sv₂ sv', sv.restart env = some sv' ∧ Booted env sv sv₁ ∧
      Restored env (if sv₁.storeOpen then sv₁.disk.activeRows else []) sv₁ sv₂ ∧ Quiet sv₂ sv' ∧ Sound sv' := by
  obtain ⟨m, hm, -⟩ := boot_eq sv
  have hclosed : sv.boot.storeOpen = false := by rw [hm]; rfl
  have hdisk : sv.boot.disk = sv.disk := by rw [hm]; rfl
  -- opening the store of the booted process
  have hinit : ∀ g, (env.opens.1 || env.opens.2) = true → ∃ sv₁ sv₂,
      initPersistence { sv.boot with generator := g } env true = some sv₂ ∧ Booted env sv sv₁ ∧ sv₁.storeOpen = true ∧
      Restored env sv₁.disk.activeRows sv₁ sv₂ ∧ Sound sv₂ := by
    intro g ho
    obtain ⟨disk, n, h1, h2, h3⟩ := seedDefaultUsers_eq { sv.boot with storeOpen := true, generator := g } env
    have hb := boot_booted sv env disk n g (h2.trans (congrArg Db.orders hdisk)) (h3.trans (congrArg Db.trades hdisk))
    rw [ho] at hb
    obtain ⟨sv₂, h3, h4, h5⟩ := restore_effect env disk.activeRows _ hb.sound
    refine ⟨_, sv₂, ?_, hb, rfl, h4, h5⟩
    unfold initPersistence
    simp only [if_true]
    rw [h1]
    exact h3
  unfold restart
  cases h1 : env.opens.1 with
  | true =>
    obtain ⟨sv₁, sv₂, h2, h3, h4, h5, h6⟩ := hinit sv.boot.generator (by rw [h1]; rfl)
    have hq := Quiet.configureOrderGenerator sv₂
    refine ⟨sv₁, sv₂, sv₂.configureOrderGenerator, ?_, h3, by rw [h4, if_pos rfl]; exact h5, hq, hq.sound h6⟩
    show Option.bind (initPersistence { sv.boot with generator := sv.boot.generator } env true) _ = _
    rw [h2, Option.bind_some]
    dsimp only
    rw [if_pos]
    rw [hq.storeOpen]
    exact h5.rule (K := fun sv => sv.storeOpen = true) h4 fun ha h => by rw [ha.dispatched.storeOpen]; exact h
  | false =>
    obtain ⟨g, hg⟩ := configureOrderGenerator_eq sv.boot
    have hfirst : (sv.boot.initPersistence env false) = some sv.boot := rfl
    rw [hfirst, Option.bind_some]
    dsimp only
    rw [hg, if_neg (by rw [hclosed]; simp)]
    cases h2 : env.opens.2 with
    | true =>
      obtain ⟨sv₁, sv₂, h3, h4, h5, h6, h7⟩ := hinit g (by rw [h1, h2]; rfl)
      exact ⟨sv₁, sv₂, sv₂, h3, h4, by rw [h5, if_pos rfl]; exact h6, .refl _, h7⟩
    | false =>
      have hb := boot_booted sv env sv.boot.disk sv.boot.writes g (congrArg Db.orders hdisk) (congrArg Db.trades hdisk)
      rw [h1, h2, Bool.or_false, ← hclosed] at hb
      refine ⟨_, _, _, rfl, hb, ?_, .refl _, hb.sound⟩
      rw [if_neg (by simp [hclosed])]
      exact .nil

/-! ## Events -/

/-- The ways an event changes the server. -/
inductive Effect (env : Env) : Event → Server → Server → Prop
  | quiet {ev : Event} {sv sv' : Server} (h : Quiet sv sv') (hev : ev ≠ .restart) : Effect env ev sv sv'
  | connected {sv : Server} : Effect env .connect sv (sv.acceptConnection env)
  | closed {sv : Server} {s : SessionPtr} (hs : sv.hasSession s = true) : Effect env (.close s) sv
      ((sv.setSession s { sv.sessionAt s with connected := false }).removeSession s)
  | created {ev : Event} {sv sv₁ sv' : Server} {symbol : String} {tickSize : ℚ} (h₁ : Quiet sv sv₁)
      (hb : sv₁.orderbooks.find? symbol = none) (h₂ : Quiet (sv₁.setBook symbol (.new symbol tickSize)) sv')
      (hev : ev ≠ .restart) : Effect env ev sv sv'
  | ticked {sv : Server} {symbol : String} {b : OrderBook ℚ} {tickSize : ℚ} (hb : sv.orderbooks.find? symbol = some b) :
      Effect env (.setOrderbookTickSize symbol tickSize) sv (sv.setBook symbol (b.setTickSize tickSize))
  | submitted {sv sv₁ sv' : Server} {s : SessionPtr} {m : OrderSubmitMessage} {b : OrderBook ℚ} {out : AddOutcome ℚ}
      (hs : sv.hasSession s = true) (hauth : (sv.requireAuth s "trade").1 = true) (h₁ : Quiet sv sv₁)
      (ha : Added env (submittedOrder env m b.tickSize) b out
        (sv₁.saveSubmission env ⟨generateUuid env.uuid, s, m, b.tickSize⟩ (submittedOrder env m b.tickSize)) sv') :
      Effect env (.message s (.orderSubmit m)) sv (sv'.acknowledge s (out.state.heap b.nextPtr))
  | cancelled {sv sv₁ sv' : Server} {s : SessionPtr} {id c symbol : String} {b b' : OrderBook ℚ} {p : OrderPtr}
      (hs : sv.hasSession s = true) (h₁ : Quiet sv sv₁) (ho : sv.owns s id = true)
      (hc : Cancelled env symbol id b p b' sv₁ sv') : Effect env (.message s (.orderCancel id c)) sv sv'
  | reported {sv sv₁ : Server} {s : SessionPtr} {id c symbol : String} {b : OrderBook ℚ} {p : OrderPtr}
      (hs : sv.hasSession s = true) (h₁ : Quiet sv sv₁) (ho : sv.owns s id = true)
      (hb : sv.orderbooks.find? symbol = some b) (hp : b.getOrder id = some p) :
      Effect env (.message s (.orderStatus id c)) sv (sv₁.sendMessage s (.orderStatus (b.heap p).statusMessage))
  | generated {sv : Server} {g : Generator} {d : GeneratorDraws} (hg : sv.generator = some g) :
      Effect env (.generate d) sv (sv.generate env d)
  | dropped {sv : Server} {o : Order ℚ} {rest : List (Order ℚ)} (hp : sv.posted = o :: rest) :
      Effect env .posted sv { sv with posted := rest }
  | posted {sv sv' : Server} {o : Order ℚ} {rest : List (Order ℚ)} {b : OrderBook ℚ} {out : AddOutcome ℚ}
      (hp : sv.posted = o :: rest) (ha : Added env o b out { sv with posted := rest } sv') : Effect env .posted sv sv'
  | generatorCancelled {sv sv₁ sv' : Server} {i : Nat} {symbol id : String} {b b' : OrderBook ℚ} {p : OrderPtr}
      (h₁ : Quiet sv sv₁) (hc : Cancelled env symbol id b p b' sv₁ sv') : Effect env (.generatorCancel i) sv sv'
  | restarted {sv sv₁ sv₂ sv' : Server} (hb : Booted env sv sv₁)
      (hr : Restored env (if sv₁.storeOpen then sv₁.disk.activeRows else []) sv₁ sv₂) (hq : Quiet sv₂ sv') :
      Effect env .restart sv sv'

theorem createOrderbook_effect (env : Env) {ev : Event} (hev : ev ≠ .restart) {sv sv₁ : Server} (h : Quiet sv sv₁)
    (symbol : String) (tickSize : ℚ) : Effect env ev sv (sv₁.createOrderbook symbol tickSize).2 := by
  unfold createOrderbook
  cases hb : sv₁.orderbooks.find? symbol with
  | some b => exact .quiet h hev
  | none => exact .created h hb (.refl _) hev

theorem handleSnapshotRequest_effect (env : Env) {ev : Event} (hev : ev ≠ .restart) {sv sv₁ : Server} (h : Quiet sv sv₁)
    (symbol : String) (s : SessionPtr) : Effect env ev sv (sv₁.handleSnapshotRequest symbol s) := by
  have hq := h.trans (.subscribe sv₁ s symbol)
  unfold handleSnapshotRequest createOrderbook getOrderbook
  dsimp only
  cases hb : (sv₁.subscribe s symbol).orderbooks.find? symbol with
  | some b =>
    simp only [Option.isSome_some, if_true, Bool.not_true, Bool.false_eq_true, if_false, hb]
    exact .quiet (hq.trans (.sendMessage _ s (by simp [snapshotMessage]))) hev
  | none =>
    simp only [Option.isSome_none, Bool.false_eq_true, if_false, Bool.not_true]
    have hself : ((sv₁.subscribe s symbol).setBook symbol (.new symbol defaultTickSize)).orderbooks.find? symbol =
        some (.new symbol defaultTickSize) := SortedMap.find?_insert_self ..
    rw [hself]
    exact .created hq hb (.sendMessage ((sv₁.subscribe s symbol).setBook symbol (.new symbol defaultTickSize)) s
      (by simp [snapshotMessage])) hev

/-- A submission to a book. -/
theorem handleOrderSubmit_added (env : Env) {sv : Server} (hs : Sound sv) {m : OrderSubmitMessage} {b : OrderBook ℚ}
    (hb : sv.orderbooks.find? m.symbol = some b) (s : SessionPtr) :
    ∃ out sv', sv.handleOrderSubmit env m s = some (sv'.acknowledge s (out.state.heap b.nextPtr)) ∧
      Added env (submittedOrder env m b.tickSize) b out ((sv.subscribe s m.symbol).saveSubmission env
        ⟨generateUuid env.uuid, s, m, b.tickSize⟩ (submittedOrder env m b.tickSize)) sv' := by
  unfold handleOrderSubmit getOrderbook
  rw [hb]
  dsimp only
  have hs₂ := ((Quiet.subscribe sv s m.symbol).sound hs).saveSubmission env
    ⟨(submittedOrder env m b.tickSize).id, s, m, b.tickSize⟩ (submittedOrder env m b.tickSize)
  obtain ⟨out, sv', h1, ha⟩ := addOrder_added (o := submittedOrder env m b.tickSize) hs₂ env
    (by rw [saveSubmission_orderbooks]; exact hb) (.inl (.inl rfl))
  exact ⟨out, sv', by rw [h1, Option.map_some], ha⟩

theorem handleOrderSubmit_effect (env : Env) {sv sv₁ : Server} (hs : Sound sv) (h : Quiet sv sv₁) {s : SessionPtr}
    (hsess : sv.hasSession s = true) (hauth : (sv.requireAuth s "trade").1 = true) (m : OrderSubmitMessage) :
    ∃ sv', sv₁.handleOrderSubmit env m s = some sv' ∧ Effect env (.message s (.orderSubmit m)) sv sv' := by
  cases hb : sv₁.orderbooks.find? m.symbol with
  | none =>
    unfold handleOrderSubmit getOrderbook
    rw [hb]
    exact ⟨_, rfl, .quiet (h.trans (.sendMessage _ s (by simp))) nofun⟩
  | some b =>
    obtain ⟨out, sv', h1, ha⟩ := handleOrderSubmit_added env (h.sound hs) hb s
    exact ⟨_, h1, .submitted hsess hauth (h.trans (.subscribe sv₁ s m.symbol)) ha⟩

theorem handleOrderCancel_effect (env : Env) {sv sv₁ : Server} (hs : Sound sv) (h : Quiet sv sv₁) {s : SessionPtr}
    (hsess : sv.hasSession s = true) (id c : String) :
    Effect env (.message s (.orderCancel id c)) sv (sv₁.handleOrderCancel env id s) := by
  unfold handleOrderCancel
  split_ifs with ho
  · have ho' : sv.owns s id = true := by
      unfold owns at ho ⊢
      rw [h.orderOwners, h.clientId] at ho
      exact ho
    rcases cancelLoop_effect (h.sound hs) env id sv₁.orderbooks.entries fun e he => SortedMap.find?_eq_some_iff.2 he with
      ⟨h1, -⟩ | ⟨symbol, b, p, b', sv', h1, h2⟩
    · rw [h1]
      exact .quiet (h.trans (.sendMessage _ s (by simp))) nofun
    · rw [h1]
      exact .cancelled hsess h ho' h2
  · exact .quiet (h.trans (.sendMessage _ s (by simp))) nofun

theorem handleOrderStatus_effect (env : Env) {sv sv₁ : Server} (h : Quiet sv sv₁) {s : SessionPtr}
    (hsess : sv.hasSession s = true) (id c : String) :
    Effect env (.message s (.orderStatus id c)) sv (sv₁.handleOrderStatus id s) := by
  unfold handleOrderStatus
  split_ifs with ho
  · have ho' : sv.owns s id = true := by
      unfold owns at ho ⊢
      rw [h.orderOwners, h.clientId] at ho
      exact ho
    cases hf : sv₁.orderbooks.entries.findSome? fun e => (e.2.getOrder id).map e.2.heap with
    | none => exact .quiet (h.trans (.sendMessage _ s (by simp))) nofun
    | some o =>
      obtain ⟨e, he, hm⟩ := List.exists_of_findSome?_eq_some hf
      obtain ⟨p, hp, rfl⟩ := Option.map_eq_some_iff.1 hm
      exact .reported hsess h ho' (by rw [← h.orderbooks]; exact SortedMap.find?_eq_some_iff.2 he) hp
  · exact .quiet (h.trans (.sendMessage _ s (by simp))) nofun

theorem handleMessage_effect (env : Env) {sv : Server} (hs : Sound sv) {s : SessionPtr} (hsess : sv.hasSession s = true)
    (m : Request) : ∃ sv', sv.handleMessage env m s = some sv' ∧ Effect env (.message s m) sv sv' := by
  have hauth := Quiet.requireAuth sv s
  cases m with
  | login username password => exact ⟨_, rfl, .quiet (.handleLogin sv env s username password) nofun⟩
  | register username password => exact ⟨_, rfl, .quiet (.handleRegister sv env s username password) nofun⟩
  | snapshotRequest symbol =>
    unfold handleMessage
    dsimp only
    split_ifs
    · exact ⟨_, rfl, handleSnapshotRequest_effect env (by nofun) (hauth "view") symbol s⟩
    · exact ⟨_, rfl, .quiet (hauth "view") nofun⟩
  | orderSubmit m =>
    unfold handleMessage
    dsimp only
    split_ifs with hok
    · exact handleOrderSubmit_effect env hs (hauth "trade") hsess hok m
    · exact ⟨_, rfl, .quiet (hauth "trade") nofun⟩
  | orderCancel id c =>
    unfold handleMessage
    dsimp only
    split_ifs
    · exact ⟨_, rfl, handleOrderCancel_effect env hs (hauth "trade") hsess id c⟩
    · exact ⟨_, rfl, .quiet (hauth "trade") nofun⟩
  | orderStatus id c =>
    unfold handleMessage
    dsimp only
    split_ifs
    · exact ⟨_, rfl, handleOrderStatus_effect env (hauth "view") hsess id c⟩
    · exact ⟨_, rfl, .quiet (hauth "view") nofun⟩
  | other => exact ⟨_, rfl, .quiet (.sendMessage sv s (by simp)) nofun⟩

theorem tryCancel_effect (env : Env) {sv : Server} (hs : Sound sv) (i : Nat) :
    Effect env (.generatorCancel i) sv (sv.tryCancel env i) := by
  unfold tryCancel
  split
  · exact .quiet (.refl sv) nofun
  · next g hg =>
    split
    · exact .quiet (.refl sv) nofun
    · next id hid =>
      have hq : Quiet sv { sv with generator := some { g with tracked := g.tracked.eraseIdx i } } := { Quiet.refl sv with }
      dsimp only
      generalize ({ sv with generator := some { g with tracked := g.tracked.eraseIdx i } } : Server) = sv₁ at hq ⊢
      unfold getOrderbook
      cases hb : sv₁.orderbooks.find? g.symbol with
      | none => exact .quiet hq nofun
      | some b =>
        dsimp only
        cases hx : b.ordersById.find? id with
        | none =>
          rw [cancelOrder_miss hb hx]
          exact .quiet hq nofun
        | some p =>
          obtain ⟨b', sv', h1, h2⟩ := cancelOrder_hit (hq.sound hs) env hb hx
          rw [h1]
          exact .generatorCancelled hq h2

/-- A posted order is added to its book. -/
theorem handlePosted_added (env : Env) {sv : Server} (hs : Sound sv) {o : Order ℚ} {rest : List (Order ℚ)}
    (hp : sv.posted = o :: rest) {b : OrderBook ℚ} (hb : sv.orderbooks.find? o.symbol = some b) :
    ∃ out sv', sv.handlePosted env = some sv' ∧ Added env o b out { sv with posted := rest } sv' := by
  have hs' : Sound { sv with posted := rest } :=
    ⟨hs.books, hs.symbol, fun q hq => hs.posted q (by rw [hp]; exact List.mem_cons_of_mem _ hq)⟩
  have ho := hs.posted o (by rw [hp]; exact List.mem_cons_self ..)
  obtain ⟨out, sv', h1, ha⟩ := addOrder_added hs' env hb (.inl ho)
  refine ⟨out, sv', ?_, ha⟩
  unfold handlePosted getOrderbook
  rw [hp]
  dsimp only
  rw [hb]
  dsimp only
  rw [h1, Option.map_some]

theorem handlePosted_effect (env : Env) {sv : Server} (hs : Sound sv) :
    ∃ sv', sv.handlePosted env = some sv' ∧ Effect env .posted sv sv' := by
  cases hp : sv.posted with
  | nil =>
    unfold handlePosted
    rw [hp]
    exact ⟨sv, rfl, .quiet (.refl sv) nofun⟩
  | cons o rest =>
    cases hb : sv.orderbooks.find? o.symbol with
    | none =>
      unfold handlePosted getOrderbook
      rw [hp]
      dsimp only
      rw [hb]
      exact ⟨_, rfl, .dropped hp⟩
    | some b =>
      obtain ⟨out, sv', h1, ha⟩ := handlePosted_added env hs hp hb
      exact ⟨sv', h1, .posted hp ha⟩

/-- Every event returns, and is one of the effects. -/
theorem step_effect {sv : Server} (hs : Sound sv) (env : Env) (ev : Event) :
    ∃ sv', sv.step (env, ev) = some sv' ∧ Effect env ev sv sv' := by
  cases ev with
  | connect => exact ⟨_, rfl, .connected⟩
  | close s =>
    refine ⟨_, rfl, ?_⟩
    split_ifs with hsess
    · unfold close
      split_ifs
      · exact .closed hsess
      · exact .quiet (.refl sv) nofun
    · exact .quiet (.refl sv) nofun
  | message s m =>
    unfold step
    dsimp only
    split_ifs with hsess
    · exact handleMessage_effect env hs hsess m
    · exact ⟨sv, rfl, .quiet (.refl sv) nofun⟩
  | snapshotTimer => exact ⟨_, rfl, .quiet (.sendOrderbookSnapshots sv) nofun⟩
  | generate d =>
    refine ⟨_, rfl, ?_⟩
    cases hg : sv.generator with
    | none =>
      have : sv.generate env d = sv := by unfold generate; rw [hg]
      rw [this]
      exact .quiet (.refl sv) nofun
    | some g => exact .generated hg
  | posted => exact handlePosted_effect env hs
  | generatorCancel i => exact ⟨_, rfl, tryCancel_effect env hs i⟩
  | createOrderbook symbol tickSize => exact ⟨_, rfl, createOrderbook_effect env (by nofun) (.refl sv) symbol tickSize⟩
  | setOrderbookTickSize symbol tickSize =>
    refine ⟨_, rfl, ?_⟩
    unfold setOrderbookTickSize
    split_ifs
    · exact .quiet (.refl sv) nofun
    · cases hb : sv.orderbooks.find? symbol with
      | none => exact .quiet (.refl sv) nofun
      | some b => exact .ticked hb
  | restart =>
    obtain ⟨sv₁, sv₂, sv', h1, h2, h3, h4, -⟩ := restart_effect sv env
    exact ⟨sv', h1, .restarted h2 h3 h4⟩

theorem Sound.setBook {sv : Server} (hs : Sound sv) {symbol : String} {b : OrderBook ℚ} (hI : Inv [] b)
    (hsym : b.symbol = symbol) : Sound (sv.setBook symbol b) := by
  refine ⟨fun {x c} hx => ?_, fun {x c} hx => ?_, hs.posted⟩
  · rw [setBook_find?] at hx
    split_ifs at hx
    · cases hx; exact hI
    · exact hs.books hx
  · rw [setBook_find?] at hx
    split_ifs at hx with he
    · cases hx; rw [hsym, he]
    · exact hs.symbol hx

theorem setTickSize_inv {b : OrderBook ℚ} (h : Inv [] b) (tickSize : ℚ) : Inv [] (b.setTickSize tickSize) := by
  unfold OrderBook.setTickSize
  split_ifs
  · exact ⟨⟨h.rest, h.stop, h.live, h.nodup, h.nodupStop, h.full, h.fullStop, h.index, h.flight, h.flightNodup,
      h.flightSound, h.waiting, h.alloc⟩, h.flightType⟩
  · exact h

theorem Effect.sound {env : Env} {ev : Event} {sv sv' : Server} (h : Effect env ev sv sv') (hs : Sound sv) :
    Sound sv' := by
  cases h with
  | quiet h => exact h.sound hs
  | connected => exact ⟨hs.books, hs.symbol, hs.posted⟩
  | closed _ => exact ⟨hs.books, hs.symbol, hs.posted⟩
  | created h₁ _ h₂ => exact h₂.sound ((h₁.sound hs).setBook (empty_inv ..) rfl)
  | ticked hb =>
    refine hs.setBook (setTickSize_inv (hs.books hb) _) ?_
    rw [← hs.symbol hb]
    unfold OrderBook.setTickSize
    split_ifs <;> rfl
  | submitted _ _ h₁ ha =>
    obtain ⟨disk, n, heq, -⟩ := saveSubmission_eq _ env _ _
    have hs₁ := h₁.sound hs
    rw [heq] at ha
    have hs' := ha.sound ⟨hs₁.books, hs₁.symbol, hs₁.posted⟩
    exact ⟨hs'.books, hs'.symbol, hs'.posted⟩
  | cancelled _ h₁ _ hc => exact hc.sound (h₁.sound hs)
  | reported _ h₁ _ _ _ =>
    have hs₁ := h₁.sound hs
    exact ⟨hs₁.books, hs₁.symbol, hs₁.posted⟩
  | generated hg =>
    unfold generate
    rw [hg]
    refine ⟨hs.books, hs.symbol, fun o ho => ?_⟩
    rcases List.mem_append.1 ho with ho | ho
    · exact hs.posted o ho
    · rw [List.mem_singleton.1 ho]; exact .inl rfl
  | dropped hp => exact ⟨hs.books, hs.symbol, fun o ho => hs.posted o (by rw [hp]; exact List.mem_cons_of_mem _ ho)⟩
  | posted hp ha =>
    exact ha.sound ⟨hs.books, hs.symbol, fun o ho => hs.posted o (by rw [hp]; exact List.mem_cons_of_mem _ ho)⟩
  | generatorCancelled h₁ hc => exact hc.sound (h₁.sound hs)
  | restarted hb hr hq => exact hq.sound (hr.rule hb.sound Added.sound)

theorem Effect.config {env : Env} {ev : Event} {sv sv' : Server} (h : Effect env ev sv sv') : sv'.config = sv.config := by
  cases h with
  | quiet h => exact h.config
  | created h₁ _ h₂ => exact h₂.config.trans h₁.config
  | submitted _ _ h₁ ha =>
    obtain ⟨disk, n, heq, -⟩ := saveSubmission_eq _ env _ _
    rw [heq] at ha
    exact ha.dispatched.config.trans h₁.config
  | cancelled _ h₁ _ hc => exact hc.dispatched.config.trans h₁.config
  | reported _ h₁ _ _ _ => exact h₁.config
  | generated hg => unfold generate; rw [hg]; rfl
  | posted _ ha => exact ha.dispatched.config
  | generatorCancelled h₁ hc => exact hc.dispatched.config.trans h₁.config
  | restarted hb hr hq =>
    exact hq.config.trans (hr.rule (K := fun x => x.config = sv.config) hb.config fun ha h => ha.dispatched.config.trans h)
  | connected | closed _ | ticked _ | dropped _ => rfl

theorem Sound.initial (config : Config) : Sound (initial config) :=
  ⟨fun hx => (by cases hx), fun hx => (by cases hx), fun _ ho => (by cases ho)⟩

/-- The store is open after a restart that opens it, and stays open. -/
theorem Effect.storeOpen {env : Env} {ev : Event} {sv sv' : Server} (h : Effect env ev sv sv')
    (hopens : ev = .restart → (env.opens.1 || env.opens.2) = true) (ho : ev ≠ .restart → sv.storeOpen = true) :
    sv'.storeOpen = true := by
  cases h with
  | quiet h hev => exact h.storeOpen.trans (ho hev)
  | created h₁ _ h₂ hev => exact h₂.storeOpen.trans (h₁.storeOpen.trans (ho hev))
  | submitted _ _ h₁ ha =>
    obtain ⟨disk, n, heq, -⟩ := saveSubmission_eq _ env _ _
    rw [heq] at ha
    exact ha.dispatched.storeOpen.trans (h₁.storeOpen.trans (ho nofun))
  | cancelled _ h₁ _ hc => exact hc.dispatched.storeOpen.trans (h₁.storeOpen.trans (ho nofun))
  | reported _ h₁ _ _ _ => exact h₁.storeOpen.trans (ho nofun)
  | generated hg => unfold generate; rw [hg]; exact ho nofun
  | posted _ ha => exact ha.dispatched.storeOpen.trans (ho nofun)
  | generatorCancelled h₁ hc => exact hc.dispatched.storeOpen.trans (h₁.storeOpen.trans (ho nofun))
  | restarted hb hr hq =>
    refine hq.storeOpen.trans ?_
    exact hr.rule (K := fun x => x.storeOpen = true) (hb.storeOpen.trans (hopens rfl)) fun ha h => ha.dispatched.storeOpen.trans h
  | connected | closed _ | ticked _ | dropped _ => exact ho nofun

/-- The rule for whole histories whose events meet a condition: what every effect keeps under it holds
after every such history; and every history returns. -/
theorem run_rule_along (config : Config) (env : Env) (evs : List (Env × Event)) {K : List (Env × Event) → Server → Prop}
    {C : Server → Env × Event → Prop} (hC : Machine.Along step C (initial config) ((env, .restart) :: evs))
    (h0 : K [] (initial config))
    (hstep : ∀ pre e ev sv sv', pre ++ [(e, ev)] <+: (env, .restart) :: evs →
      (pre ++ [(e, ev)]).foldlM step (initial config) = some sv' → Sound sv → K pre sv → C sv (e, ev) →
      Effect e ev sv sv' → Sound sv' → K (pre ++ [(e, ev)]) sv') :
    ∃ sv, run config env evs = some sv ∧ Sound sv ∧ K ((env, .restart) :: evs) sv := by
  refine Machine.foldlM_along (I := fun pre sv => Sound sv ∧ K pre sv) hC ?_ ?_ ⟨.initial config, h0⟩
  · rintro pre ⟨e, ev⟩ sv sv' hpre hrun ⟨hs, hK⟩ hc hev
    obtain ⟨sv'', h1, h2⟩ := step_effect hs e ev
    cases h1.symm.trans hev
    exact ⟨h2.sound hs, hstep pre e ev sv sv' hpre hrun hs hK hc h2 (h2.sound hs)⟩
  · rintro pre ⟨e, ev⟩ sv ⟨hs, -⟩
    obtain ⟨sv', h1, -⟩ := step_effect hs e ev
    exact ⟨sv', h1⟩

/-- The rule for all histories. -/
theorem run_rule (config : Config) (env : Env) (evs : List (Env × Event)) {K : List (Env × Event) → Server → Prop}
    (h0 : K [] (initial config))
    (hstep : ∀ pre e ev sv sv', pre ++ [(e, ev)] <+: (env, .restart) :: evs → Sound sv → K pre sv →
      Effect e ev sv sv' → Sound sv' → K (pre ++ [(e, ev)]) sv') :
    ∃ sv, run config env evs = some sv ∧ Sound sv ∧ K ((env, .restart) :: evs) sv :=
  run_rule_along config env evs (C := fun _ _ => True) Machine.along_true h0
    fun pre e ev sv sv' hpre _ hs hK _ he hs' => hstep pre e ev sv sv' hpre hs hK he hs'

end Server

end OrderbookGC
