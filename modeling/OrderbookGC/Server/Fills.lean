/-
What the status messages tell a session about its trades. The filled quantity of a live order with an
owner is what has been traded under its id, every message about the order reports at most that, and
the session is told of a trade in the call that makes it, as long as it is connected. The price in the
messages is the one the order was booked with: nothing in them says at what price it traded.
-/
import OrderbookGC.Server.Durable
import OrderbookGC.Server.Stream

namespace OrderbookGC

open Container OrderBook MatchState

/-- The price of the order the server creates for the submission. -/
def Submission.reportedPrice (x : Submission) : ℚ :=
  if x.message.orderType = .market || x.message.orderType = .stop then 0 else adjustPrice x.tickSize x.message.price

/-- The message is about the submission's order. -/
structure OrderStatusMessage.About (m : OrderStatusMessage) (x : Submission) : Prop where
  orderId : m.orderId = x.orderId
  symbol : m.symbol = x.message.symbol
  side : m.side = x.message.side
  price : m.price = x.reportedPrice

theorem Order.SameStatic.about {o o' : Order ℚ} {x : Submission} (h : o.SameStatic o') (ha : o.statusMessage.About x) :
    o'.statusMessage.About x :=
  ⟨h.id.trans ha.orderId, h.symbol.trans ha.symbol, h.side.trans ha.side, h.price.trans ha.price⟩

namespace Server

theorem submittedOrder_about (env : Env) (s : SessionPtr) (m : OrderSubmitMessage) (tickSize : ℚ) :
    (submittedOrder env m tickSize).statusMessage.About ⟨generateUuid env.uuid, s, m, tickSize⟩ :=
  ⟨rfl, rfl, rfl, rfl⟩

/-- An announced order whose owner has a session is reported there, once at least; the messages are about the objects as
the call left them. -/
theorem dispatch_told (env : Env) (heap : OrderPtr → Order ℚ) {p : OrderPtr} {c : String} {s : SessionPtr} (hc : c ≠ "") :
    ∀ (cbs : List (Callback ℚ)) (sv : Server), .order p ∈ cbs → sv.orderOwners.find? (heap p).id = some c →
      sv.sessions.find? c = some s → ∃ q, .order q ∈ cbs ∧ (heap q).id = (heap p).id ∧
        (s, (heap q).statusMessage) ∈ (dispatch env heap cbs sv).statuses
  | [], _, hp, _, _ => by cases hp
  | .trade t :: cbs, sv, hp, ho, hs => by
    have hd : Dispatched env heap [.trade t] sv (onTradeExecuted env sv t) := .trade t
    obtain ⟨q, hq, hid, hmem⟩ := dispatch_told env heap hc cbs (onTradeExecuted env sv t) (by simpa using hp)
      (by rw [hd.kept _ fun p hp => by simp at hp]; exact ho) (by rw [hd.sessions]; exact hs)
    exact ⟨q, List.mem_cons_of_mem _ hq, hid, hmem⟩
  | .order q :: cbs, sv, hp, ho, hs => by
    have hd : Dispatched env heap [.order q] sv (onOrderUpdated env sv (heap q)) := .order q
    have hrest := dispatch_dispatched env heap cbs (onOrderUpdated env sv (heap q))
    by_cases hid : (heap q).id = (heap p).id
    · -- the first callback about the order still finds its owner
      refine ⟨q, List.mem_cons_self, hid, ?_⟩
      have hst := onOrderUpdated_statuses env (by rw [hid]; exact ho) hc hs
      obtain ⟨l, hl, -⟩ := hrest.statuses
      show _ ∈ (dispatch env heap cbs (onOrderUpdated env sv (heap q))).statuses
      rw [hl, hst, List.append_assoc]
      exact List.mem_append_right _ List.mem_cons_self
    · have hp' : .order p ∈ cbs := (List.mem_cons.1 hp).resolve_left fun he => hid (by cases he; rfl)
      obtain ⟨r, hr, hrid, hmem⟩ := dispatch_told env heap hc cbs (onOrderUpdated env sv (heap q)) hp'
        (by rw [hd.kept _ fun r hr he => absurd (by rw [Callback.order.inj (List.mem_singleton.1 hr)] at he; exact he) hid]; exact ho)
        (by rw [hd.sessions]; exact hs)
      exact ⟨r, List.mem_cons_of_mem _ hr, hrid, hmem⟩

/-! ## The filled quantities -/

structure FilledInv (sv : Server) : Prop where
  /-- An order with an owner is filled by what has been traded under its id. -/
  live : ∀ x ∈ sv.submissions, (sv.orderOwners.find? x.orderId).isSome → ∀ {symbol b p}, sv.orderbooks.find? symbol = some b →
    b.getOrder x.orderId = some p → symbol = x.message.symbol ∧ (b.heap p).statusMessage.About x ∧
      (b.heap p).statusMessage.filledQuantity.toNat = traded x.orderId sv.trades
  status : ∀ e ∈ sv.statuses, ∀ x ∈ sv.submissions, x.orderId = e.2.orderId →
    e.2.About x ∧ e.2.filledQuantity.toNat ≤ traded x.orderId sv.trades

/-- An id that has not been drawn has not been traded. -/
theorem IdInv.traded_eq_zero {sv : Server} (h : IdInv sv) {id : String} (hid : id ∉ sv.uuids) : traded id sv.trades = 0 := by
  unfold traded
  rw [List.filter_eq_nil_iff.2, List.map_nil, List.sum_nil]
  intro t ht hn
  obtain ⟨h1, h2⟩ := h.trade t ht
  rcases (of_decide_eq_true hn : t.Names id) with he | he
  · exact hid (he ▸ h1)
  · exact hid (he ▸ h2)

/-- The filled quantity of an order from its remainder. -/
theorem filledQuantity_toNat {o : Order ℚ} {n : Nat} (hle : o.remainingQuantity ≤ o.quantity)
    (h : o.quantity.toNat = o.remainingQuantity.toNat + n) : o.statusMessage.filledQuantity.toNat = n := by
  show (o.quantity - o.remainingQuantity).toNat = n
  rw [UInt32.toNat_sub_of_le _ _ hle]
  omega

namespace FilledInv

variable {env : Env} {sv sv' : Server}

theorem initial (config : Config) : FilledInv (initial config) := ⟨nofun, nofun⟩

/-- A step that neither trades nor reports, records no owner and touches no order. -/
theorem step (h : FilledInv sv) (hs : sv'.submissions = sv.submissions) (hst : sv'.statuses = sv.statuses)
    (ht : sv'.trades = sv.trades) (ho : ∀ id, (sv'.orderOwners.find? id).isSome → (sv.orderOwners.find? id).isSome)
    (hb : ∀ {symbol b}, sv'.orderbooks.find? symbol = some b → ∀ {id p}, b.getOrder id = some p →
      ∃ b', sv.orderbooks.find? symbol = some b' ∧ b'.getOrder id = some p ∧ b'.heap p = b.heap p) : FilledInv sv' := by
  refine ⟨fun x hx hown => fun {symbol b p} hx' hp => ?_, fun e he x hx hid => ?_⟩
  · obtain ⟨y, hy, hyp, heq⟩ := hb hx' hp
    rw [← heq, ht]
    exact h.live x (hs ▸ hx) (ho _ hown) hy hyp
  · rw [ht]
    exact h.status e (hst ▸ he) x (hs ▸ hx) hid

theorem quiet (h : FilledInv sv) (hq : Quiet sv sv') : FilledInv sv' :=
  h.step hq.submissions hq.statuses hq.trades (fun _ ho => hq.orderOwners ▸ ho)
    fun hb => fun hp => ⟨_, hq.orderbooks ▸ hb, hp, rfl⟩

theorem setBook {symbol : String} {b : OrderBook ℚ} (h : FilledInv sv)
    (hb : ∀ {id p}, b.getOrder id = some p → ∃ b', sv.orderbooks.find? symbol = some b' ∧ b'.getOrder id = some p ∧
      b'.heap p = b.heap p) : FilledInv (sv.setBook symbol b) := by
  refine h.step rfl rfl rfl (fun _ ho => ho) fun {name c} hc => fun {id p} hp => ?_
  rw [setBook_find?] at hc
  split_ifs at hc with hn
  · cases hc
    exact hn ▸ hb hp
  · exact ⟨c, hc, hp, rfl⟩

/-- Without owners only the messages of the past count. -/
theorem unowned {ts : List (Trade ℚ)} (h : FilledInv sv) (ho : ∀ id, sv'.orderOwners.find? id = none)
    (hs : sv'.submissions = sv.submissions) (hst : sv'.statuses = sv.statuses) (ht : sv'.trades = sv.trades ++ ts) :
    FilledInv sv' := by
  refine ⟨fun x _ hown => (by rw [ho] at hown; cases hown), fun e he x hx hid => ?_⟩
  obtain ⟨h1, h2⟩ := h.status e (hst ▸ he) x (hs ▸ hx) hid
  refine ⟨h1, h2.trans ?_⟩
  rw [ht, traded_append]
  exact Nat.le_add_right ..

/-- An order of the book, with an owner, after a call. -/
theorem object {o : Order ℚ} {b : OrderBook ℚ} {out : AddOutcome ℚ} (h : FilledInv sv) (hS : StreamInv sv)
    (ha : Added env o b out sv sv') {x : Submission} (hx : x ∈ sv.submissions)
    (hown : (sv.orderOwners.find? x.orderId).isSome) {p : OrderPtr} (hp : b.Held p) (hid : (b.heap p).id = x.orderId) :
    (out.state.heap p).statusMessage.About x ∧
      (out.state.heap p).statusMessage.filledQuantity.toNat = traded x.orderId sv'.trades := by
  have hheap : (b.alloc o).2.heap p = b.heap p := alloc_heap_of_ne (Nat.ne_of_lt (ha.inv.alloc (.inl hp)))
  have hstatic := ha.call.static p
  have hsettle := ha.add.settles ha.inv ha.invAlloc (.inl hp)
  have hle := (ha.add.advance ha.invAlloc p).le
  rw [hheap] at hstatic hsettle hle
  obtain ⟨-, habout, hfilled⟩ := h.live x hx hown ha.book (ha.inv.index.2 ⟨hid, .inl hp⟩)
  have hbound := hS.bounded ha.book hp
  refine ⟨hstatic.about habout, filledQuantity_toNat ?_ ?_⟩
  · rw [hstatic.quantity]
    exact UInt32.le_trans hle hbound
  · have hfilled : ((b.heap p).quantity - (b.heap p).remainingQuantity).toNat = traded x.orderId sv.trades := hfilled
    rw [UInt32.toNat_sub_of_le _ _ hbound] at hfilled
    have hnat := UInt32.le_iff_toNat_le.1 hbound
    rw [hid] at hsettle
    rw [hstatic.quantity, ha.trades, traded_append]
    omega

/-- A call that adds an order without an owner. -/
theorem added {o : Order ℚ} {b : OrderBook ℚ} {out : AddOutcome ℚ} (h : FilledInv sv) (hS : StreamInv sv) (hI : IdInv sv)
    (ha : Added env o b out sv sv') (hown : sv.orderOwners.find? o.id = none) : FilledInv sv' := by
  have hd := ha.dispatched
  have hsub : sv'.submissions = sv.submissions := hd.submissions
  have howner : ∀ {id}, (sv'.orderOwners.find? id).isSome → (sv.orderOwners.find? id).isSome := fun hx => by
    obtain ⟨c, hc⟩ := Option.isSome_iff_exists.1 hx
    exact Option.isSome_iff_exists.2 ⟨c, hd.owner_of hc⟩
  -- an order of the call with an owner was in the book
  have hheld : ∀ {p}, b.Held p ∨ p = b.nextPtr → (sv.orderOwners.find? (out.state.heap p).id).isSome →
      b.Held p ∧ (b.heap p).id = (out.state.heap p).id := fun {p} hp hx => by
    have hid := (ha.call.static p).id
    by_cases hn : p = b.nextPtr
    · rw [hid, hn, alloc_heap_self, hown] at hx; cases hx
    · rw [alloc_heap_of_ne hn] at hid
      exact ⟨hp.resolve_right hn, hid.symm⟩
  refine ⟨fun x hx hox => fun {symbol y p} hy hp => ?_, fun e he x hx hid => ?_⟩
  · rw [hsub] at hx
    rw [ha.find?] at hy
    split_ifs at hy with hn
    · cases hy
      obtain ⟨hpid, hh | hF⟩ := ha.call.inv.index.1 hp
      · obtain ⟨hh, hid⟩ := hheld (ha.call.held p hh) (by rw [hpid]; exact howner hox)
        rw [hpid] at hid
        obtain ⟨hsym, -⟩ := h.live x hx (howner hox) ha.book (ha.inv.index.2 ⟨hid, .inl hh⟩)
        exact ⟨hn.trans hsym, h.object hS ha hx (howner hox) hh hid⟩
      · cases hF
    · -- in another book the call trades nothing under the id
      obtain ⟨hsym, habout, hfilled⟩ := h.live x hx (howner hox) hy hp
      refine ⟨hsym, habout, ?_⟩
      have hzero : traded x.orderId (tradesIn out.callbacks) = 0 := ha.add.traded_eq_zero ha.invAlloc fun q hq hqid => by
        have hid := (ha.call.static q).id
        obtain ⟨hh, hqid'⟩ := hheld (ha.call.announced q hq) (by rw [hid, hqid]; exact howner hox)
        exact hn (hI.oneBook hy hp ha.book (ha.inv.index.2 ⟨hqid'.trans (hid.trans hqid), .inl hh⟩))
      rw [hfilled, ha.trades, traded_append, hzero, Nat.add_zero]
  · rw [hsub] at hx
    obtain ⟨l, hl, hmem⟩ := hd.statuses
    rw [hl] at he
    rcases List.mem_append.1 he with he | he
    · obtain ⟨h1, h2⟩ := h.status e he x hx hid
      refine ⟨h1, h2.trans ?_⟩
      rw [ha.trades, traded_append]
      exact Nat.le_add_right ..
    · obtain ⟨p, c, hp, hm, hc, -⟩ := hmem e he
      have hc : sv.orderOwners.find? (out.state.heap p).id = some c := hc
      obtain ⟨hh, hpid⟩ := hheld (ha.call.announced p hp) (by rw [hc]; rfl)
      have hxid : (out.state.heap p).id = x.orderId := by rw [hid, hm]; rfl
      obtain ⟨h1, h2⟩ := h.object hS ha hx (by rw [← hxid, hc]; rfl) hh (hpid.trans hxid)
      rw [hm]
      exact ⟨h1, h2.le⟩

theorem cancelled {symbol id : String} {b b' : OrderBook ℚ} {p : OrderPtr} (h : FilledInv sv)
    (hc : Cancelled env symbol id b p b' sv sv') : FilledInv sv' := by
  have hd := hc.dispatched
  have hsub : sv'.submissions = sv.submissions := hd.submissions
  have htrades : sv'.trades = sv.trades := by
    refine hd.trades.trans ?_
    simp only [List.filterMap_cons, List.filterMap_nil, List.append_nil]
    rfl
  -- a cancelled order is filled as it was
  have hmsg : ∀ {q x}, (b.heap q).statusMessage.About x → (b'.heap q).statusMessage.About x ∧
      (b'.heap q).statusMessage.filledQuantity = (b.heap q).statusMessage.filledQuantity := fun {q x} hq => by
    refine ⟨(hc.cancel.static q).about hq, ?_⟩
    show (b'.heap q).quantity - (b'.heap q).remainingQuantity = (b.heap q).quantity - (b.heap q).remainingQuantity
    rw [hc.cancel.heap]
    by_cases hqp : q = p
    · rw [hqp, Function.update_self]
    · rw [Function.update_of_ne hqp]
  refine ⟨fun x hx hox => fun {name y q} hy hq => ?_, fun e he x hx hid => ?_⟩
  · rw [hsub] at hx
    have hox : (sv.orderOwners.find? x.orderId).isSome := by
      obtain ⟨c, hc⟩ := Option.isSome_iff_exists.1 hox
      exact Option.isSome_iff_exists.2 ⟨c, hd.owner_of hc⟩
    obtain ⟨⟨z, hz, hzq⟩, -⟩ := hc.live_iff.1 ⟨y, hy, hq⟩
    obtain ⟨hsym, habout, hfilled⟩ := h.live x hx hox hz hzq
    rw [hc.find?] at hy
    rw [htrades]
    split_ifs at hy with hn
    · cases hy
      rw [hn, hc.book] at hz
      cases hz
      obtain ⟨h1, h2⟩ := hmsg habout
      exact ⟨hsym, h1, by rw [h2, hfilled]⟩
    · cases hz.symm.trans hy
      exact ⟨hsym, habout, hfilled⟩
  · rw [hsub] at hx
    rw [htrades]
    obtain ⟨l, hl, hmem⟩ := hd.statuses
    rw [hl] at he
    rcases List.mem_append.1 he with he | he
    · exact h.status e he x hx hid
    · obtain ⟨q, c, hq, hm, hown, -⟩ := hmem e he
      have hqp : q = p := by simpa using hq
      rw [hm, hqp] at hid ⊢
      have hpid : (b'.heap p).id = (b.heap p).id := (hc.cancel.static p).id
      have hid : x.orderId = (b'.heap p).id := hid
      have hown : sv.orderOwners.find? (b'.heap q).id = some c := hown
      rw [hqp, ← hid] at hown
      obtain ⟨-, habout, hfilled⟩ := h.live x hx (by rw [hown]; rfl) hc.book
        (hc.inv.index.2 ⟨(hid.trans hpid).symm, .inl hc.cancel.held⟩)
      obtain ⟨h1, h2⟩ := hmsg habout
      exact ⟨h1, by rw [h2, hfilled]⟩

/-- A logged submission has no owner, no trade and no message yet. -/
theorem saved (h : FilledInv sv) (hI : IdInv sv) (hO : OwnInv none sv) {x : Submission} (o : Order ℚ)
    (hnew : x.orderId ∉ sv.uuids) : FilledInv (sv.saveSubmission env x o) := by
  obtain ⟨disk, n, heq, -⟩ := saveSubmission_eq sv env x o
  rw [heq]
  refine ⟨fun y hy hown => ?_, fun e he y hy hid => ?_⟩
  · rcases List.mem_append.1 hy with hy | hy
    · exact h.live y hy hown
    · rw [List.mem_singleton.1 hy] at hown
      obtain ⟨c, hc⟩ := Option.isSome_iff_exists.1 hown
      obtain ⟨z, hz, hid, -⟩ := hO.owner hc
      exact absurd (hid ▸ (hI.submission z hz).1) hnew
  · rcases List.mem_append.1 hy with hy | hy
    · exact h.status e he y hy hid
    · rw [List.mem_singleton.1 hy] at hid
      obtain ⟨z, hz, hzid, -⟩ := hO.status e he
      exact absurd ((hzid.trans hid.symm) ▸ (hI.submission z hz).1) hnew

/-- An order is acknowledged, and has an owner from then on. -/
theorem acknowledge {x : Submission} {o : Order ℚ} (h : FilledInv sv) (hI : IdInv sv) (hx : x ∈ sv.submissions)
    (ho : o.statusMessage.About x) (hq : o.statusMessage.filledQuantity.toNat = traded x.orderId sv.trades)
    (hlive : ∀ {symbol b p}, sv.orderbooks.find? symbol = some b → b.getOrder o.id = some p →
      symbol = x.message.symbol ∧ b.heap p = o) : FilledInv (sv.acknowledge x.session o) := by
  have hid : o.id = x.orderId := ho.orderId
  have hself : ∀ y ∈ sv.submissions, y.orderId = o.id → y = x := fun y hy he =>
    hI.submissionInj y hy x hx (he.trans hid)
  refine ⟨fun y hy hown => fun {symbol b p} hb hp => ?_, fun e he y hy hyid => ?_⟩
  · by_cases he : y.orderId = o.id
    · rw [hself y hy he] at hp ⊢
      obtain ⟨h1, h2⟩ := hlive hb (hid ▸ hp)
      rw [h2]
      exact ⟨h1, ho, hq⟩
    · have hown : ((sv.orderOwners.insert o.id (sv.clientId x.session)).find? y.orderId).isSome := hown
      rw [SortedMap.find?_insert, if_neg he] at hown
      exact h.live y hy hown hb hp
  · unfold Server.acknowledge at he
    dsimp only at he
    rw [statuses_sendMessage] at he
    rcases List.mem_append.1 he with he | he
    · exact h.status e he y hy hyid
    · rw [List.mem_singleton.1 he] at hyid ⊢
      rw [hself y hy hyid]
      exact ⟨ho, hq.le⟩

/-- A report is about a live order of an owner. -/
theorem reported {s : SessionPtr} {symbol id : String} {b : OrderBook ℚ} {p : OrderPtr} (h : FilledInv sv)
    (hown : (sv.orderOwners.find? id).isSome) (hb : sv.orderbooks.find? symbol = some b) (hid : (b.heap p).id = id)
    (hp : b.getOrder id = some p) : FilledInv (sv.sendMessage s (.orderStatus (b.heap p).statusMessage)) := by
  refine ⟨h.live, fun e he x hx hxid => ?_⟩
  rw [statuses_sendMessage] at he
  rcases List.mem_append.1 he with he | he
  · exact h.status e he x hx hxid
  · rw [List.mem_singleton.1 he] at hxid ⊢
    have hxid : x.orderId = id := hxid.trans hid
    obtain ⟨-, h1, h2⟩ := h.live x hx (by rw [hxid]; exact hown) hb (by rw [hxid]; exact hp)
    exact ⟨h1, h2.le⟩

theorem booted (h : FilledInv sv) (hb : Booted env sv sv') : FilledInv sv' :=
  have ht : sv'.trades = sv.trades ++ [] := by rw [hb.trades, List.append_nil]
  h.unowned (fun id => by rw [hb.orderOwners]; rfl) hb.submissions hb.statuses ht

/-- While the restore loop runs, nobody is told anything. -/
theorem restored {rows : List OrderRow} (hr : Restored env rows sv sv') (hR : Restoring rows sv) (h : FilledInv sv) :
    FilledInv sv' ∧ sv'.statuses = sv.statuses := by
  induction hr with
  | nil => exact ⟨h, rfl⟩
  | skip _ _ ih => exact ih hR.skip h
  | @add r rows sv sv₁ sv' b out ha _ ih =>
    have hst : sv₁.statuses = sv.statuses := by
      obtain ⟨l, hl, hmem⟩ := ha.dispatched.statuses
      cases l with
      | nil => rw [hl, List.append_nil]; rfl
      | cons e l =>
        obtain ⟨p, c, -, -, hc, -⟩ := hmem e List.mem_cons_self
        cases (hR.noOwner _).symm.trans hc
    obtain ⟨h1, h2⟩ := ih (hR.add ha) (h.unowned (hR.add ha).noOwner ha.dispatched.submissions hst ha.trades)
    exact ⟨h1, h2.trans hst⟩

end FilledInv

/-! ## A submission -/

theorem StreamInv.saved {env : Env} {sv : Server} (h : StreamInv sv) (x : Submission) (o : Order ℚ) :
    StreamInv (sv.saveSubmission env x o) := by
  obtain ⟨disk, n, heq, -⟩ := saveSubmission_eq sv env x o
  rw [heq]
  exact h.of_eq rfl rfl rfl fun _ ho => .inl ho

section Submitted

variable {env : Env} {sv sv' : Server} {s : SessionPtr} {m : OrderSubmitMessage} {b : OrderBook ℚ} {out : AddOutcome ℚ}

/-- The order of a submission after the call that adds it: what it is filled by is what it has traded. -/
theorem IdInv.submitted_filled (hI : IdInv sv)
    (ha : Added env (submittedOrder env m b.tickSize) b out
      (sv.saveSubmission env ⟨generateUuid env.uuid, s, m, b.tickSize⟩ (submittedOrder env m b.tickSize)) sv')
    (hnew : generateUuid env.uuid ∉ sv.uuids) :
    (out.state.heap b.nextPtr).statusMessage.About ⟨generateUuid env.uuid, s, m, b.tickSize⟩ ∧
      (out.state.heap b.nextPtr).statusMessage.filledQuantity.toNat = traded (generateUuid env.uuid) sv'.trades := by
  have hstatic := ha.call.static b.nextPtr
  have hsettle := ha.add.settles ha.inv ha.invAlloc (p := b.nextPtr) (.inr rfl)
  have hle := (ha.add.advance ha.invAlloc b.nextPtr).le
  rw [alloc_heap_self] at hstatic hsettle hle
  obtain ⟨disk, n, heq, -⟩ := saveSubmission_eq sv env ⟨generateUuid env.uuid, s, m, b.tickSize⟩
    (submittedOrder env m b.tickSize)
  have htrades := ha.trades
  rw [heq] at htrades
  refine ⟨hstatic.about (submittedOrder_about ..), filledQuantity_toNat ?_ ?_⟩
  · rw [hstatic.quantity]
    exact hle
  · rw [hstatic.quantity, htrades, traded_append, hI.traded_eq_zero hnew, Nat.zero_add]
    exact hsettle

/-- Nobody owns the order of a submission while the book handles it. -/
theorem OwnInv.submitted_unowned (hO : OwnInv none sv) (hI : IdInv sv) (hnew : generateUuid env.uuid ∉ sv.uuids)
    (x : Submission) (o : Order ℚ) : (sv.saveSubmission env x o).orderOwners.find? (generateUuid env.uuid) = none := by
  obtain ⟨disk, n, heq, -⟩ := saveSubmission_eq sv env x o
  rw [heq]
  cases hown : sv.orderOwners.find? (generateUuid env.uuid) with
  | none => rfl
  | some c =>
    obtain ⟨y, hy, hid, -⟩ := hO.owner hown
    exact absurd (hid ▸ (hI.submission y hy).1) hnew

/-- Nobody owns an order of the generator. -/
theorem OwnInv.posted_unowned (hO : OwnInv none sv) (hI : IdInv sv) {o : Order ℚ} (ho : o ∈ sv.posted) :
    sv.orderOwners.find? o.id = none := by
  cases hown : sv.orderOwners.find? o.id with
  | none => rfl
  | some c =>
    obtain ⟨x, hx, hid, -⟩ := hO.owner hown
    exact absurd hid (hI.postedSubmission o ho x hx)

/-- Where the order of a submission is live after the call. -/
theorem Added.submitted_live (hI : IdInv sv)
    (ha : Added env (submittedOrder env m b.tickSize) b out
      (sv.saveSubmission env ⟨generateUuid env.uuid, s, m, b.tickSize⟩ (submittedOrder env m b.tickSize)) sv')
    (hnew : generateUuid env.uuid ∉ sv.uuids) {symbol : String} {y : OrderBook ℚ} {p : OrderPtr}
    (hy : sv'.orderbooks.find? symbol = some y) (hp : y.getOrder (generateUuid env.uuid) = some p) :
    symbol = m.symbol ∧ y.heap p = out.state.heap b.nextPtr := by
  rcases ha.live_cases hy hp with ⟨z, hz, hzp⟩ | ⟨-, hn, rfl, -⟩
  · exact absurd (hI.live (saveSubmission_live.1 ⟨symbol, z, p, hz, hzp⟩)) hnew
  · rw [ha.find?, if_pos hn] at hy
    cases hy
    exact ⟨hn, rfl⟩

/-- A submission, up to the call that adds its order. -/
theorem FilledInv.submitted (h : FilledInv sv) (hI : IdInv sv) (hO : OwnInv none sv) (hS : StreamInv sv) (hs : s < sv.nextSession)
    (ha : Added env (submittedOrder env m b.tickSize) b out
      (sv.saveSubmission env ⟨generateUuid env.uuid, s, m, b.tickSize⟩ (submittedOrder env m b.tickSize)) sv')
    (hnew : generateUuid env.uuid ∉ sv.uuids) : FilledInv sv' := by
  exact (h.saved hI hO _ hnew).added (hS.saved _ _) (hI.saved hs m b.tickSize hnew) ha (hO.submitted_unowned hI hnew _ _)

end Submitted

theorem Effect.filledInv {env : Env} {ev : Event} {sv sv' : Server} (he : Effect env ev sv sv') (hs : Sound sv)
    (hI : IdInv sv) (hO : OwnInv none sv) (hS : StreamInv sv) (h : FilledInv sv) (hnd : sv'.uuids.Nodup) : FilledInv sv' := by
  cases he with
  | quiet hq => exact h.quiet hq
  | connected | dropped _ => exact h.step rfl rfl rfl (fun _ ho => ho) fun hb => fun hp => ⟨_, hb, hp, rfl⟩
  | closed _ =>
    refine h.step rfl rfl rfl (fun id hx => ?_) fun hb => fun hp => ⟨_, hb, hp, rfl⟩
    unfold removeSession at hx
    dsimp only at hx
    rw [SortedMap.find?_filterMapVals] at hx
    obtain ⟨c, hc⟩ := Option.isSome_iff_exists.1 hx
    obtain ⟨c', hc', -⟩ := Option.bind_eq_some_iff.1 hc
    exact Option.isSome_iff_exists.2 ⟨c', hc'⟩
  | created h₁ _ h₂ => exact ((h.quiet h₁).setBook fun hp => by cases hp).quiet h₂
  | ticked hb =>
    exact h.setBook fun {id p} hp => ⟨_, hb, by rwa [setTickSize_getOrder] at hp, by rw [setTickSize_heap]⟩
  | @submitted _ sv₁ sv₂ s m b out hsess _ h₁ ha =>
    have hI₁ := hI.quiet h₁
    have hs₁ : s < sv₁.nextSession := by rw [h₁.nextSession]; exact hasSession_lt hsess
    have hnew := submitted_new ha hnd
    obtain ⟨habout, hfilled⟩ := hI₁.submitted_filled ha hnew
    refine ((h.quiet h₁).submitted hI₁ (hO.quiet h₁) (hS.quiet h₁) hs₁ ha hnew).acknowledge
      (x := ⟨generateUuid env.uuid, s, m, b.tickSize⟩) (hI₁.submitted hs₁ ha hnd) ?_ habout hfilled fun {symbol y p} hy hp => ?_
    · rw [ha.dispatched.submissions]
      exact (mem_saveSubmission ..).2
    · have hid : (out.state.heap b.nextPtr).id = generateUuid env.uuid := habout.orderId
      exact ha.submitted_live hI₁ hnew hy (hid ▸ hp)
  | cancelled _ h₁ _ hc => exact (h.quiet h₁).cancelled hc
  | reported _ h₁ ho hb hp =>
    refine (h.quiet h₁).reported ?_ (h₁.orderbooks ▸ hb) ((hs.books hb).index.1 hp).1 hp
    rw [h₁.orderOwners, of_decide_eq_true ho]
    rfl
  | generated hg =>
    unfold generate
    rw [hg]
    exact h.step rfl rfl rfl (fun _ ho => ho) fun hb => fun hp => ⟨_, hb, hp, rfl⟩
  | @posted _ _ o rest b out hp ha =>
    have hmem : o ∈ sv.posted := by rw [hp]; exact List.mem_cons_self ..
    have hpop : FilledInv { sv with posted := rest } :=
      h.step rfl rfl rfl (fun _ ho => ho) fun hb => fun hp => ⟨_, hb, hp, rfl⟩
    have hS₁ : StreamInv { sv with posted := rest } :=
      hS.of_eq rfl rfl rfl fun o ho => .inl (by rw [hp]; exact List.mem_cons_of_mem _ ho)
    exact hpop.added hS₁ (hI.popPosted hp) ha (hO.posted_unowned hI hmem)
  | generatorCancelled h₁ hc => exact (h.quiet h₁).cancelled hc
  | restarted hb hr hq => exact (FilledInv.restored hr (hI.booted hb) (h.booted hb)).1.quiet hq

/-! ## What a session is told -/

/-- The session has been told of all that its orders have traded, and they have traded at the given prices. -/
structure Told (price : Submission → ℚ) (s : SessionPtr) (sv : Server) : Prop where
  told : ∀ x ∈ sv.submissions, x.session = s → traded x.orderId sv.trades = 0 ∨
    ∃ e ∈ sv.statuses, e.1 = s ∧ e.2.orderId = x.orderId ∧ e.2.filledQuantity.toNat = traded x.orderId sv.trades
  trade : ∀ t ∈ sv.trades, ∀ x ∈ sv.submissions, x.session = s → t.Names x.orderId → t.symbol = x.message.symbol ∧
    t.price = price x ∧ (t.buyOrderId = x.orderId → x.message.side = .buy) ∧ (t.sellOrderId = x.orderId → x.message.side = .sell)

/-- New trades of orders of the session, made while it is connected and at the given prices. -/
def Fair (price : Submission → ℚ) (s : SessionPtr) (ts : List (Trade ℚ)) (sv : Server) : Prop :=
  ∀ t ∈ ts, ∀ x ∈ sv.submissions, x.session = s → t.Names x.orderId → sv.Present s ∧ t.price = price x

/-- An order named by a trade of a call, other than the incoming one, was in the book with its owner, if that has a
session. -/
theorem Added.owned {env : Env} {o : Order ℚ} {b : OrderBook ℚ} {out : AddOutcome ℚ} {sv sv' : Server}
    (ha : Added env o b out sv sv') (hO : OwnInv (some o.id) sv) {x : Submission} (hx : x ∈ sv.submissions)
    (hpres : sv.Present x.session) (hne : x.orderId ≠ o.id) {d : OrderSide} {price : ℚ} {p : OrderPtr}
    (hp : Party b.nextPtr (b.alloc o).2 d x.orderId price p) :
    b.Held p ∧ (b.heap p).id = x.orderId ∧ (b.heap p).side = d ∧
      sv.orderOwners.find? x.orderId = some (sv.clientId x.session) := by
  have hn : p ≠ b.nextPtr := fun he => hne (by rw [← hp.id, he, alloc_heap_self])
  have hid := hp.id
  have hside := hp.side
  rw [alloc_heap_of_ne hn] at hid hside
  have hh : b.Held p := hp.known.resolve_right hn
  exact ⟨hh, hid, hside, hO.complete x hx (fun he => hne (Option.some.inj he).symm) hpres
    (hid ▸ live_of_held ha.book ha.inv hh)⟩

namespace Told

variable {price : Submission → ℚ} {env : Env} {s : SessionPtr} {sv sv' : Server}

theorem initial (config : Config) : Told price s (initial config) := ⟨nofun, nofun⟩

/-- A step without trades and submissions. -/
theorem step (h : Told price s sv) (hs : sv'.submissions = sv.submissions) (ht : sv'.trades = sv.trades)
    (hst : sv.statuses <+: sv'.statuses) : Told price s sv' := by
  refine ⟨fun x hx hsess => ?_, ?_⟩
  · rw [ht]
    refine (h.told x (hs ▸ hx) hsess).imp_right fun ⟨e, he, h1⟩ => ⟨e, hst.subset he, h1⟩
  · rw [hs, ht]
    exact h.trade

theorem saved (h : Told price s sv) (hI : IdInv sv) {x : Submission} (o : Order ℚ) (hnew : x.orderId ∉ sv.uuids) :
    Told price s (sv.saveSubmission env x o) := by
  obtain ⟨disk, n, heq, -⟩ := saveSubmission_eq sv env x o
  rw [heq]
  refine ⟨fun y hy hsess => ?_, fun t ht y hy hsess hn => ?_⟩
  · rcases List.mem_append.1 hy with hy | hy
    · exact h.told y hy hsess
    · rw [List.mem_singleton.1 hy]
      exact .inl (hI.traded_eq_zero hnew)
  · rcases List.mem_append.1 hy with hy | hy
    · exact h.trade t ht y hy hsess hn
    · rw [List.mem_singleton.1 hy] at hn
      obtain ⟨h1, h2⟩ := hI.trade t ht
      rcases hn with hn | hn
      · exact absurd (hn ▸ h1) hnew
      · exact absurd (hn ▸ h2) hnew

section Added

variable {o : Order ℚ} {b : OrderBook ℚ} {out : AddOutcome ℚ}

/-- A trade of a call names an order of the session on its side, in the book of its symbol. -/
theorem added_trade (hs : Sound sv) (hF : FilledInv sv) (hO : OwnInv (some o.id) sv) (ha : Added env o b out sv sv')
    (hfair : Fair price s (tradesIn out.callbacks) sv) {t : Trade ℚ} (ht : t ∈ tradesIn out.callbacks) {x : Submission}
    (hx : x ∈ sv.submissions) (hsess : x.session = s) (hne : x.orderId ≠ o.id) (hn : t.Names x.orderId) :
    t.symbol = x.message.symbol ∧ t.price = price x ∧ (t.buyOrderId = x.orderId → x.message.side = .buy) ∧
      (t.sellOrderId = x.orderId → x.message.side = .sell) := by
  obtain ⟨hpres, hprice⟩ := hfair t ht x hx hsess hn
  obtain ⟨hsym, ⟨p, hp⟩, ⟨q, hq⟩⟩ := ha.call.trades t (mem_tradesIn.1 ht)
  have hsym : t.symbol = b.symbol := hsym
  have hside : ∀ {d : OrderSide} {id : String} {r : OrderPtr}, Party b.nextPtr (b.alloc o).2 d id t.price r → id = x.orderId →
      o.symbol = x.message.symbol ∧ x.message.side = d := fun {d id r} hr he => by
    subst he
    obtain ⟨hh, hid, hd, hown⟩ := ha.owned hO hx (hsess ▸ hpres) hne hr
    obtain ⟨h1, h2, -⟩ := hF.live x hx (by rw [hown]; rfl) ha.book (ha.inv.index.2 ⟨hid, .inl hh⟩)
    exact ⟨h1, by rw [← h2.side, ← hd]; rfl⟩
  refine ⟨?_, hprice, fun he => (hside hp he).2, fun he => (hside hq he).2⟩
  rw [hsym, hs.symbol ha.book]
  exact hn.elim (fun he => (hside hp he).1) fun he => (hside hq he).1

/-- After a call the session has been told of it, the incoming order apart. -/
theorem added_told (h : Told price s sv) (hF : FilledInv sv) (hS : StreamInv sv) (hI : IdInv sv) (hO : OwnInv (some o.id) sv)
    (ha : Added env o b out sv sv') (hfair : Fair price s (tradesIn out.callbacks) sv) {x : Submission}
    (hx : x ∈ sv.submissions) (hsess : x.session = s) (hne : x.orderId ≠ o.id) : traded x.orderId sv'.trades = 0 ∨
      ∃ e ∈ sv'.statuses, e.1 = s ∧ e.2.orderId = x.orderId ∧ e.2.filledQuantity.toNat = traded x.orderId sv'.trades := by
  have hold : sv.statuses <+: sv'.statuses := by
    obtain ⟨l, hl, -⟩ := ha.dispatched.statuses
    exact ⟨l, hl.symm⟩
  by_cases hzero : traded x.orderId (tradesIn out.callbacks) = 0
  · rw [ha.trades, traded_append, hzero, Nat.add_zero]
    exact (h.told x hx hsess).imp_right fun ⟨e, he, h1⟩ => ⟨e, hold.subset he, h1⟩
  · -- a trade names the order, so the session is there and the order has its owner
    right
    obtain ⟨p, hann, hpid⟩ : ∃ p, .order p ∈ out.callbacks ∧ ((b.alloc o).2.heap p).id = x.orderId := by
      by_contra hno
      exact hzero (ha.add.traded_eq_zero ha.invAlloc fun p hp hid => hno ⟨p, hp, hid⟩)
    obtain ⟨t, ht, hn⟩ : ∃ t ∈ tradesIn out.callbacks, t.Names x.orderId := by
      by_contra hno
      refine hzero ?_
      unfold traded
      rw [List.filter_eq_nil_iff.2 fun t ht hn => hno ⟨t, ht, of_decide_eq_true hn⟩, List.map_nil, List.sum_nil]
    obtain ⟨hpres, -⟩ := hfair t ht x hx hsess hn
    have hheld : ∀ {q}, .order q ∈ out.callbacks → (out.state.heap q).id = x.orderId → b.Held q ∧ (b.heap q).id = x.orderId := by
      intro q hq hqid
      rw [(ha.call.static q).id] at hqid
      have hnx : q ≠ b.nextPtr := fun he => hne (by rw [← hqid, he, alloc_heap_self])
      rw [alloc_heap_of_ne hnx] at hqid
      exact ⟨(ha.call.announced q hq).resolve_right hnx, hqid⟩
    have hpid' : (out.state.heap p).id = x.orderId := (ha.call.static p).id.trans hpid
    obtain ⟨hh, hbid⟩ := hheld hann hpid'
    have hown := hO.complete x hx (fun he => hne (Option.some.inj he).symm) (hsess ▸ hpres)
      (hbid ▸ live_of_held ha.book ha.inv hh)
    have hclient : sv.clientId x.session ≠ "" := by
      obtain ⟨d, hd⟩ := hI.drawn _ (hI.client _ (hI.submission x hx).2)
      rw [hd]
      exact generateUuid_ne_empty d
    obtain ⟨q, hq, hqid, hmem⟩ := dispatch_told env out.state.heap (s := s) hclient out.callbacks
      (sv.setBook o.symbol out.state.toOrderBook) hann (by rw [hpid']; exact hown) (by rw [hsess]; exact hpres)
    rw [← ha.returned] at hmem
    have hqid := hqid.trans hpid'
    obtain ⟨hqh, hqb⟩ := hheld hq hqid
    exact ⟨_, hmem, rfl, hqid, (hF.object hS ha hx (by rw [hown]; rfl) hqh hqb).2⟩

end Added

end Told

/-- What a step trades for the session, it trades while the session is connected and at the given prices. -/
def FairStep (price : Submission → ℚ) (s : SessionPtr) (sv sv' : Server) : Prop :=
  Fair price s (sv'.trades.drop sv.trades.length) sv'

theorem FairStep.fair {price : Submission → ℚ} {s : SessionPtr} {sv₀ sv sv' : Server} {ts : List (Trade ℚ)}
    (h : FairStep price s sv₀ sv') (ht : sv'.trades = sv₀.trades ++ ts) (hsub : sv'.submissions = sv.submissions)
    (hp : sv'.Present s → sv.Present s) : Fair price s ts sv := by
  intro t htm x hx hsess hn
  unfold FairStep at h
  rw [ht, List.drop_left] at h
  obtain ⟨h1, h2⟩ := h t htm x (hsub ▸ hx) hsess hn
  exact ⟨hp h1, h2⟩

/-- A step after which the session is gone: nothing was traded for it. -/
theorem Told.unfair {price : Submission → ℚ} {s : SessionPtr} {sv sv' : Server} {ts : List (Trade ℚ)} (h : Told price s sv)
    (hfair : FairStep price s sv sv') (ht : sv'.trades = sv.trades ++ ts) (hs : sv'.submissions = sv.submissions)
    (hst : sv'.statuses = sv.statuses) (hp : ¬ sv'.Present s) : Told price s sv' := by
  have hfair : Fair price s ts sv' := hfair.fair ht rfl id
  have hno : ∀ t ∈ ts, ∀ x ∈ sv'.submissions, x.session = s → ¬ t.Names x.orderId := fun t htm x hx hsess hn =>
    hp (hfair t htm x hx hsess hn).1
  refine ⟨fun x hx hsess => ?_, fun t htm x hx hsess hn => ?_⟩
  · have hzero : traded x.orderId ts = 0 := by
      unfold traded
      rw [List.filter_eq_nil_iff.2 fun t htm hn => hno t htm x hx hsess (of_decide_eq_true hn), List.map_nil, List.sum_nil]
    rw [ht, traded_append, hzero, Nat.add_zero, hst]
    exact h.told x (hs ▸ hx) hsess
  · rw [ht] at htm
    rcases List.mem_append.1 htm with htm | htm
    · exact h.trade t htm x (hs ▸ hx) hsess hn
    · exact absurd hn (hno t htm x hx hsess)

/-- What the restore loop changes for the specification: trades are added. -/
theorem Restored.trades {env : Env} {rows : List OrderRow} {sv sv' : Server} (h : Restored env rows sv sv') :
    ∃ ts, sv'.trades = sv.trades ++ ts := by
  refine h.rule (K := fun x => ∃ ts, x.trades = sv.trades ++ ts) ⟨[], (List.append_nil _).symm⟩ ?_
  rintro o b out sv₁ sv₂ ha ⟨ts, hts⟩
  exact ⟨ts ++ tradesIn out.callbacks, by rw [ha.trades, hts, List.append_assoc]⟩

theorem Effect.told {price : Submission → ℚ} {s : SessionPtr} {env : Env} {ev : Event} {sv sv' : Server}
    (he : Effect env ev sv sv') (hs : Sound sv) (hI : IdInv sv) (hO : OwnInv none sv) (hS : StreamInv sv) (hF : FilledInv sv)
    (h : Told price s sv) (hnd : sv'.uuids.Nodup) (hfair : FairStep price s sv sv') : Told price s sv' := by
  cases he with
  | quiet hq => exact h.step hq.submissions hq.trades (hq.statuses ▸ List.prefix_refl _)
  | connected | closed _ | ticked _ | dropped _ => exact h.step rfl rfl (List.prefix_refl _)
  | @created _ _ sv₁ _ _ _ h₁ _ h₂ =>
    have h' : Told price s sv₁ := h.step h₁.submissions h₁.trades (h₁.statuses ▸ List.prefix_refl _)
    exact h'.step h₂.submissions h₂.trades (h₂.statuses ▸ List.prefix_refl _)
  | @submitted _ sv₁ sv₂ s' m b out hsess _ h₁ ha =>
    have hI₁ := hI.quiet h₁
    have hs₁ : s' < sv₁.nextSession := by rw [h₁.nextSession]; exact hasSession_lt hsess
    have hnew := submitted_new ha hnd
    have h' : Told price s sv₁ := h.step h₁.submissions h₁.trades (h₁.statuses ▸ List.prefix_refl _)
    have hI₂ := hI₁.saved hs₁ m b.tickSize hnew
    have hsaved : Told price s (sv₁.saveSubmission env ⟨generateUuid env.uuid, s', m, b.tickSize⟩
      (submittedOrder env m b.tickSize)) := h'.saved hI₁ _ hnew
    have hO₂ : OwnInv (some (generateUuid env.uuid)) (sv₁.saveSubmission env ⟨generateUuid env.uuid, s', m, b.tickSize⟩
      (submittedOrder env m b.tickSize)) := (hO.quiet h₁).saved ⟨generateUuid env.uuid, s', m, b.tickSize⟩ _
    have hF₂ : FilledInv (sv₁.saveSubmission env ⟨generateUuid env.uuid, s', m, b.tickSize⟩
      (submittedOrder env m b.tickSize)) := (hF.quiet h₁).saved hI₁ (hO.quiet h₁) _ hnew
    have hS₂ : StreamInv (sv₁.saveSubmission env ⟨generateUuid env.uuid, s', m, b.tickSize⟩
      (submittedOrder env m b.tickSize)) := (hS.quiet h₁).saved _ _
    obtain ⟨habout, hfilled⟩ := hI₁.submitted_filled ha hnew
    obtain ⟨disk, n, heq, -⟩ := saveSubmission_eq sv₁ env ⟨generateUuid env.uuid, s', m, b.tickSize⟩
      (submittedOrder env m b.tickSize)
    generalize hsv : sv₁.saveSubmission env ⟨generateUuid env.uuid, s', m, b.tickSize⟩ (submittedOrder env m b.tickSize) = sv₃ at *
    have hs₃ : Sound sv₃ := by
      rw [heq]
      exact ⟨(h₁.sound hs).books, (h₁.sound hs).symbol, (h₁.sound hs).posted⟩
    have htrades : sv₃.trades = sv.trades := by rw [heq]; exact h₁.trades
    have hsub : sv₂.submissions = sv₃.submissions := ha.dispatched.submissions
    have hfair₃ : Fair price s (tradesIn out.callbacks) sv₃ := by
      refine hfair.fair (by rw [← htrades]; exact ha.trades) hsub fun hp => hp.congr ?_ ?_
      · exact ha.dispatched.sessions
      · exact congrArg Session.clientId (congrFun ha.dispatched.sessionAt s)
    have hx₀ : ∀ x ∈ sv₃.submissions, x.orderId = generateUuid env.uuid → x = ⟨generateUuid env.uuid, s', m, b.tickSize⟩ :=
      fun x hx he => hI₂.submissionInj x hx _ (by rw [heq]; exact List.mem_append_right _ (List.mem_singleton.2 rfl)) he
    have hst : (sv₂.acknowledge s' (out.state.heap b.nextPtr)).statuses =
        sv₂.statuses ++ [(s', (out.state.heap b.nextPtr).statusMessage)] := statuses_sendMessage ..
    refine ⟨fun x hx hxs => ?_, fun t ht x hx hxs hn => ?_⟩
    · have hx : x ∈ sv₃.submissions := hsub ▸ hx
      by_cases he : x.orderId = generateUuid env.uuid
      · -- the reply tells of the trades of the submission
        have hxe := hx₀ x hx he
        refine .inr ⟨_, by rw [hst]; exact List.mem_append_right _ (List.mem_singleton.2 rfl), ?_, ?_, ?_⟩
        · rw [← hxs, hxe]
        · rw [he]; exact habout.orderId
        · rw [he]; exact hfilled
      · refine (hsaved.added_told hF₂ hS₂ hI₂ hO₂ ha hfair₃ hx hxs he).imp_right fun ⟨e, hmem, h1⟩ => ⟨e, ?_, h1⟩
        rw [hst]
        exact List.mem_append_left _ hmem
    · have hx : x ∈ sv₃.submissions := hsub ▸ hx
      have ht : t ∈ sv₂.trades := ht
      rw [ha.trades] at ht
      rcases List.mem_append.1 ht with ht | ht
      · exact hsaved.trade t ht x hx hxs hn
      by_cases he : x.orderId = generateUuid env.uuid
      · have hxe := hx₀ x hx he
        obtain ⟨hsym, ⟨p, hp⟩, ⟨q, hq⟩⟩ := ha.call.trades t (mem_tradesIn.1 ht)
        -- nothing of the book has the new id
        have hside : ∀ {d : OrderSide} {id : String} {r : OrderPtr}, Party b.nextPtr (b.alloc (submittedOrder env m b.tickSize)).2 d id
            t.price r → id = x.orderId → x.message.side = d := fun {d id r} hr hid => by
          by_cases hrn : r = b.nextPtr
          · rw [hxe, ← hr.side, hrn, alloc_heap_self]; rfl
          · have hrid := hr.id
            rw [alloc_heap_of_ne hrn, hid, he] at hrid
            refine absurd ?_ hnew
            have hlive : sv₃.Live (generateUuid env.uuid) := hrid ▸ live_of_held ha.book ha.inv (hr.known.resolve_right hrn)
            rw [← hsv] at hlive
            exact hI₁.live (saveSubmission_live.1 hlive)
        refine ⟨?_, (hfair₃ t ht x hx hxs hn).2, hside hp, hside hq⟩
        rw [hxe, hsym]
        show b.symbol = m.symbol
        exact hs₃.symbol ha.book
      · exact Told.added_trade hs₃ hF₂ hO₂ ha hfair₃ ht hx hxs he hn
  | cancelled _ h₁ _ hc | generatorCancelled h₁ hc =>
    have hd := hc.dispatched
    refine h.step (hd.submissions.trans h₁.submissions) ?_ ?_
    · refine hd.trades.trans ?_
      simp only [List.filterMap_cons, List.filterMap_nil, List.append_nil]
      exact h₁.trades
    · obtain ⟨l, hl, -⟩ := hd.statuses
      rw [hl, ← h₁.statuses]
      exact List.prefix_append ..
  | reported _ h₁ _ _ _ =>
    refine h.step h₁.submissions h₁.trades ?_
    rw [statuses_sendMessage, h₁.statuses]
    exact List.prefix_append ..
  | generated hg =>
    unfold generate
    rw [hg]
    exact h.step rfl rfl (List.prefix_refl _)
  | @posted _ _ o rest b out hp ha =>
    have hmem : o ∈ sv.posted := by rw [hp]; exact List.mem_cons_self ..
    have hpop : Told price s { sv with posted := rest } := h.step rfl rfl (List.prefix_refl _)
    have hFp : FilledInv { sv with posted := rest } :=
      hF.step rfl rfl rfl (fun _ ho => ho) fun hb => fun hp => ⟨_, hb, hp, rfl⟩
    have hSp : StreamInv { sv with posted := rest } :=
      hS.of_eq rfl rfl rfl fun o ho => .inl (by rw [hp]; exact List.mem_cons_of_mem _ ho)
    have hOp : OwnInv none { sv with posted := rest } := hO.step rfl rfl rfl (fun _ => rfl) rfl fun _ hl => hl
    have hsp : Sound { sv with posted := rest } :=
      ⟨hs.books, hs.symbol, fun q hq => hs.posted q (by rw [hp]; exact List.mem_cons_of_mem _ hq)⟩
    have hsub := ha.dispatched.submissions
    have hfair' : Fair price s (tradesIn out.callbacks) { sv with posted := rest } :=
      hfair.fair ha.trades hsub fun hp => hp.congr ha.dispatched.sessions
        (congrArg Session.clientId (congrFun ha.dispatched.sessionAt s))
    have hne : ∀ x ∈ sv'.submissions, x.orderId ≠ o.id := fun x hx => hI.postedSubmission o hmem x (hsub ▸ hx)
    refine ⟨fun x hx hxs => ?_, fun t ht x hx hxs hn => ?_⟩
    · exact hpop.added_told hFp hSp (hI.popPosted hp) (hOp.weaken _) ha hfair' (hsub ▸ hx) hxs (hne x hx)
    · rw [ha.trades] at ht
      rcases List.mem_append.1 ht with ht | ht
      · exact hpop.trade t ht x (hsub ▸ hx) hxs hn
      · exact Told.added_trade hsp hFp (hOp.weaken _) ha hfair' ht (hsub ▸ hx) hxs (hne x hx) hn
  | restarted hb hr hq =>
    obtain ⟨ts, hts⟩ := hr.trades
    have ht : sv'.trades = sv.trades ++ ts := by rw [hq.trades, hts, hb.trades]
    refine h.unfair hfair ht ?_ ?_ fun hp => ?_
    · exact hq.submissions.trans (hr.rule (K := fun x => x.submissions = sv.submissions) hb.submissions
        fun ha h => ha.dispatched.submissions.trans h)
    · exact hq.statuses.trans ((FilledInv.restored hr (hI.booted hb) (hF.booted hb)).2.trans hb.statuses)
    · have hnone : sv'.sessions = .empty := hq.sessions.trans (hr.rule (K := fun x => x.sessions = .empty) hb.sessions
        fun ha h => ha.dispatched.sessions.trans h)
      unfold Present at hp
      rw [hnone] at hp
      cases hp

end Server

end OrderbookGC
