/-
A restart of a server that takes no stop orders. The replay passes the waiting rows through the matching engine, and
they are orders the engine has already let rest: none crosses another, so none trades, each comes to the end of its
queue, and the row it is written back to is the row it came from. What the books hold is what they held.
-/
import OrderbookGC.Server.Image

namespace OrderbookGC

open Container OrderBook MatchState

/-! ## Tables that can be replayed -/

/-- The row of an order in one of these books, whole or partially filled. -/
structure OrderRow.Restores (symbols : List String) (r : OrderRow) : Prop where
  symbol : r.symbol ∈ symbols
  status : r.status = if columnInt r.remainingQuantity < columnInt r.quantity then .partialFill else .pending
  le : columnInt r.remainingQuantity ≤ columnInt r.quantity
  bound : bindInt (columnInt r.remainingQuantity) = r.remainingQuantity

structure Replayable (symbols : List String) (rows : List OrderRow) : Prop where
  restores : ∀ r ∈ rows, r.Waits → r.orderType = .limit ∧ r.Restores symbols
  uncrossed : ∀ r ∈ rows, ∀ r' ∈ rows, r.Waits → r'.Waits → r.symbol = r'.symbol → r.side = .buy → r'.side = .sell →
    r.price < r'.price

/-- A fill marks the order partially filled, and its row with it. -/
theorem OrderRow.Restores.update {symbols : List String} {r : OrderRow} {o o' : Order ℚ} (h : r.Restores symbols)
    (hs : r.status = o.status) (hr : columnInt r.remainingQuantity = o.remainingQuantity) (hadv : o.Advance o') (hl : o'.Live) :
    (Db.OrderRow.update r o').Restores symbols := by
  have hcol : columnInt (bindInt o'.remainingQuantity) = o'.remainingQuantity := columnInt_bindInt _
  have hle := h.le
  have hst := h.status
  rw [hr] at hle hst
  refine ⟨h.symbol, ?_, ?_, ?_⟩
  · show o'.status = if columnInt (bindInt o'.remainingQuantity) < columnInt r.quantity then _ else _
    rw [hcol]
    rcases hadv.live hl with ⟨hs', hr'⟩ | ⟨hs', hr'⟩
    · rw [hs', hr', ← hs, hst]
    · rw [hs', if_pos (UInt32.lt_of_lt_of_le hr' hle)]
  · show columnInt (bindInt o'.remainingQuantity) ≤ columnInt r.quantity
    rw [hcol]
    exact UInt32.le_trans hadv.le hle
  · show bindInt (columnInt (bindInt o'.remainingQuantity)) = bindInt o'.remainingQuantity
    rw [hcol]

/-- The restored order has the status of its row. -/
theorem OrderRow.Restores.restored {symbols : List String} {r : OrderRow} (h : r.Restores symbols) (hw : r.Waits) (now : Int) :
    (Db.restoreOrder now r).status = r.status := by
  rw [h.status]
  unfold Db.restoreOrder
  dsimp only
  split_ifs
  · simp [Order.fill, Order.new, hw.2]
  · rfl

namespace Server

theorem restoreOrder_rowOf (now : Int) (r : OrderRow) : RowOf r (Db.restoreOrder now r) :=
  ⟨(restoreOrder_id now r).symm, (restoreOrder_symbol now r).symm, (restoreOrder_static now r).1.symm,
    (restoreOrder_static now r).2.2.symm, (restoreOrder_remainingQuantity now r).symm⟩

namespace Mirrors

variable {env : Env} {o : Order ℚ} {b : OrderBook ℚ} {out : AddOutcome ℚ} {sv sv' : Server} {done : List OrderRow} {r₀ : OrderRow}
  {f : OrderRow → OrderRow} {symbols : List String}

/-- The rows that wait after a call are rows of limit orders. -/
theorem added_restores (h : Mirrors done sv) (ha : Added env o b out sv sv') (hl : ¬ sv.Live o.id)
    (hs : out.accepted = true → o.isStopOrder = false) (hnd : (done.map (·.id)).Nodup) (hnew : ∀ r ∈ done, r.id ≠ o.id) (hf : Rewrites out.state.heap out.callbacks f)
    (hr₀ : RowOf r₀ o) (hs₀ : r₀.status = o.status) (h₀ : r₀.Restores symbols)
    (hrows : ∀ r ∈ done, r.Waits → r.orderType = .limit ∧ r.Restores symbols) :
    ∀ r ∈ (done ++ [r₀]).map f, r.Waits → r.orderType = .limit ∧ r.Restores symbols := by
  have hcall := ha.call
  -- a rewritten row that waits is of an order that rests
  have hupdate : ∀ {r p}, .order p ∈ out.callbacks → r.Restores symbols → r.status = ((b.alloc o).2.heap p).status →
      columnInt r.remainingQuantity = ((b.alloc o).2.heap p).remainingQuantity → (Db.OrderRow.update r (out.state.heap p)).Waits →
      (out.state.heap p).orderType = .limit ∧ (Db.OrderRow.update r (out.state.heap p)).Restores symbols := by
    intro r p hp hres hst hrem hw
    have hheld := (ha.waits_iff (hcall.accepted_of_mem hp) (hcall.announced p hp) r).1 hw
    have hplain := h.plain ha hs
    obtain ⟨d, k, hk⟩ := hheld.resolve_right fun ⟨d, k, hk⟩ => by rw [hplain.1] at hk; cases hk
    exact ⟨(hcall.inv.rest hk).2.2, hres.update hst hrem (ha.add.advance ha.invAlloc p) ((update_waits r _).1 hw)⟩
  intro r hr hw
  obtain ⟨x, hx, rfl⟩ := List.mem_map.1 hr
  rcases hf x with ⟨heq, hno⟩ | ⟨p, hp, hid, heq⟩
  · rw [heq] at hw ⊢
    rcases List.mem_append.1 hx with hx | hx
    · exact hrows x hx hw
    · -- the incoming order is announced unless it is refused
      rw [List.mem_singleton.1 hx] at hw hno
      have hacc := (ha.accepted_iff hl).2 (hr₀.remaining ▸ hw.2)
      refine absurd ?_ (hno _ (ha.announces hacc))
      rw [(hcall.static _).id, alloc_heap_self, hr₀.id]
  · rw [heq] at hw ⊢
    rcases List.mem_append.1 hx with hx | hx
    · obtain ⟨d, k, hk, hpid, hwx⟩ := h.announced ha hnd hnew hp hx hid
      have hagree := h.agrees ha.book hk hx hpid.symm
      have hheap : (b.alloc o).2.heap p = b.heap p := alloc_heap_of_ne (Nat.ne_of_lt (ha.inv.alloc (.inl (.inl ⟨_, _, hk⟩))))
      refine hupdate hp (hrows x hx (mem_rowsAt.1 hwx).2.1).2 ?_ ?_ hw
      · rw [hheap]; exact hagree.status
      · rw [hheap]; exact hagree.remaining
    · rw [List.mem_singleton.1 hx] at hid hw ⊢
      rw [hr₀.id, (hcall.static p).id] at hid
      have hpe : p = b.nextPtr := hcall.eq_of_id ha.invAlloc (hcall.accepted_of_mem hp) (hcall.announced p hp) (.inr rfl)
        (by rw [← hid, alloc_heap_self])
      subst hpe
      refine hupdate hp h₀ ?_ ?_ hw
      · rw [alloc_heap_self]; exact hs₀
      · rw [alloc_heap_self]; exact hr₀.remaining

section Uncrossed

variable {rows : List OrderRow}

/-- The books of rows that do not cross do not cross, and the other way round. -/
theorem uncrossed (h : Mirrors rows sv) (hR : Replayable symbols rows) {symbol : String} (hb : sv.orderbooks.find? symbol = some b) :
    Uncrossed b := by
  intro kb ka hkb hka
  have hrow : ∀ {d k}, b.queue d k ≠ [] → ∃ r, r ∈ rows ∧ r.Waits ∧ r.symbol = symbol ∧ r.side = d ∧ r.price = k := fun hk => by
    obtain ⟨p, hp⟩ := List.exists_mem_of_ne_nil _ hk
    obtain ⟨r, hr, -⟩ := h.row_of_queue hb hp
    exact ⟨r, mem_rowsAt.1 hr⟩
  obtain ⟨r, hr, hw, hsym, hside, rfl⟩ := hrow hkb
  obtain ⟨r', hr', hw', hsym', hside', rfl⟩ := hrow hka
  exact hR.uncrossed r hr r' hr' hw hw' (hsym.trans hsym'.symm) hside hside'

theorem replayable (h : Mirrors rows sv) (hrows : ∀ r ∈ rows, r.Waits → r.orderType = .limit ∧ r.Restores symbols)
    (hbooks : ∀ symbol ∈ symbols, (sv.orderbooks.find? symbol).isSome = true)
    (hU : ∀ {symbol b}, sv.orderbooks.find? symbol = some b → Uncrossed b) : Replayable symbols rows := by
  refine ⟨hrows, fun r hr r' hr' hw hw' hsym hside hside' => ?_⟩
  obtain ⟨b, hb⟩ := Option.isSome_iff_exists.1 (hbooks _ (hrows r hr hw).2.symbol)
  have hne : ∀ x ∈ rows, x.Waits → x.symbol = r.symbol → b.queue x.side x.price ≠ [] := fun x hx hwx hsx => by
    obtain ⟨p, hp, -⟩ := h.queue_of_row hb (mem_rowsAt.2 ⟨hx, hwx, hsx, rfl, rfl⟩)
    exact List.ne_nil_of_mem hp
  exact hU hb r.price r'.price (hside ▸ hne r hr hw rfl) (hside' ▸ hne r' hr' hw' hsym.symm)

end Uncrossed

end Mirrors

/-! ## The restore loop -/

/-- The restore loop on the table of `sv₀` once it has restored these rows: nothing has been stored or reported. -/
structure Replayed (done : List OrderRow) (sv₀ sv : Server) : Prop where
  config : sv.config = sv₀.config
  orders : sv.disk.orders = sv₀.disk.orders
  tradeRows : sv.disk.trades = sv₀.disk.trades
  trades : sv.trades = sv₀.trades
  storeOpen : sv.storeOpen = true
  sound : Sound sv
  books : ∀ symbol ∈ sv₀.config.symbols, (sv.orderbooks.find? symbol).isSome = true
  mirrors : Mirrors done sv

section Replay

variable {env : Env} {r : OrderRow} {rows done : List OrderRow} {sv₀ sv sv' : Server} {b : OrderBook ℚ} {out : AddOutcome ℚ}

/-- A restored order crosses nothing that has been restored before it. -/
theorem Replayed.uncrossing (h : Replayed done sv₀ sv) (hR : Replayable sv₀.config.symbols sv₀.disk.orders)
    (hsub : ∀ x ∈ done, x ∈ sv₀.disk.orders) (hr : r ∈ sv₀.disk.orders) (hw : r.Waits)
    (hb : sv.orderbooks.find? r.symbol = some b) : Uncrossing b (Db.restoreOrder env.now r) := by
  intro k hk
  obtain ⟨hside, -, hprice⟩ := restoreOrder_static env.now r
  rw [hside, hprice]
  rw [hside] at hk
  obtain ⟨p, hp⟩ := List.exists_mem_of_ne_nil _ hk
  obtain ⟨x, hxk, -⟩ := h.mirrors.row_of_queue hb hp
  obtain ⟨hxd, hwx, hsym, hsx, rfl⟩ := mem_rowsAt.1 hxk
  have hx := hsub x hxd
  cases hs : r.side with
  | buy =>
    rw [hs] at hsx
    have := hR.uncrossed r hr x hx hw hwx hsym.symm hs hsx
    simpa [accepts] using this
  | sell =>
    rw [hs] at hsx
    have := hR.uncrossed x hx r hr hwx hw hsym hsx hs
    simpa [accepts] using this

/-- A restored order trades with nothing. -/
theorem Replayed.no_trade (h : Replayed done sv₀ sv) (hR : Replayable sv₀.config.symbols sv₀.disk.orders)
    (hsub : ∀ x ∈ done, x ∈ sv₀.disk.orders) (hr : r ∈ sv₀.disk.orders) (hrep : Replaying (r :: rows) sv)
    (hact : Db.isActive r = true) (ha : Added env (Db.restoreOrder env.now r) b out sv sv') : tradesIn out.callbacks = [] := by
  rw [List.eq_nil_iff_forall_not_mem]
  intro t ht
  rw [mem_tradesIn] at ht
  have hacc := ha.call.accepted_of_mem ht
  have hw : r.Waits := ⟨hact, by
    have := (ha.accepted_iff (hrep.known env.now).2).1 hacc
    rwa [restoreOrder_remainingQuantity] at this⟩
  have hbook := ha.book
  rw [restoreOrder_symbol] at hbook
  have hlim : (Db.restoreOrder env.now r).orderType = .limit :=
    (restoreOrder_static env.now r).2.1.trans (hR.restores r hr hw).1
  have hdone : Replayable sv₀.config.symbols done :=
    ⟨fun x hx => hR.restores x (hsub x hx), fun x hx y hy => hR.uncrossed x (hsub x hx) y (hsub y hy)⟩
  exact ha.add.no_trade ha.inv ha.invAlloc (h.mirrors.uncrossed hdone hbook) (h.mirrors.noStops hbook) hlim
    (h.uncrossing hR hsub hr hw hbook) t ht

/-- The row of a restored order is written back as it was. -/
theorem Replayed.rewrites (h : Replayed done sv₀ sv) (hR : Replayable sv₀.config.symbols sv₀.disk.orders)
    (hsub : ∀ x ∈ done, x ∈ sv₀.disk.orders) (hr : r ∈ sv₀.disk.orders) (hrep : Replaying (r :: rows) sv)
    (hact : Db.isActive r = true) (ha : Added env (Db.restoreOrder env.now r) b out sv sv') {f : OrderRow → OrderRow}
    (hf : Rewrites out.state.heap out.callbacks f) {x : OrderRow} (hx : x ∈ sv₀.disk.orders) : f x = x := by
  have hcall := ha.call
  have hnone := h.no_trade hR hsub hr hrep hact ha
  rcases hf x with ⟨heq, -⟩ | ⟨p, hp, hid, heq⟩
  · exact heq
  · have hacc := hcall.accepted_of_mem hp
    have hC := ha.add.changes ha.invAlloc hacc
    have hpend : out.state.pendingTrades = [] := by rw [← tradesIn_fireCallbacks b.nextPtr, ← hC.callbacks]; exact hnone
    -- without trades only the incoming order is announced
    obtain rfl : p = b.nextPtr := (hC.names p hp).resolve_right fun ⟨t, ht, _⟩ => by rw [hpend] at ht; cases ht
    rw [(hcall.static _).id, alloc_heap_self, restoreOrder_id] at hid
    have hnd := hrep.rowsNodup
    rw [h.orders] at hnd
    obtain rfl : x = r := List.inj_on_of_nodup_map hnd hx hr hid
    have hw : x.Waits := ⟨hact, by
      have := (ha.accepted_iff (hrep.known env.now).2).1 hacc
      rwa [restoreOrder_remainingQuantity] at this⟩
    obtain ⟨hlim, hres⟩ := hR.restores x hx hw
    have hprice : ((b.alloc (Db.restoreOrder env.now x)).2.heap b.nextPtr).Priced := by
      rw [alloc_heap_self]
      exact .inl ((restoreOrder_static env.now x).2.1.trans hlim)
    have hrem : (out.state.heap b.nextPtr).remainingQuantity = columnInt x.remainingQuantity := by
      have hsum := ha.add.settles ha.inv ha.invAlloc (.inr rfl)
      rw [hnone, traded_nil, Nat.add_zero, alloc_heap_self, restoreOrder_remainingQuantity] at hsum
      exact (UInt32.toNat_inj.1 hsum).symm
    have hheld : out.state.Held b.nextPtr := ha.add.held_of_priced ha.inv ha.invAlloc hacc (.inr rfl) (hcall.live hacc) hprice
      (by rw [hrem]; exact hw.2)
    have hlive := hcall.inv.live hheld
    have hst : (out.state.heap b.nextPtr).status = x.status := by
      have hadv := ha.add.advance ha.invAlloc b.nextPtr
      rw [alloc_heap_self] at hadv
      rcases hadv.live hlive with ⟨hs, -⟩ | ⟨-, hlt⟩
      · exact hs.trans (hres.restored hw env.now)
      · rw [hrem, restoreOrder_remainingQuantity] at hlt
        exact absurd hlt (UInt32.lt_irrefl _)
    have hty : (out.state.heap b.nextPtr).orderType = x.orderType := by
      rw [hlim]
      obtain ⟨d, k, hk⟩ | ⟨d, k, hk⟩ := hheld
      · exact (hcall.inv.rest hk).2.2
      · have hstop := hcall.untriggered _ (hcall.inv.stop hk).2.2
        rw [alloc_heap_self] at hstop
        unfold Order.isStopOrder at hstop
        rw [(restoreOrder_static env.now x).2.1, hlim] at hstop
        simp at hstop
    rw [heq]
    unfold Db.OrderRow.update
    rw [hrem, hst, hty, hres.bound]

theorem Replayed.add (h : Replayed done sv₀ sv) (hR : Replayable sv₀.config.symbols sv₀.disk.orders)
    (hsub : ∀ x ∈ done, x ∈ sv₀.disk.orders) (hr : r ∈ sv₀.disk.orders) (hrep : Replaying (r :: rows) sv)
    (hact : Db.isActive r = true) (hnd : ((done ++ [r]).map (·.id)).Nodup)
    (ha : Added env (Db.restoreOrder env.now r) b out sv sv') (hw : ∀ n, env.writeOk n = true) : Replayed (done ++ [r]) sv₀ sv' := by
  obtain ⟨hk, hl⟩ := hrep.known env.now
  have hnone := h.no_trade hR hsub hr hrep hact ha
  obtain ⟨f, hf, hrw⟩ := ha.dispatched.rewrites h.storeOpen hw fun p hp => by
    rw [(ha.call.static p).id]
    exact hrep.cStr_eq (hrep.toIdInv.known ha hk (ha.call.announced p hp))
  have hsame : ∀ x ∈ sv₀.disk.orders, f x = x := fun x hx => h.rewrites hR hsub hr hrep hact ha hrw hx
  have hf : sv'.disk.orders = sv.disk.orders.map f := hf
  rw [List.map_append, List.map_singleton, List.nodup_append] at hnd
  have hstop : out.accepted = true → (Db.restoreOrder env.now r).isStopOrder = false := fun hacc => by
    have h0 := (ha.accepted_iff hl).1 hacc
    rw [restoreOrder_remainingQuantity] at h0
    unfold Order.isStopOrder
    rw [(restoreOrder_static env.now r).2.1, (hR.restores r hr ⟨hact, h0⟩).1]
    rfl
  have hmir := h.mirrors.added h.sound hrep.toIdInv ha hl hstop hnd.1 (fun x hx hid => ?_) hrw (restoreOrder_rowOf env.now r)
  · rw [List.map_append, List.map_singleton, hsame r hr, List.map_congr_left fun x hx => hsame x (hsub x hx), List.map_id'] at hmir
    refine ⟨ha.dispatched.config.trans h.config, ?_, ?_, ?_, ha.dispatched.storeOpen.trans h.storeOpen, ha.sound h.sound,
      fun symbol hs => ?_, hmir⟩
    · rw [hf, h.orders, List.map_congr_left hsame, List.map_id']
    · rw [ha.tradeRows h.storeOpen hw, hnone, h.tradeRows]
      exact List.append_nil _
    · rw [ha.trades, hnone, List.append_nil, h.trades]
    · rw [ha.find?]
      split_ifs
      · rfl
      · exact h.books symbol hs
  · rw [restoreOrder_id] at hid
    exact hnd.2.2 _ (List.mem_map_of_mem hx) _ (List.mem_singleton.2 rfl) hid

/-- A row without a book does not wait. -/
theorem Replayed.skip (h : Replayed done sv₀ sv) (hR : Replayable sv₀.config.symbols sv₀.disk.orders) (hr : r ∈ sv₀.disk.orders)
    (hnd : ((done ++ [r]).map (·.id)).Nodup) (hb : sv.orderbooks.find? r.symbol = none) : Replayed (done ++ [r]) sv₀ sv := by
  have hwait : ¬ r.Waits := fun hw => by
    have := h.books _ (hR.restores r hr hw).2.symbol
    rw [hb] at this
    cases this
  refine { h with mirrors := ⟨h.mirrors.noStops, fun {symbol x} hx d k => ?_, fun {symbol x} hx {d k p y} hp hy hid => ?_⟩ }
  · have hnone : rowsAt [r] symbol d k = [] := List.filter_eq_nil_iff.2 fun y hy => by
      rw [List.mem_singleton.1 hy, decide_eq_true_eq]
      exact fun hw => hwait hw.1
    rw [rowsAt_append, hnone, List.append_nil]
    exact h.mirrors.queue hx d k
  · rcases List.mem_append.1 hy with hy | hy
    · exact h.mirrors.agrees hx hp hy hid
    · -- the order's own row is another
      obtain ⟨z, hz, hzid⟩ := h.mirrors.row_of_queue hx hp
      rw [List.map_append, List.nodup_append] at hnd
      refine absurd (hzid.trans hid.symm) (hnd.2.2 _ (List.mem_map_of_mem (mem_rowsAt.1 hz).1) _ ?_)
      exact List.mem_map_of_mem hy

end Replay

/-- A restart restores the active rows, in the order of the table. -/
theorem restored_replayed {env : Env} {sv sv₁ sv₂ : Server} (hR : Replayable sv.config.symbols sv.disk.orders) (hI : IdInv sv)
    (hsorted : (sv.disk.orders.map (·.createdAt)).Pairwise (· ≤ ·)) (hper : env.Persists) (hb : Booted env sv sv₁)
    (hr : Restored env (if sv₁.storeOpen then sv₁.disk.activeRows else []) sv₁ sv₂) :
    Replayed (sv.disk.orders.filter Db.isActive) sv sv₂ := by
  have hopen : sv₁.storeOpen = true := hb.storeOpen.trans hper.opens
  have hactive : sv₁.disk.activeRows = sv.disk.orders.filter Db.isActive := by
    unfold Db.activeRows
    rw [hb.orders]
    refine List.Pairwise.insertionSort_eq ((List.pairwise_map.1 hsorted).sublist List.filter_sublist)
  have hnd : ((sv.disk.orders.filter Db.isActive).map (·.id)).Nodup := hI.rowsNodup.sublist (List.filter_sublist.map _)
  have hbook : ∀ {symbol b}, sv₁.orderbooks.find? symbol = some b → b = .new symbol defaultTickSize := fun hx => by
    rw [hb.orderbooks] at hx
    split_ifs at hx
    exact (Option.some.inj hx).symm
  have h0 : Replayed [] sv sv₁ := by
    refine ⟨hb.config, hb.orders, hb.tradeRows, hb.trades, hopen, hb.sound, fun symbol hs => ?_, fun hx => ?_, fun hx d k => ?_,
      fun hx => ?_⟩
    · rw [hb.orderbooks, if_pos hs]
      rfl
    · rw [hbook hx]
      intro d k
      cases d <;> rfl
    · rw [hbook hx]
      cases d <;> rfl
    · intro d k p r _ hr
      cases hr
  have hrep := Replaying.booted hI hb
  rw [if_pos hopen, hactive] at hr hrep
  have hloop : ∃ done, sv.disk.orders.filter Db.isActive = done ++ [] ∧ Replayed done sv sv₂ := by
    refine hr.replay (K := fun rows sv' => ∃ done, sv.disk.orders.filter Db.isActive = done ++ rows ∧ Replayed done sv sv') hrep
      ⟨[], rfl, h0⟩ ?_ ?_
    · rintro r rows sv' hrep hnone ⟨done, hdone, hK⟩
      have hsplit : sv.disk.orders.filter Db.isActive = (done ++ [r]) ++ rows := by rw [hdone, List.append_assoc]; rfl
      have hmem : r ∈ sv.disk.orders.filter Db.isActive := by rw [hdone]; simp
      refine ⟨done ++ [r], hsplit, hK.skip hR (List.mem_of_mem_filter hmem) ?_ hnone⟩
      rw [hsplit, List.map_append] at hnd
      exact (List.nodup_append.1 hnd).1
    · rintro r rows sv' sv'' b out hrep ha ⟨done, hdone, hK⟩
      have hsplit : sv.disk.orders.filter Db.isActive = (done ++ [r]) ++ rows := by rw [hdone, List.append_assoc]; rfl
      have hmem : r ∈ sv.disk.orders.filter Db.isActive := by rw [hdone]; simp
      have hsub : ∀ x ∈ done, x ∈ sv.disk.orders := fun x hx =>
        List.mem_of_mem_filter (by rw [hdone]; exact List.mem_append_left _ hx)
      refine ⟨done ++ [r], hsplit, hK.add hR hsub (List.mem_of_mem_filter hmem) hrep (List.mem_filter.1 hmem).2 ?_ ha hper.writes⟩
      rw [hsplit, List.map_append] at hnd
      exact (List.nodup_append.1 hnd).1
  obtain ⟨done, hdone, hK⟩ := hloop
  rw [List.append_nil] at hdone
  exact hdone ▸ hK

/-! ## Events -/

/-- The events of a server that takes limit and market orders for its configured books, and generates none. -/
def Plain (config : Config) : Event → Prop
  | .message _ (.orderSubmit m) => (m.orderType = .limit ∨ m.orderType = .market) ∧ m.symbol ∈ config.symbols
  | .generate _ | .posted | .generatorCancel _ => False
  | _ => True

/-- Between events: the books hold what a restart would restore. -/
structure ReplayInv (sv : Server) : Prop extends Replayable sv.config.symbols sv.disk.orders where
  books : ∀ symbol ∈ sv.config.symbols, (sv.orderbooks.find? symbol).isSome = true
  mirrors : Mirrors sv.disk.orders sv

/-- The rows that do not wait need not be active. -/
theorem Mirrors.of_active {rows : List OrderRow} {sv : Server} (h : Mirrors (rows.filter Db.isActive) sv)
    (hnd : (rows.map (·.id)).Nodup) : Mirrors rows sv := by
  have hrows : ∀ symbol d k, rowsAt (rows.filter Db.isActive) symbol d k = rowsAt rows symbol d k := fun symbol d k => by
    unfold rowsAt
    rw [List.filter_filter]
    refine List.filter_congr fun r _ => ?_
    rw [Bool.eq_iff_iff, Bool.and_eq_true, decide_eq_true_eq]
    exact and_iff_left_of_imp fun hw => hw.1.1
  refine ⟨h.noStops, fun hx d k => (h.queue hx d k).trans (by rw [hrows]), fun {symbol x} hx {d k p r} hp hr hid => ?_⟩
  obtain ⟨y, hy, hyid⟩ := h.row_of_queue hx hp
  have hy := (mem_rowsAt.1 hy).1
  rw [List.inj_on_of_nodup_map hnd hr (List.mem_of_mem_filter hy) (hid.trans hyid.symm)]
  exact h.agrees hx hp hy hyid

theorem Replayed.replayInv {sv₀ sv : Server} (h : Replayed (sv₀.disk.orders.filter Db.isActive) sv₀ sv)
    (hR : Replayable sv₀.config.symbols sv₀.disk.orders) (hnd : (sv₀.disk.orders.map (·.id)).Nodup) : ReplayInv sv := by
  refine ⟨?_, ?_, ?_⟩
  · rw [h.config, h.orders]
    exact hR
  · rw [h.config]
    exact h.books
  · rw [h.orders]
    exact h.mirrors.of_active hnd

namespace ReplayInv

variable {env : Env} {sv sv' : Server}

theorem of_eq (h : ReplayInv sv) (hc : sv'.config = sv.config) (ho : sv'.disk.orders = sv.disk.orders)
    (hb : sv'.orderbooks = sv.orderbooks) : ReplayInv sv' :=
  ⟨by rw [hc, ho]; exact h.toReplayable, by rw [hc, hb]; exact h.books, by rw [ho]; exact h.mirrors.of_orderbooks hb⟩

theorem quiet (h : ReplayInv sv) (hq : Quiet sv sv') : ReplayInv sv' := h.of_eq hq.config hq.orders hq.orderbooks

/-- A book that holds what the book of its symbol has to. -/
theorem setBook (h : ReplayInv sv) {symbol : String} {b : OrderBook ℚ} (hn : NoStops b)
    (hq : ∀ d k, (b.queue d k).map (fun p => (b.heap p).id) = (rowsAt sv.disk.orders symbol d k).map (·.id))
    (ha : ∀ {d k p r}, p ∈ b.queue d k → r ∈ sv.disk.orders → r.id = (b.heap p).id → Agrees r (b.heap p)) :
    ReplayInv (sv.setBook symbol b) := by
  refine ⟨h.toReplayable, fun name hs => ?_, fun {name x} hx => ?_, fun {name x} hx d k => ?_, fun {name x} hx => ?_⟩
  · rw [setBook_find?]
    split_ifs
    · rfl
    · exact h.books name hs
  · rw [setBook_find?] at hx
    split_ifs at hx
    · cases hx
      exact hn
    · exact h.mirrors.noStops hx
  · rw [setBook_find?] at hx
    split_ifs at hx with he
    · cases hx
      rw [he]
      exact hq d k
    · exact h.mirrors.queue hx d k
  · rw [setBook_find?] at hx
    split_ifs at hx
    · cases hx
      exact ha
    · exact h.mirrors.agrees hx

/-- A symbol without a book has no order that waits. -/
theorem rowsAt_eq_nil (h : ReplayInv sv) {symbol : String} (hb : sv.orderbooks.find? symbol = none) (d : OrderSide) (k : ℚ) :
    rowsAt sv.disk.orders symbol d k = [] := by
  refine List.filter_eq_nil_iff.2 fun r hr => ?_
  rw [decide_eq_true_eq]
  rintro ⟨hw, rfl, -⟩
  have := h.books _ (h.restores r hr hw).2.symbol
  rw [hb] at this
  cases this

theorem created (h : ReplayInv sv) {symbol : String} {tickSize : ℚ} (hb : sv.orderbooks.find? symbol = none) :
    ReplayInv (sv.setBook symbol (.new symbol tickSize)) := by
  refine h.setBook (fun d k => ?_) (fun d k => ?_) fun {d k} _ _ hp => ?_
  · cases d <;> rfl
  · rw [h.rowsAt_eq_nil hb]
    cases d <;> rfl
  · cases d <;> cases hp

theorem ticked (h : ReplayInv sv) {symbol : String} {b : OrderBook ℚ} {tickSize : ℚ} (hb : sv.orderbooks.find? symbol = some b) :
    ReplayInv (sv.setBook symbol (b.setTickSize tickSize)) := by
  have hq : ∀ d k, (b.setTickSize tickSize).queue d k = b.queue d k := fun d k => by
    unfold OrderBook.setTickSize
    split_ifs
    · cases d <;> rfl
    · rfl
  have hs : ∀ d k, (b.setTickSize tickSize).stopQueue d k = b.stopQueue d k := fun d k => by
    unfold OrderBook.setTickSize
    split_ifs
    · cases d <;> rfl
    · rfl
  refine h.setBook (fun d k => ?_) (fun d k => ?_) fun {d k p r} hp hr hid => ?_
  · rw [hs]; exact h.mirrors.noStops hb d k
  · rw [hq, setTickSize_heap]; exact h.mirrors.queue hb d k
  · rw [setTickSize_heap] at hid ⊢
    exact h.mirrors.agrees hb (hq d k ▸ hp) hr hid

theorem cancelled (h : ReplayInv sv) (hS : Sound sv) (hI : IdInv sv) {symbol id : String} {b b' : OrderBook ℚ} {p : OrderPtr}
    (hc : Cancelled env symbol id b p b' sv sv') (ho : sv.storeOpen = true) (hw : ∀ n, env.writeOk n = true) : ReplayInv sv' := by
  obtain ⟨f, hf, hrw⟩ := hc.dispatched.rewrites ho hw fun q hq => by
    rw [Callback.order.inj (List.mem_singleton.1 hq), (hc.cancel.static p).id]
    exact hI.cStr_eq (hI.live (live_of_held hc.book hc.inv hc.cancel.held))
  have hf : sv'.disk.orders = sv.disk.orders.map f := hf
  have hcfg : sv'.config = sv.config := hc.dispatched.config
  have hM := h.mirrors.cancelled hS hI hc hrw
  have hbooks : ∀ symbol ∈ sv.config.symbols, (sv'.orderbooks.find? symbol).isSome = true := fun symbol hs => by
    rw [hc.find?]
    split_ifs
    · rfl
    · exact h.books symbol hs
  rw [← hf] at hM
  refine ⟨?_, by rw [hcfg]; exact hbooks, hM⟩
  rw [hcfg]
  refine hM.replayable (fun r hr hwr => ?_) hbooks fun {name x} hx => ?_
  · rw [hf] at hr
    obtain ⟨y, hy, rfl⟩ := List.mem_map.1 hr
    have hne : y.id ≠ id := fun hid => Mirrors.cancelled_gone hc hrw hid hwr
    rw [Mirrors.cancelled_keeps hc hrw hne] at hwr ⊢
    exact h.restores y hy hwr
  · rw [hc.find?] at hx
    split_ifs at hx
    · cases hx
      exact hc.cancel.uncrossed (h.mirrors.uncrossed h.toReplayable hc.book)
    · exact h.mirrors.uncrossed h.toReplayable hx

/-- A new submission is the last row of the table. -/
theorem saved_orders (hI : IdInv sv) {s : SessionPtr} {m : OrderSubmitMessage} {tickSize : ℚ} (ho : sv.storeOpen = true)
    (hw : ∀ n, env.writeOk n = true) (hnew : generateUuid env.uuid ∉ sv.uuids) :
    (sv.saveSubmission env ⟨generateUuid env.uuid, s, m, tickSize⟩ (submittedOrder env m tickSize)).disk.orders =
      sv.disk.orders ++ [Db.orderRow (submittedOrder env m tickSize) env.now] := by
  obtain ⟨disk, n, heq, hd⟩ := saveSubmission_eq sv env ⟨generateUuid env.uuid, s, m, tickSize⟩ (submittedOrder env m tickSize)
  rw [heq]
  rcases hd with ⟨-, hno⟩ | ⟨-, hd⟩
  · exact absurd ⟨ho, hw⟩ hno
  · refine hd.trans (congrArg (· ++ _) (List.filter_eq_self.2 fun r hr => decide_eq_true fun hid => hnew ?_))
    have hid : r.id = cStr (generateUuid env.uuid) := hid
    rw [cStr_generateUuid] at hid
    exact hid ▸ hI.rows r hr

/-- A submission is matched against the books the rows before it make. -/
theorem submitted (h : ReplayInv sv) (hS : Sound sv) (hI : IdInv sv) {s : SessionPtr} {m : OrderSubmitMessage} {b : OrderBook ℚ}
    {out : AddOutcome ℚ} (hs : s < sv.nextSession) (hnew : generateUuid env.uuid ∉ sv.uuids)
    (ha : Added env (submittedOrder env m b.tickSize) b out
      (sv.saveSubmission env ⟨generateUuid env.uuid, s, m, b.tickSize⟩ (submittedOrder env m b.tickSize)) sv')
    (ho : sv.storeOpen = true) (hw : ∀ n, env.writeOk n = true) (hty : m.orderType = .limit ∨ m.orderType = .market)
    (hsym : m.symbol ∈ sv.config.symbols) : ReplayInv sv' := by
  have hI₁ := hI.saved hs m b.tickSize hnew
  have hrows : (sv.saveSubmission env ⟨generateUuid env.uuid, s, m, b.tickSize⟩ (submittedOrder env m b.tickSize)).disk.orders =
      sv.disk.orders ++ [Db.orderRow (submittedOrder env m b.tickSize) env.now] := saved_orders hI ho hw hnew
  obtain ⟨disk, n, heq, -⟩ := saveSubmission_eq sv env ⟨generateUuid env.uuid, s, m, b.tickSize⟩ (submittedOrder env m b.tickSize)
  have hk := (mem_saveSubmission sv env ⟨generateUuid env.uuid, s, m, b.tickSize⟩ (submittedOrder env m b.tickSize)).1
  have hl : ¬ (sv.saveSubmission env ⟨generateUuid env.uuid, s, m, b.tickSize⟩ (submittedOrder env m b.tickSize)).Live
      (submittedOrder env m b.tickSize).id := fun hl => hnew (hI.live (saveSubmission_live.1 hl))
  have hbooks := saveSubmission_orderbooks sv env ⟨generateUuid env.uuid, s, m, b.tickSize⟩ (submittedOrder env m b.tickSize)
  generalize hsv : sv.saveSubmission env ⟨generateUuid env.uuid, s, m, b.tickSize⟩ (submittedOrder env m b.tickSize) = sv₁ at *
  have hcfg₁ : sv₁.config = sv.config := by rw [heq]
  have ho₁ : sv₁.storeOpen = true := by rw [heq]; exact ho
  have hS₁ : Sound sv₁ := by rw [heq]; exact ⟨hS.books, hS.symbol, hS.posted⟩
  have hM := h.mirrors.of_orderbooks hbooks
  have hcfg : sv'.config = sv.config := ha.dispatched.config.trans hcfg₁
  have hnd : (sv.disk.orders.map (·.id)).Nodup := hI.rowsNodup
  have hold : ∀ r ∈ sv.disk.orders, r.id ≠ (submittedOrder env m b.tickSize).id := fun r hr hid =>
    hnew ((show r.id = generateUuid env.uuid from hid) ▸ hI.rows r hr)
  have hrow : RowOf (Db.orderRow (submittedOrder env m b.tickSize) env.now) (submittedOrder env m b.tickSize) :=
    ⟨cStr_generateUuid _, cStr_of_free (sv.config.free _ hsym), rfl, rfl, columnInt_bindInt _⟩
  have hres : (Db.orderRow (submittedOrder env m b.tickSize) env.now).Restores sv.config.symbols := by
    refine ⟨?_, ?_, UInt32.le_refl _, ?_⟩
    · rw [hrow.symbol]; exact hsym
    · exact (if_neg (UInt32.lt_irrefl _)).symm
    · show bindInt (columnInt (bindInt _)) = bindInt _
      rw [columnInt_bindInt]
  have hstop : out.accepted = true → (submittedOrder env m b.tickSize).isStopOrder = false := fun _ => by
    show (m.orderType = .stop || m.orderType = .stopLimit) = false
    rcases hty with hty | hty <;> simp [hty]
  obtain ⟨f, hf, hrw⟩ := ha.dispatched.rewrites ho₁ hw fun p hp => by
    rw [(ha.call.static p).id]
    exact hI₁.cStr_eq (hI₁.known ha hk (ha.call.announced p hp))
  have hf : sv'.disk.orders = sv₁.disk.orders.map f := hf
  rw [hrows] at hf
  have hM' := hM.added hS₁ hI₁ ha hl hstop hnd hold hrw hrow
  have hR' := hM.added_restores ha hl hstop hnd hold hrw hrow rfl hres h.restores
  rw [← hf] at hM' hR'
  have hbooks' : ∀ symbol ∈ sv.config.symbols, (sv'.orderbooks.find? symbol).isSome = true := fun symbol hs => by
    rw [ha.find?, hbooks]
    split_ifs
    · rfl
    · exact h.books symbol hs
  refine ⟨?_, by rw [hcfg]; exact hbooks', hM'⟩
  rw [hcfg]
  refine hM'.replayable hR' hbooks' fun {name x} hx => ?_
  rw [ha.find?] at hx
  split_ifs at hx
  · cases hx
    have hU : Uncrossed b := hM.uncrossed h.toReplayable ha.book
    exact ha.add.uncrossed ha.invAlloc fun kb ka => hU kb ka
  · exact hM.uncrossed h.toReplayable hx

end ReplayInv

section Effects

variable {env : Env} {ev : Event} {sv sv' : Server}

/-- Rows are inserted at the end, with the clock. -/
theorem Effect.createdAt (he : Effect env ev sv sv') :
    (sv'.disk.orders.map (·.createdAt)).Sublist (sv.disk.orders.map (·.createdAt) ++ [nowIso env.now]) := by
  have hsame : ∀ {heap cbs sv₁ sv₂}, Dispatched env heap cbs sv₁ sv₂ →
      sv₂.disk.orders.map (·.createdAt) = sv₁.disk.orders.map (·.createdAt) := fun hd => by
    obtain ⟨f, hf, hf', -⟩ := hd.rows
    rw [hf, List.map_map]
    refine List.map_congr_left fun r _ => ?_
    rcases hf' r with heq | ⟨p, -, -, heq⟩ <;> rw [Function.comp_apply, heq]
    rfl
  have hkeep : ∀ {l}, l = sv.disk.orders.map (·.createdAt) → l.Sublist (sv.disk.orders.map (·.createdAt) ++ [nowIso env.now]) :=
    fun hl => hl ▸ List.sublist_append_left ..
  cases he with
  | quiet hq => exact hkeep (by rw [hq.orders])
  | connected | closed _ | ticked _ | dropped _ => exact hkeep rfl
  | created h₁ _ h₂ => exact hkeep (by rw [h₂.orders]; exact congrArg _ h₁.orders)
  | @submitted _ sv₁ sv₂ s m b out _ _ h₁ ha =>
    obtain ⟨disk, n, heq, hd⟩ := saveSubmission_eq sv₁ env ⟨generateUuid env.uuid, s, m, b.tickSize⟩
      (submittedOrder env m b.tickSize)
    have hrows := hsame ha.dispatched
    rw [heq] at hrows
    have hrows : sv₂.disk.orders.map (·.createdAt) = disk.orders.map (·.createdAt) := hrows
    show (sv₂.disk.orders.map (·.createdAt)).Sublist _
    rw [hrows, ← h₁.orders]
    rcases hd with ⟨hd, -⟩ | ⟨-, hd⟩
    · rw [hd]
      exact List.sublist_append_left ..
    · rw [hd, List.map_append]
      exact (List.filter_sublist.map _).append_right _
  | cancelled _ h₁ _ hc => exact hkeep ((hsame hc.dispatched).trans (congrArg _ h₁.orders))
  | reported _ h₁ _ _ _ => exact hkeep (congrArg _ h₁.orders)
  | generated hg =>
    unfold generate
    rw [hg]
    exact hkeep rfl
  | posted _ ha =>
    have hrows := hsame ha.dispatched
    exact hkeep hrows
  | generatorCancelled h₁ hc => exact hkeep ((hsame hc.dispatched).trans (congrArg _ h₁.orders))
  | restarted hb hr hq =>
    refine hkeep ?_
    rw [hq.orders]
    exact hr.rule (K := fun x => x.disk.orders.map (·.createdAt) = _) (by rw [hb.orders]) fun ha h => (hsame ha.dispatched).trans h

/-- A plain event keeps the invariant, and a restart needs no more than the table. -/
theorem Effect.replayInv (he : Effect env ev sv sv') (hS : Sound sv) (hI : IdInv sv) (hnd : sv'.uuids.Nodup) (hper : env.Persists)
    (hp : Plain sv.config ev) (hR : Replayable sv.config.symbols sv.disk.orders)
    (hsorted : (sv.disk.orders.map (·.createdAt)).Pairwise (· ≤ ·))
    (h : ev ≠ .restart → sv.storeOpen = true ∧ ReplayInv sv) : ReplayInv sv' := by
  cases he with
  | quiet hq hev => exact (h hev).2.quiet hq
  | connected | closed _ => exact (h nofun).2.of_eq rfl rfl rfl
  | created h₁ hnone h₂ hev => exact (((h hev).2.quiet h₁).created hnone).quiet h₂
  | ticked hb => exact (h nofun).2.ticked hb
  | @submitted _ sv₁ sv₂ s m b out hs _ h₁ ha =>
    obtain ⟨ho, hinv⟩ := h nofun
    have hnew := submitted_new ha hnd
    have hs₁ : s < sv₁.nextSession := by rw [h₁.nextSession]; exact hasSession_lt hs
    have hinv' := (hinv.quiet h₁).submitted (h₁.sound hS) (hI.quiet h₁) hs₁ hnew ha (h₁.storeOpen.trans ho) hper.writes hp.1
      (by rw [h₁.config]; exact hp.2)
    exact hinv'.of_eq rfl rfl rfl
  | cancelled _ h₁ _ hc =>
    obtain ⟨ho, hinv⟩ := h nofun
    exact (hinv.quiet h₁).cancelled (h₁.sound hS) (hI.quiet h₁) hc (h₁.storeOpen.trans ho) hper.writes
  | reported _ h₁ _ _ _ => exact ((h nofun).2.quiet h₁).of_eq rfl rfl rfl
  | generated _ | dropped _ | posted _ _ | generatorCancelled _ _ => exact hp.elim
  | restarted hb hr hq => exact ((restored_replayed hR hI hsorted hper hb hr).replayInv hR hI.rowsNodup).quiet hq

end Effects

/-! ## Whole histories -/

/-- The limit book of a symbol: price by price the ids, remainders and statuses, in the order of the queue. -/
def limitBook (sv : Server) (symbol : String) (d : OrderSide) : SortedMap ℚ (List (String × UInt32 × OrderStatus)) :=
  match sv.orderbooks.find? symbol with
  | none => .empty
  | some b => (b.levels d).mapVals fun q => q.map fun p => ((b.heap p).id, (b.heap p).remainingQuantity, (b.heap p).status)

theorem map_eq_of_keys {α β γ δ : Type} {f : α → γ} {g : β → γ} {u : α → δ} {v : β → δ} : ∀ {l : List α} {l' : List β},
    l.map f = l'.map g → (∀ a ∈ l, ∀ b ∈ l', f a = g b → u a = v b) → l.map u = l'.map v
  | [], [], _, _ => rfl
  | [], _ :: _, h, _ => by cases h
  | _ :: _, [], h, _ => by cases h
  | a :: l, b :: l', h, huv => by
    obtain ⟨hab, htail⟩ := List.cons.inj h
    rw [List.map_cons, List.map_cons, huv a List.mem_cons_self b List.mem_cons_self hab]
    refine congrArg _ (map_eq_of_keys htail fun x hx y hy => huv x (List.mem_cons_of_mem _ hx) y (List.mem_cons_of_mem _ hy))

/-- The limit book is what the rows say. -/
theorem ReplayInv.find?_limitBook {sv : Server} (h : ReplayInv sv) (hS : Sound sv) (symbol : String) (d : OrderSide) (k : ℚ) :
    (sv.limitBook symbol d).find? k = if rowsAt sv.disk.orders symbol d k = [] then none else
      some ((rowsAt sv.disk.orders symbol d k).map fun r => (r.id, columnInt r.remainingQuantity, r.status)) := by
  unfold limitBook
  cases hb : sv.orderbooks.find? symbol with
  | none => rw [h.rowsAt_eq_nil hb, if_pos rfl]; rfl
  | some b =>
    dsimp only
    have hq := h.mirrors.queue hb d k
    have hnil : b.queue d k = [] ↔ rowsAt sv.disk.orders symbol d k = [] := by
      rw [← List.map_eq_nil_iff, hq, List.map_eq_nil_iff]
    rw [SortedMap.find?_mapVals, (hS.books hb).find?_levels]
    by_cases h0 : rowsAt sv.disk.orders symbol d k = []
    · rw [if_pos (hnil.2 h0), if_pos h0]
      rfl
    · rw [if_neg (mt hnil.1 h0), if_neg h0, Option.map_some]
      refine congrArg some (map_eq_of_keys hq fun p hp r hr hid => ?_)
      have ha := h.mirrors.agrees hb hp (mem_rowsAt.1 hr).1 hid.symm
      rw [hid, ha.remaining, ha.status]

/-- The invariant of the histories of plain events; the rows are stamped with the clocks of the events. -/
structure ReplayHistory (pre : List (Env × Event)) (sv : Server) : Prop where
  ids : IdInv sv
  table : Replayable sv.config.symbols sv.disk.orders
  sorted : (sv.disk.orders.map (·.createdAt)).Pairwise (· ≤ ·)
  clocks : ∀ t ∈ sv.disk.orders.map (·.createdAt), ∃ e ∈ pre, t = nowIso e.1.now
  inv : pre ≠ [] → ReplayInv sv

theorem ReplayHistory.initial (config : Config) : ReplayHistory [] (initial config) where
  ids := .initial config
  table := ⟨fun _ hr => (by cases hr), fun _ hr => (by cases hr)⟩
  sorted := .nil
  clocks _ ht := by cases ht
  inv h := absurd rfl h

theorem ReplayHistory.step {pre : List (Env × Event)} {env : Env} {ev : Event} {sv sv' : Server} (h : ReplayHistory pre sv)
    (he : Effect env ev sv sv') (hS : Sound sv) (hnd : sv'.uuids.Nodup) (hper : env.Persists) (hp : Plain sv.config ev)
    (hopen : ev ≠ .restart → pre ≠ [] ∧ sv.storeOpen = true) (hclock : ∀ e ∈ pre, e.1.now ≤ env.now) :
    ReplayHistory (pre ++ [(env, ev)]) sv' := by
  have hinv' := he.replayInv hS h.ids hnd hper hp h.table h.sorted fun hev => ⟨(hopen hev).2, h.inv (hopen hev).1⟩
  refine ⟨he.idInv h.ids hnd, hinv'.toReplayable, List.Pairwise.sublist he.createdAt ?_, fun t ht => ?_, fun _ => hinv'⟩
  · refine List.pairwise_append.2 ⟨h.sorted, List.pairwise_singleton _ _, fun t ht t' ht' => ?_⟩
    obtain ⟨e, hmem, rfl⟩ := h.clocks t ht
    rw [List.mem_singleton.1 ht']
    exact Int.ediv_le_ediv (by decide) (hclock e hmem)
  · rcases List.mem_append.1 (he.createdAt.subset ht) with ht | ht
    · obtain ⟨e, hmem, rfl⟩ := h.clocks t ht
      exact ⟨e, List.mem_append_left _ hmem, rfl⟩
    · exact ⟨(env, ev), List.mem_append_right _ (List.mem_singleton.2 rfl), List.mem_singleton.1 ht⟩

/-- In every history of limit and market orders for the configured books, of cancels and of restarts, in which the store
is open, every write succeeds, no id repeats and the clock does not go back: one more restart reports and stores no
trade, and every limit book is after it what it was before. -/
theorem run_replay (config : Config) (env renv : Env) (evs : List (Env × Event)) (hplain : ∀ e ∈ evs, Plain config e.2)
    (hw : ∀ e ∈ (env, Event.restart) :: (evs ++ [(renv, .restart)]), e.1.Persists)
    (hclock : (((env, Event.restart) :: (evs ++ [(renv, .restart)])).map (·.1.now)).Pairwise (· ≤ ·)) :
    ∃ sv sv', run config env evs = some sv ∧ run config env (evs ++ [(renv, .restart)]) = some sv' ∧ (sv.uuids.Nodup →
      sv'.trades = sv.trades ∧ sv'.disk.trades = sv.disk.trades ∧
      ∀ symbol d, sv'.limitBook symbol d = sv.limitBook symbol d) := by
  have hall₀ : (env, Event.restart) :: evs <+: (env, Event.restart) :: (evs ++ [(renv, .restart)]) :=
    List.prefix_append ((env, Event.restart) :: evs) _
  have hall : ∀ e ∈ (env, Event.restart) :: evs, Plain config e.2 := fun e he => by
    rcases List.mem_cons.1 he with rfl | he
    · trivial
    · exact hplain e he
  obtain ⟨sv, hrun, hS, -, -, hK⟩ := run_rule config env evs (K := fun pre sv => sv.config = config ∧
      (pre ≠ [] → sv.storeOpen = true) ∧ (sv.uuids.Nodup → ReplayHistory pre sv))
    ⟨rfl, fun h => absurd rfl h, fun _ => .initial config⟩
    fun pre e ev sv sv' hpre hS hK he _ => by
      obtain ⟨hcfg, hopen, hK⟩ := hK
      have hmem : (e, ev) ∈ (env, Event.restart) :: evs := hpre.subset (List.mem_append_right _ (List.mem_singleton.2 rfl))
      have hper := hw _ (hall₀.subset hmem)
      -- the first event is the first start
      have hfirst : ev ≠ .restart → pre ≠ [] := fun hev hnil => hev <| by
        rw [hnil, List.nil_append] at hpre
        exact congrArg Prod.snd (List.cons_prefix_cons.1 hpre).1
      have hsorted := hclock.sublist ((hpre.trans hall₀).map fun e => e.1.now).sublist
      rw [List.map_append, List.pairwise_append] at hsorted
      refine ⟨he.config.trans hcfg, fun _ => he.storeOpen (fun _ => hper.opens) fun hev => hopen (hfirst hev), fun hnd => ?_⟩
      have hp : Plain sv.config ev := by
        rw [hcfg]
        exact hall _ hmem
      exact (hK (he.uuids.sublist.nodup hnd)).step he hS hnd hper hp
        (fun hev => ⟨hfirst hev, hopen (hfirst hev)⟩)
        fun x hx => hsorted.2.2 _ (List.mem_map_of_mem hx) _ (List.mem_singleton.2 rfl)
  obtain ⟨sv', hrun', he⟩ := step_effect hS renv .restart
  refine ⟨sv, sv', hrun, ?_, fun hnd => ?_⟩
  · unfold run
    rw [← List.cons_append]
    refine Machine.foldlM_append_some.2 ⟨sv, hrun, ?_⟩
    rw [List.foldlM_cons, hrun']
    rfl
  · have hH := hK hnd
    have hS' := he.sound hS
    cases he with
    | quiet _ hev | created _ _ _ hev => exact absurd rfl hev
    | restarted hb hr hq =>
      have hrep := restored_replayed hH.table hH.ids hH.sorted (hw (renv, .restart) (by simp)) hb hr
      have hinv' := (hrep.replayInv hH.table hH.ids.rowsNodup).quiet hq
      refine ⟨hq.trades.trans hrep.trades, hq.tradeRows.trans hrep.tradeRows, fun symbol d => SortedMap.ext_find? fun k => ?_⟩
      rw [hinv'.find?_limitBook hS', (hH.inv nofun).find?_limitBook hS, hq.orders, hrep.orders]

/-- Two sell orders rest at a price and one at another, and the first is bought in part; after a restart a buy order rests. -/
def partlyFilled : List (Env × Event) :=
  [(sampleEnv true 1, .connect), (sampleEnv true 2, .message 0 (sampleSubmit .sell .limit 100 0 5)),
    (sampleEnv true 3, .message 0 (sampleSubmit .sell .limit 100 0 4)),
    (sampleEnv true 4, .message 0 (sampleSubmit .sell .limit 101 0 3)),
    (sampleEnv true 5, .message 0 (sampleSubmit .buy .market 0 0 2)), (sampleEnv true 6, .restart),
    (sampleEnv true 7, .connect), (sampleEnv true 8, .message 1 (sampleSubmit .buy .limit 99 0 1))]

theorem run_replay_partlyFilled : ∃ sv sv', run sampleConfig (sampleEnv true 0) partlyFilled = some sv ∧
    run sampleConfig (sampleEnv true 0) (partlyFilled ++ [(sampleEnv true 9, .restart)]) = some sv' ∧ sv.uuids.Nodup ∧
    (sv.limitBook "SYM" .sell).find? 100 = some [(generateUuid (sampleEnv true 2).uuid, 3, .partialFill),
      (generateUuid (sampleEnv true 3).uuid, 4, .pending)] ∧
    sv'.trades = sv.trades ∧ sv'.disk.trades = sv.disk.trades ∧
    ∀ symbol d, sv'.limitBook symbol d = sv.limitBook symbol d := by
  obtain ⟨sv, sv', hrun, hrun', h⟩ := run_replay sampleConfig (sampleEnv true 0) (sampleEnv true 9) partlyFilled
    (by intro e he; simp only [partlyFilled, List.mem_cons, List.not_mem_nil, or_false] at he
        rcases he with rfl | rfl | rfl | rfl | rfl | rfl | rfl | rfl <;> simp [Plain, sampleSubmit, sampleConfig])
    (by intro e he; simp only [partlyFilled, List.cons_append, List.nil_append, List.mem_cons, List.not_mem_nil, or_false] at he
        rcases he with rfl | rfl | rfl | rfl | rfl | rfl | rfl | rfl | rfl | rfl <;> exact sampleEnv_persists _)
    (by decide +kernel)
  have hstate : (run sampleConfig (sampleEnv true 0) partlyFilled).map (fun sv =>
      (decide sv.uuids.Nodup, (sv.limitBook "SYM" .sell).find? 100)) =
      some (true, some [(generateUuid (sampleEnv true 2).uuid, 3, .partialFill),
        (generateUuid (sampleEnv true 3).uuid, 4, .pending)]) := by decide +kernel
  rw [hrun, Option.map_some, Option.some.injEq, Prod.mk.injEq, decide_eq_true_eq] at hstate
  exact ⟨sv, sv', hrun, hrun', hstate.1, hstate.2, h hstate.1⟩

end Server

end OrderbookGC
