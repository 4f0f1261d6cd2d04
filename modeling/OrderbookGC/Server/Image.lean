/-
The order table as an image of books without stop orders. A row is replaced where it stands and a new one comes last,
and an order keeps its place in its queue and a new one comes last: so the rows of the orders that rest at a price,
in the order of the table, name the queue of that price.
-/
import OrderbookGC.Book.Plain
import OrderbookGC.Server.Durable

namespace OrderbookGC

open Container OrderBook MatchState

/-! ## Rows that wait -/

/-- A row a restart makes an order of that the book does not refuse. -/
def OrderRow.Waits (r : OrderRow) : Prop := Db.isActive r = true ∧ columnInt r.remainingQuantity ≠ 0

instance (r : OrderRow) : Decidable r.Waits := inferInstanceAs (Decidable (_ ∧ _))

/-- The rows that wait at a price of a book. -/
def rowsAt (rows : List OrderRow) (symbol : String) (d : OrderSide) (k : ℚ) : List OrderRow :=
  rows.filter fun r => r.Waits ∧ r.symbol = symbol ∧ r.side = d ∧ r.price = k

theorem mem_rowsAt {rows : List OrderRow} {symbol : String} {d : OrderSide} {k : ℚ} {r : OrderRow} :
    r ∈ rowsAt rows symbol d k ↔ r ∈ rows ∧ r.Waits ∧ r.symbol = symbol ∧ r.side = d ∧ r.price = k := by
  unfold rowsAt
  rw [List.mem_filter, decide_eq_true_eq]

theorem rowsAt_append (l l' : List OrderRow) (symbol : String) (d : OrderSide) (k : ℚ) :
    rowsAt (l ++ l') symbol d k = rowsAt l symbol d k ++ rowsAt l' symbol d k := List.filter_append ..

/-- Rows that keep their ids, and that wait exactly when they waited and their ids are among those kept. -/
theorem rowsAt_map {rows : List OrderRow} {symbol : String} {d : OrderSide} {k : ℚ} {f : OrderRow → OrderRow}
    (kept : String → Bool) (hid : ∀ r, (f r).id = r.id)
    (h : ∀ r ∈ rows, f r ∈ rowsAt (rows.map f) symbol d k ↔ r ∈ rowsAt rows symbol d k ∧ kept r.id = true) :
    (rowsAt (rows.map f) symbol d k).map (·.id) = ((rowsAt rows symbol d k).map (·.id)).filter kept := by
  unfold rowsAt at h ⊢
  rw [List.filter_map, List.map_map, List.filter_map, List.filter_filter]
  have hids : (fun r : OrderRow => r.id) ∘ f = fun r => r.id := funext hid
  rw [hids]
  refine congrArg (List.map _) (List.filter_congr fun r hr => ?_)
  have := h r hr
  simp only [List.mem_filter, List.mem_map_of_mem hr, hr, true_and, decide_eq_true_eq] at this
  rw [Bool.eq_iff_iff]
  simp only [Function.comp_apply, Bool.and_eq_true, decide_eq_true_eq]
  rw [this, and_comm]

/-- A row rewritten from an order waits when the order is live. -/
theorem update_waits (r : OrderRow) (o : Order ℚ) : (Db.OrderRow.update r o).Waits ↔ o.Live := by
  unfold OrderRow.Waits
  show (o.status = .pending || o.status = .partialFill) = true ∧ columnInt (bindInt o.remainingQuantity) ≠ 0 ↔ o.Live
  rw [columnInt_bindInt, Bool.or_eq_true, decide_eq_true_eq, decide_eq_true_eq]
  exact ⟨fun h => ⟨h.1, UInt32.pos_iff_ne_zero.2 h.2⟩, fun h => ⟨h.status, UInt32.pos_iff_ne_zero.1 h.remaining⟩⟩

/-! ## The rows of one call -/

/-- The rows of the announced orders are rewritten from them, and no others. -/
def Rewrites (heap : OrderPtr → Order ℚ) (cbs : List (Callback ℚ)) (f : OrderRow → OrderRow) : Prop := ∀ r,
  (f r = r ∧ ∀ p, .order p ∈ cbs → r.id ≠ (heap p).id) ∨
    ∃ p, .order p ∈ cbs ∧ r.id = (heap p).id ∧ f r = Db.OrderRow.update r (heap p)

theorem Rewrites.id {heap : OrderPtr → Order ℚ} {cbs : List (Callback ℚ)} {f : OrderRow → OrderRow} (h : Rewrites heap cbs f)
    (r : OrderRow) : (f r).id = r.id := by
  rcases h r with ⟨heq, -⟩ | ⟨p, -, -, heq⟩ <;> rw [heq]
  rfl

namespace Server

theorem Dispatched.rewrites {env : Env} {heap : OrderPtr → Order ℚ} {cbs : List (Callback ℚ)} {sv sv' : Server}
    (hd : Dispatched env heap cbs sv sv') (ho : sv.storeOpen = true) (hw : ∀ n, env.writeOk n = true)
    (hid : ∀ p, .order p ∈ cbs → cStr (heap p).id = (heap p).id) :
    ∃ f, sv'.disk.orders = sv.disk.orders.map f ∧ Rewrites heap cbs f := by
  obtain ⟨f, hf, hf', hfok⟩ := hd.rows
  refine ⟨f, hf, fun r => ?_⟩
  by_cases hex : ∃ p, .order p ∈ cbs ∧ r.id = (heap p).id
  · obtain ⟨p, hp, hr⟩ := hex
    obtain ⟨q, hq, hrq, heq⟩ := hfok ho hw r p hp (by rw [hid p hp]; exact hr)
    exact .inr ⟨q, hq, by rw [hid q hq] at hrq; exact hrq, heq⟩
  · refine .inl ⟨(hf' r).resolve_right fun ⟨p, hp, hr, _⟩ => hex ⟨p, hp, by rw [hid p hp] at hr; exact hr⟩, fun p hp hr => hex ⟨p, hp, hr⟩⟩

/-! ## Mirrors -/

/-- What a row says of the order it was written from. -/
structure Agrees (r : OrderRow) (o : Order ℚ) : Prop where
  status : r.status = o.status
  remaining : columnInt r.remainingQuantity = o.remainingQuantity

theorem agrees_update (r : OrderRow) (o : Order ℚ) : Agrees (Db.OrderRow.update r o) o := ⟨rfl, columnInt_bindInt _⟩

/-- The row of an order that is about to be added to its book. -/
structure RowOf (r : OrderRow) (o : Order ℚ) : Prop where
  id : r.id = o.id
  symbol : r.symbol = o.symbol
  side : r.side = o.side
  price : r.price = o.price
  remaining : columnInt r.remainingQuantity = o.remainingQuantity

/-- The books hold the orders of the rows that wait and no others, in the order of the rows. -/
structure Mirrors (rows : List OrderRow) (sv : Server) : Prop where
  noStops : ∀ {symbol b}, sv.orderbooks.find? symbol = some b → NoStops b
  queue : ∀ {symbol b}, sv.orderbooks.find? symbol = some b → ∀ d k,
    (b.queue d k).map (fun p => (b.heap p).id) = (rowsAt rows symbol d k).map (·.id)
  agrees : ∀ {symbol b}, sv.orderbooks.find? symbol = some b → ∀ {d k p r}, p ∈ b.queue d k → r ∈ rows →
    r.id = (b.heap p).id → Agrees r (b.heap p)

namespace Mirrors

variable {rows : List OrderRow} {sv sv' : Server} {symbol : String} {b : OrderBook ℚ} {d : OrderSide} {k : ℚ} {p : OrderPtr}
  {r : OrderRow}

theorem of_orderbooks (h : Mirrors rows sv) (hb : sv'.orderbooks = sv.orderbooks) : Mirrors rows sv' :=
  ⟨fun hx => h.noStops (hb ▸ hx), fun hx => h.queue (hb ▸ hx), fun hx => h.agrees (hb ▸ hx)⟩

theorem row_of_queue (h : Mirrors rows sv) (hb : sv.orderbooks.find? symbol = some b) (hp : p ∈ b.queue d k) :
    ∃ r ∈ rowsAt rows symbol d k, r.id = (b.heap p).id :=
  List.mem_map.1 (h.queue hb d k ▸ List.mem_map_of_mem (f := fun p => (b.heap p).id) hp)

theorem queue_of_row (h : Mirrors rows sv) (hb : sv.orderbooks.find? symbol = some b) (hr : r ∈ rowsAt rows symbol d k) :
    ∃ p ∈ b.queue d k, (b.heap p).id = r.id :=
  List.mem_map.1 (h.queue hb d k ▸ List.mem_map_of_mem (f := fun r : OrderRow => r.id) hr)

/-- The row with the id of a resting order waits at its price. -/
theorem rowsAt_of_queue (h : Mirrors rows sv) (hnd : (rows.map (·.id)).Nodup) (hb : sv.orderbooks.find? symbol = some b)
    (hp : p ∈ b.queue d k) (hr : r ∈ rows) (hid : r.id = (b.heap p).id) : r ∈ rowsAt rows symbol d k := by
  obtain ⟨x, hx, hxid⟩ := h.row_of_queue hb hp
  rwa [List.inj_on_of_nodup_map hnd hr (mem_rowsAt.1 hx).1 (hid.trans hxid.symm)]

theorem queue_of_held (h : Mirrors rows sv) (hb : sv.orderbooks.find? symbol = some b) (hp : b.Held p) :
    ∃ d k, p ∈ b.queue d k :=
  hp.resolve_right fun ⟨d, k, hk⟩ => by rw [h.noStops hb] at hk; cases hk

end Mirrors

section Added

variable {env : Env} {o : Order ℚ} {b : OrderBook ℚ} {out : AddOutcome ℚ} {sv sv' : Server}

/-- A call with something to add, under an id that is not live, is not refused. -/
theorem Added.accepted_iff (ha : Added env o b out sv sv') (hl : ¬ sv.Live o.id) :
    out.accepted = true ↔ o.remainingQuantity ≠ 0 := by
  have hfree : b.ordersById.find? o.id = none := by
    cases hf : b.ordersById.find? o.id with
    | none => rfl
    | some p => exact absurd ⟨o.symbol, b, p, ha.book, hf⟩ hl
  have hlive := ha.call.live
  have hadd := ha.add
  rw [alloc_heap_self] at hlive
  constructor
  · exact fun hacc => UInt32.pos_iff_ne_zero.1 (hlive hacc).remaining
  · intro h0
    cases hadd with
    | refused h =>
      rw [alloc_heap_self] at h
      refine absurd h (not_or.2 ⟨h0, fun ⟨p, hp⟩ => ?_⟩)
      cases hfree.symm.trans hp
    | stopped _ _ _ | matched _ _ _ _ => rfl

/-- In an accepted call, the row of an announced order waits after it exactly when the order is in the book. -/
theorem Added.waits_iff (ha : Added env o b out sv sv') (hacc : out.accepted = true) {p : OrderPtr} (hp : b.Held p ∨ p = b.nextPtr)
    (r : OrderRow) : (Db.OrderRow.update r (out.state.heap p)).Waits ↔ out.state.Held p := by
  rw [update_waits]
  exact ⟨fun hl => (ha.call.fate hacc p hp).resolve_right hl.not_finished, ha.call.inv.live⟩

theorem Added.announces (ha : Added env o b out sv sv') (hacc : out.accepted = true) : .order b.nextPtr ∈ out.callbacks := by
  rw [(ha.add.changes ha.invAlloc hacc).callbacks]
  exact mem_fireCallbacks.2 (.inr rfl)

/-- The index tells which orders of the call are in the book after it. -/
theorem Added.kept_iff (ha : Added env o b out sv sv') (hacc : out.accepted = true) {p : OrderPtr} (hp : b.Held p ∨ p = b.nextPtr) :
    (out.state.getOrder ((b.alloc o).2.heap p).id).isSome = true ↔ out.state.Held p := by
  have hcall := ha.call
  rw [Option.isSome_iff_exists]
  constructor
  · rintro ⟨q, hq⟩
    obtain ⟨hid, hheld | hF⟩ := hcall.inv.index.1 hq
    · rw [(hcall.static q).id] at hid
      exact hcall.eq_of_id ha.invAlloc hacc (hcall.held q hheld) hp hid ▸ hheld
    · cases hF
  · exact fun hheld => ⟨p, hcall.inv.index.2 ⟨(hcall.static p).id, .inl hheld⟩⟩

/-- A resting order stays in the book when it has something left. -/
theorem Added.held_iff (ha : Added env o b out sv sv') (hacc : out.accepted = true) {p : OrderPtr} {d : OrderSide} {k : ℚ}
    (hp : p ∈ b.queue d k) : out.state.Held p ↔ (out.state.heap p).remainingQuantity ≠ 0 := by
  have hheld : b.Held p := .inl ⟨d, k, hp⟩
  have hheap : (b.alloc o).2.heap p = b.heap p := alloc_heap_of_ne (Nat.ne_of_lt (ha.inv.alloc (.inl hheld)))
  constructor
  · exact fun h => UInt32.pos_iff_ne_zero.1 (ha.call.inv.live h).remaining
  · refine ha.add.held_of_priced ha.inv ha.invAlloc hacc (.inl hheld) ?_ ?_
    · rw [hheap]; exact ha.inv.live hheld
    · rw [hheap]; exact .inl (ha.inv.rest hp).2.2

end Added

namespace Mirrors

section Call

variable {env : Env} {o : Order ℚ} {b : OrderBook ℚ} {out : AddOutcome ℚ} {sv sv' : Server} {done : List OrderRow} {r₀ : OrderRow}
  {f : OrderRow → OrderRow}

theorem plain (h : Mirrors done sv) (ha : Added env o b out sv sv') (hs : out.accepted = true → o.isStopOrder = false) :
    NoStops out.state.toOrderBook ∧ (out.accepted = true → ∀ d k, out.state.queue d k =
      remaining out.state.heap (b.queue d k) ++ restsIn out.state.heap b.nextPtr d k) :=
  ha.add.plain ha.invAlloc (fun d k => h.noStops ha.book d k) fun hacc => by rw [alloc_heap_self]; exact hs hacc

/-- An earlier row that a call rewrites is the row of an order that rested in its book. -/
theorem announced (h : Mirrors done sv) (ha : Added env o b out sv sv') (hnd : (done.map (·.id)).Nodup)
    (hnew : ∀ r ∈ done, r.id ≠ o.id) {p : OrderPtr} {r : OrderRow} (hp : .order p ∈ out.callbacks) (hr : r ∈ done)
    (hid : r.id = (out.state.heap p).id) :
    ∃ d k, p ∈ b.queue d k ∧ (b.heap p).id = r.id ∧ r ∈ rowsAt done o.symbol d k := by
  rw [(ha.call.static p).id] at hid
  have hne : p ≠ b.nextPtr := fun he => hnew r hr (by rw [hid, he, alloc_heap_self])
  rw [alloc_heap_of_ne hne] at hid
  obtain ⟨d, k, hk⟩ := h.queue_of_held ha.book ((ha.call.announced p hp).resolve_right hne)
  exact ⟨d, k, hk, hid.symm, h.rowsAt_of_queue hnd ha.book hk hr hid⟩

/-- The earlier rows that wait after an accepted call are those whose orders it leaves in the book. -/
theorem kept_rows (h : Mirrors done sv) (ha : Added env o b out sv sv') (hnd : (done.map (·.id)).Nodup)
    (hnew : ∀ r ∈ done, r.id ≠ o.id) (hf : Rewrites out.state.heap out.callbacks f)
    (hacc : out.accepted = true) (d : OrderSide) (k : ℚ) {r : OrderRow} (hr : r ∈ done) :
    f r ∈ rowsAt (done.map f) o.symbol d k ↔ r ∈ rowsAt done o.symbol d k ∧ (out.state.getOrder r.id).isSome = true := by
  have hheap : ∀ {d k p}, p ∈ b.queue d k → (b.alloc o).2.heap p = b.heap p := fun hp =>
    alloc_heap_of_ne (Nat.ne_of_lt (ha.inv.alloc (.inl (.inl ⟨_, _, hp⟩))))
  have hkept : ∀ {d k p}, p ∈ b.queue d k → ((out.state.getOrder (b.heap p).id).isSome = true ↔ out.state.Held p) := fun hp => by
    rw [← hheap hp]
    exact ha.kept_iff hacc (.inl (.inl ⟨_, _, hp⟩))
  rcases hf r with ⟨heq, hno⟩ | ⟨p, hp, hid, heq⟩
  · -- the order of the row has all it had
    have hmem : f r ∈ rowsAt (done.map f) o.symbol d k ↔ r ∈ rowsAt done o.symbol d k := by
      rw [mem_rowsAt, mem_rowsAt, heq]
      exact and_congr_left fun _ => iff_of_true (List.mem_map.2 ⟨r, hr, heq⟩) hr
    rw [hmem]
    refine (and_iff_left_of_imp fun hw => ?_).symm
    obtain ⟨p, hp, hid⟩ := h.queue_of_row ha.book hw
    have hsame : out.state.heap p = b.heap p := by
      rw [← hheap hp]
      refine ha.add.unchanged ha.invAlloc (fun d k => h.noStops ha.book d k) fun hcb => hno p hcb ?_
      rw [(ha.call.static p).id, hheap hp, hid]
    rw [← hid, hkept hp, ha.held_iff hacc hp, hsame]
    exact UInt32.pos_iff_ne_zero.1 (ha.inv.live_of_mem_queue hp).remaining
  · obtain ⟨d', k', hk, hpid, hw⟩ := h.announced ha hnd hnew hp hr hid
    rw [mem_rowsAt, heq, ha.waits_iff hacc (.inl (.inl ⟨_, _, hk⟩)), ← hkept hk, hpid]
    have hmem : Db.OrderRow.update r (out.state.heap p) ∈ done.map f := List.mem_map.2 ⟨r, hr, heq⟩
    rw [mem_rowsAt] at hw ⊢
    constructor
    · rintro ⟨-, hk', h1, h2, h3⟩
      exact ⟨⟨hr, hw.2.1, h1, h2, h3⟩, hk'⟩
    · rintro ⟨⟨-, -, h1, h2, h3⟩, hk'⟩
      exact ⟨hmem, hk', h1, h2, h3⟩

/-- What an accepted call leaves of a queue is what the index keeps of it. -/
theorem kept_queue (ha : Added env o b out sv sv') (hacc : out.accepted = true) (d : OrderSide) (k : ℚ) :
    (remaining out.state.heap (b.queue d k)).map (fun p => (out.state.heap p).id) =
      ((b.queue d k).map fun p => (b.heap p).id).filter fun id => (out.state.getOrder id).isSome := by
  have hid : ∀ p ∈ b.queue d k, (out.state.heap p).id = (b.heap p).id := fun p hp => by
    rw [(ha.call.static p).id, alloc_heap_of_ne (Nat.ne_of_lt (ha.inv.alloc (.inl (.inl ⟨_, _, hp⟩))))]
  unfold remaining
  rw [List.filter_map, List.map_congr_left fun p hp => hid p (List.mem_of_mem_filter hp)]
  refine congrArg (List.map _) (List.filter_congr fun p hp => ?_)
  have hheld : b.Held p := .inl ⟨_, _, hp⟩
  have hk := ha.kept_iff hacc (.inl hheld)
  rw [alloc_heap_of_ne (Nat.ne_of_lt (ha.inv.alloc (.inl hheld))), ha.held_iff hacc hp] at hk
  rw [Bool.eq_iff_iff, decide_eq_true_eq]
  exact hk.symm

/-- The row of the incoming order waits after an accepted call exactly when the order rests. -/
theorem rested_row (h : Mirrors done sv) (ha : Added env o b out sv sv')
    (hs : out.accepted = true → o.isStopOrder = false) (hf : Rewrites out.state.heap out.callbacks f) (hacc : out.accepted = true) (hr₀ : RowOf r₀ o) (d : OrderSide) (k : ℚ) :
    (restsIn out.state.heap b.nextPtr d k).map (fun p => (out.state.heap p).id) =
      (rowsAt [f r₀] o.symbol d k).map (·.id) := by
  have hcall := ha.call
  have hcb := ha.announces hacc
  have hself : (out.state.heap b.nextPtr).id = o.id := by rw [(hcall.static _).id, alloc_heap_self]
  have heq : f r₀ = Db.OrderRow.update r₀ (out.state.heap b.nextPtr) := by
    rcases hf r₀ with ⟨-, hno⟩ | ⟨p, hp, hpid, heq⟩
    · exact absurd (hr₀.id.trans hself.symm) (hno _ hcb)
    · rw [hr₀.id, (hcall.static p).id] at hpid
      rw [heq, hcall.eq_of_id ha.invAlloc hacc (hcall.announced p hp) (.inr rfl) (by rw [← hpid, alloc_heap_self])]
  have hrests : (out.state.heap b.nextPtr).remainingQuantity ≠ 0 ∧ (out.state.heap b.nextPtr).orderType = .limit ↔
      (f r₀).Waits := by
    rw [heq, ha.waits_iff hacc (.inr rfl)]
    constructor
    · rintro ⟨hrem, hlim⟩
      have hprice : ((b.alloc o).2.heap b.nextPtr).Priced := (hcall.priced _).1 (.inl hlim)
      exact ha.add.held_of_priced ha.inv ha.invAlloc hacc (.inr rfl) (hcall.live hacc) hprice hrem
    · intro hheld
      have hplain := h.plain ha hs
      obtain ⟨d', k', hk⟩ := hheld.resolve_right fun ⟨d', k', hk⟩ => by rw [hplain.1] at hk; cases hk
      exact ⟨UInt32.pos_iff_ne_zero.1 (hcall.inv.live hheld).remaining, (hcall.inv.rest hk).2.2⟩
  have hplace : (f r₀).symbol = o.symbol ∧ (f r₀).side = (out.state.heap b.nextPtr).side ∧
      (f r₀).price = (out.state.heap b.nextPtr).price := by
    rw [heq, (hcall.static _).side, (hcall.static _).price, alloc_heap_self]
    exact ⟨hr₀.symbol, hr₀.side, hr₀.price⟩
  obtain ⟨h1, h2, h3⟩ := hplace
  unfold restsIn
  by_cases hc : f r₀ ∈ rowsAt [f r₀] o.symbol d k
  · have hall : rowsAt [f r₀] o.symbol d k = [f r₀] := List.filter_eq_self.2 fun r hr => by
      rw [List.mem_singleton.1 hr]
      exact (List.mem_filter.1 hc).2
    obtain ⟨-, hw, -, hd, hk⟩ := mem_rowsAt.1 hc
    obtain ⟨hrem, hlim⟩ := hrests.2 hw
    rw [if_pos ⟨hrem, hlim, h2 ▸ hd, h3 ▸ hk⟩, hall, List.map_singleton, List.map_singleton, hself, hf.id, hr₀.id]
  · have hnone : rowsAt [f r₀] o.symbol d k = [] := List.filter_eq_nil_iff.2 fun r hr hw => hc <| by
      rw [List.mem_singleton.1 hr] at hw
      exact List.mem_filter.2 ⟨List.mem_singleton.2 rfl, hw⟩
    rw [hnone, if_neg]
    · rfl
    · rintro ⟨hrem, hlim, hd, hk⟩
      exact hc (mem_rowsAt.2 ⟨List.mem_singleton.2 rfl, hrests.1 ⟨hrem, hlim⟩, h1, h2.trans hd, h3.trans hk⟩)

/-- The queues of the book of a call. -/
theorem own_queue (h : Mirrors done sv) (ha : Added env o b out sv sv') (hl : ¬ sv.Live o.id)
    (hs : out.accepted = true → o.isStopOrder = false) (hnd : (done.map (·.id)).Nodup) (hnew : ∀ r ∈ done, r.id ≠ o.id) (hf : Rewrites out.state.heap out.callbacks f)
    (hr₀ : RowOf r₀ o) (d : OrderSide) (k : ℚ) : (out.state.queue d k).map (fun p => (out.state.heap p).id) =
      (rowsAt ((done ++ [r₀]).map f) o.symbol d k).map (·.id) := by
  rw [List.map_append, List.map_singleton, rowsAt_append, List.map_append]
  cases hacc : out.accepted with
  | true =>
    have hplain := h.plain ha hs
    have hrows := rowsAt_map (fun id => (out.state.getOrder id).isSome) hf.id fun r hr =>
      h.kept_rows ha hnd hnew hf hacc d k hr
    rw [hplain.2 hacc, List.map_append, h.rested_row ha hs hf hacc hr₀, hrows, ← h.queue ha.book]
    exact congrArg (· ++ _) (kept_queue ha hacc d k)
  | false =>
    -- nothing has changed, and the row has nothing left
    obtain ⟨hst, hcb⟩ := ha.call.refused hacc
    have hsame : ∀ r, f r = r := fun r => (hf r).elim (·.1) fun ⟨p, hp, _⟩ => by rw [hcb] at hp; cases hp
    have h0 : o.remainingQuantity = 0 := by
      by_contra h0
      rw [(ha.accepted_iff hl).2 h0] at hacc
      cases hacc
    have hnone : rowsAt [f r₀] o.symbol d k = [] := List.filter_eq_nil_iff.2 fun r hr => by
      rw [List.mem_singleton.1 hr, hsame, decide_eq_true_eq]
      exact fun hw => hw.1.2 (hr₀.remaining.trans h0)
    rw [hnone, List.map_nil, List.append_nil, List.map_congr_left fun r _ => hsame r, List.map_id', ← h.queue ha.book, hst]
    exact List.map_congr_left fun p hp =>
      congrArg Order.id (alloc_heap_of_ne (Nat.ne_of_lt (ha.inv.alloc (.inl (.inl ⟨_, _, hp⟩)))))

/-- The rows of the other books are not of the call. -/
theorem other_queue (h : Mirrors done sv) (ha : Added env o b out sv sv') (hnd : (done.map (·.id)).Nodup)
    (hnew : ∀ r ∈ done, r.id ≠ o.id) (hf : Rewrites out.state.heap out.callbacks f) (hr₀ : RowOf r₀ o) {symbol : String}
    (hname : symbol ≠ o.symbol) (d : OrderSide) (k : ℚ) :
    (rowsAt ((done ++ [r₀]).map f) symbol d k).map (·.id) = (rowsAt done symbol d k).map (·.id) := by
  have hsym : (f r₀).symbol = r₀.symbol := by
    rcases hf r₀ with ⟨heq, -⟩ | ⟨p, -, -, heq⟩ <;> rw [heq]
    rfl
  have hnone : rowsAt [f r₀] symbol d k = [] := List.filter_eq_nil_iff.2 fun r hr => by
    rw [List.mem_singleton.1 hr, decide_eq_true_eq]
    rintro ⟨-, hsy, -⟩
    exact hname (hsy.symm.trans (hsym.trans hr₀.symbol))
  rw [List.map_append, List.map_singleton, rowsAt_append, hnone, List.append_nil]
  refine (rowsAt_map (fun _ => true) hf.id fun r hr => ?_).trans (List.filter_true _)
  rw [and_iff_left rfl, mem_rowsAt, mem_rowsAt]
  rcases hf r with ⟨heq, -⟩ | ⟨p, hp, hpid, heq⟩
  · rw [heq]
    exact and_congr_left fun _ => iff_of_true (List.mem_map.2 ⟨r, hr, heq⟩) hr
  · obtain ⟨d', k', -, -, hw⟩ := h.announced ha hnd hnew hp hr hpid
    have hsy := (mem_rowsAt.1 hw).2.2.1
    rw [heq]
    exact iff_of_false (fun hc => hname (hc.2.2.1.symm.trans hsy)) fun hc => hname (hc.2.2.1.symm.trans hsy)

/-- The rows of resting orders say after a call what the orders say. -/
theorem added_agrees (h : Mirrors done sv) (hS : Sound sv) (hI : IdInv sv) (ha : Added env o b out sv sv')
    (hl : ¬ sv.Live o.id) (hf : Rewrites out.state.heap out.callbacks f) (hr₀ : RowOf r₀ o) {symbol : String} {x : OrderBook ℚ}
    (hx : sv'.orderbooks.find? symbol = some x) {d : OrderSide} {k : ℚ} {p : OrderPtr} (hp : p ∈ x.queue d k) {r : OrderRow}
    (hr : r ∈ done ∨ r = r₀) (hid : r.id = (x.heap p).id) : Agrees (f r) (x.heap p) := by
  have hcall := ha.call
  have hold : ∀ {p}, b.Held p → (b.alloc o).2.heap p = b.heap p := fun hp => alloc_heap_of_ne (Nat.ne_of_lt (ha.inv.alloc (.inl hp)))
  -- a live order is not the incoming one, so its row is one of the earlier
  have hdone : sv.Live r.id → r ∈ done := fun hlive => hr.resolve_right fun he => hl (by rw [← hr₀.id, ← he]; exact hlive)
  rw [ha.find?] at hx
  by_cases hname : symbol = o.symbol
  · rw [if_pos hname] at hx
    cases hx
    have hp' := hcall.held p (.inl ⟨_, _, hp⟩)
    rcases hf r with ⟨heq, hno⟩ | ⟨q, hq, hqid, heq⟩
    · have hnot : .order p ∉ out.callbacks := fun hcb => hno p hcb hid
      have hheld : b.Held p := hp'.resolve_right fun he => by
        subst he
        cases hacc : out.accepted with
        | true => exact hnot (ha.announces hacc)
        | false =>
          rw [(hcall.refused hacc).1] at hp
          exact Nat.lt_irrefl _ (ha.inv.alloc (.inl (.inl ⟨d, k, hp⟩)))
      have hsame : out.state.heap p = b.heap p :=
        (ha.add.unchanged ha.invAlloc (fun d k => h.noStops ha.book d k) hnot).trans (hold hheld)
      obtain ⟨d', k', hk⟩ := h.queue_of_held ha.book hheld
      rw [hsame] at hid ⊢
      rw [heq]
      exact h.agrees ha.book hk (hdone (hid ▸ live_of_held ha.book ha.inv hheld)) hid
    · rw [hid, (hcall.static p).id, (hcall.static q).id] at hqid
      rw [heq, hcall.eq_of_id ha.invAlloc (hcall.accepted_of_mem hq) hp' (hcall.announced q hq) hqid]
      exact agrees_update ..
  · rw [if_neg hname] at hx
    have hheld : x.Held p := .inl ⟨_, _, hp⟩
    have hlive : sv.Live r.id := hid ▸ live_of_held hx (hS.books hx) hheld
    rcases hf r with ⟨heq, -⟩ | ⟨q, hq, hqid, -⟩
    · rw [heq]
      exact h.agrees hx hp (hdone hlive) hid
    · -- an order of another book is not announced
      rw [(hcall.static q).id] at hqid
      by_cases he : q = b.nextPtr
      · rw [he, alloc_heap_self] at hqid
        exact absurd (hqid ▸ hlive) hl
      · rw [alloc_heap_of_ne he] at hqid
        have hq' : b.Held q := (hcall.announced q hq).resolve_right he
        exact absurd (hI.oneBook hx ((hS.books hx).index.2 ⟨hid.symm, .inl hheld⟩) ha.book
          (ha.inv.index.2 ⟨hqid.symm, .inl hq'⟩)) hname

/-- A call on a book without stop orders, of an order whose row comes after the rows of the books. -/
theorem added (h : Mirrors done sv) (hS : Sound sv) (hI : IdInv sv) (ha : Added env o b out sv sv') (hl : ¬ sv.Live o.id)
    (hs : out.accepted = true → o.isStopOrder = false) (hnd : (done.map (·.id)).Nodup) (hnew : ∀ r ∈ done, r.id ≠ o.id)
    (hf : Rewrites out.state.heap out.callbacks f) (hr₀ : RowOf r₀ o) : Mirrors ((done ++ [r₀]).map f) sv' := by
  refine ⟨fun {symbol x} hx => ?_, fun {symbol x} hx d k => ?_, fun {symbol x} hx {d k p r} hp hr hid => ?_⟩
  · rw [ha.find?] at hx
    split_ifs at hx
    · cases hx
      exact (h.plain ha hs).1
    · exact h.noStops hx
  · rw [ha.find?] at hx
    by_cases hname : symbol = o.symbol
    · rw [if_pos hname] at hx
      cases hx
      exact hname ▸ h.own_queue ha hl hs hnd hnew hf hr₀ d k
    · rw [if_neg hname] at hx
      exact (h.queue hx d k).trans (h.other_queue ha hnd hnew hf hr₀ hname d k).symm
  · obtain ⟨r, hr', rfl⟩ := List.mem_map.1 hr
    rw [hf.id] at hid
    exact h.added_agrees hS hI ha hl hf hr₀ hx hp ((List.mem_append.1 hr').imp_right List.mem_singleton.1) hid

end Call

section Cancel

variable {env : Env} {rows : List OrderRow} {sv sv' : Server} {symbol id : String} {b b' : OrderBook ℚ} {p : OrderPtr}
  {f : OrderRow → OrderRow}

theorem cancelled_keeps (hc : Cancelled env symbol id b p b' sv sv') (hf : Rewrites b'.heap [.order p] f) {r : OrderRow}
    (hr : r.id ≠ id) : f r = r := by
  rcases hf r with ⟨heq, -⟩ | ⟨q, hq, hid, -⟩
  · exact heq
  · rw [Callback.order.inj (List.mem_singleton.1 hq), (hc.cancel.static p).id, hc.cancel.id] at hid
    exact absurd hid hr

theorem cancelled_gone (hc : Cancelled env symbol id b p b' sv sv') (hf : Rewrites b'.heap [.order p] f) {r : OrderRow}
    (hr : r.id = id) : ¬ (f r).Waits := by
  rcases hf r with ⟨-, hno⟩ | ⟨q, hq, -, heq⟩
  · have := hno p (List.mem_singleton.2 rfl)
    rw [(hc.cancel.static p).id, hc.cancel.id] at this
    exact absurd hr this
  · rw [heq, update_waits, Callback.order.inj (List.mem_singleton.1 hq), hc.cancel.heap, Function.update_self]
    exact fun hl => hl.not_finished (.inr rfl)

/-- The order of a successful cancel is in one book. -/
theorem cancelled_ne (hS : Sound sv) (hI : IdInv sv) (hc : Cancelled env symbol id b p b' sv sv') {name : String}
    {x : OrderBook ℚ} (hx : sv.orderbooks.find? name = some x) (hname : name ≠ symbol) {d : OrderSide} {k : ℚ} {q : OrderPtr}
    (hq : q ∈ x.queue d k) : (x.heap q).id ≠ id := fun hid =>
  hname (hI.oneBook hx ((hS.books hx).index.2 ⟨hid, .inl (.inl ⟨_, _, hq⟩)⟩) hc.book
    (hc.inv.index.2 ⟨hc.cancel.id, .inl hc.cancel.held⟩))

/-- A cancel takes its row from those that wait. -/
theorem cancelled_rows (hc : Cancelled env symbol id b p b' sv sv') (hf : Rewrites b'.heap [.order p] f) (name : String)
    (d : OrderSide) (k : ℚ) : (rowsAt (rows.map f) name d k).map (·.id) =
      ((rowsAt rows name d k).map (·.id)).filter fun i => i ≠ id := by
  refine rowsAt_map (fun i => i ≠ id) hf.id fun r hr => ?_
  rw [mem_rowsAt, decide_eq_true_eq]
  by_cases hid : r.id = id
  · exact iff_of_false (fun h => cancelled_gone hc hf hid h.2.1) fun h => h.2 hid
  · rw [and_iff_left hid, mem_rowsAt]
    have heq := cancelled_keeps hc hf hid
    rw [heq]
    exact and_congr_left fun _ => iff_of_true (List.mem_map.2 ⟨r, hr, heq⟩) hr

theorem cancelled (h : Mirrors rows sv) (hS : Sound sv) (hI : IdInv sv) (hc : Cancelled env symbol id b p b' sv sv')
    (hf : Rewrites b'.heap [.order p] f) : Mirrors (rows.map f) sv' := by
  have hid : ∀ q, (b'.heap q).id = (b.heap q).id := fun q => (hc.cancel.static q).id
  refine ⟨fun {name x} hx => ?_, fun {name x} hx d k => ?_, fun {name x} hx {d k q r} hq hr hrq => ?_⟩
  · rw [hc.find?] at hx
    split_ifs at hx
    · cases hx
      intro d k
      rw [hc.cancel.stopQueue, h.noStops hc.book]
      rfl
    · exact h.noStops hx
  · rw [cancelled_rows hc hf]
    rw [hc.find?] at hx
    by_cases hname : name = symbol
    · rw [if_pos hname] at hx
      cases hx
      rw [hname, ← h.queue hc.book, List.filter_map, hc.cancel.queue, (hc.inv.nodup d k).erase_eq_filter,
        List.map_congr_left fun q _ => hid q]
      refine congrArg (List.map _) (List.filter_congr fun q hq => ?_)
      -- the orders of the book are told apart by their ids
      rw [Function.comp_apply, Bool.eq_iff_iff, bne_iff_ne, decide_eq_true_eq, ← hc.cancel.id]
      exact not_congr ⟨fun he => by rw [he], fun he => hc.inv.eq_of_id (.inl (.inl ⟨_, _, hq⟩)) (.inl hc.cancel.held) he⟩
    · rw [if_neg hname] at hx
      rw [h.queue hx, List.filter_eq_self.2 fun i hi => ?_]
      rw [← h.queue hx] at hi
      obtain ⟨q, hq, rfl⟩ := List.mem_map.1 hi
      exact decide_eq_true (cancelled_ne hS hI hc hx hname hq)
  · obtain ⟨r, hr', rfl⟩ := List.mem_map.1 hr
    rw [hf.id] at hrq
    rw [hc.find?] at hx
    by_cases hname : name = symbol
    · rw [if_pos hname] at hx
      cases hx
      rw [hc.cancel.queue] at hq
      have hne : q ≠ p := fun he => by
        rw [he, List.Nodup.mem_erase_iff (hc.inv.nodup d k)] at hq
        exact hq.1 rfl
      have hq := List.mem_of_mem_erase hq
      rw [hc.cancel.heapOther hne] at hrq ⊢
      rw [cancelled_keeps hc hf fun he => hne (hc.inv.eq_of_id (.inl (.inl ⟨_, _, hq⟩)) (.inl hc.cancel.held)
        (hrq.symm.trans (he.trans hc.cancel.id.symm)))]
      exact h.agrees hc.book hq hr' hrq
    · rw [if_neg hname] at hx
      rw [cancelled_keeps hc hf fun he => cancelled_ne hS hI hc hx hname hq (hrq.symm.trans he)]
      exact h.agrees hx hq hr' hrq

end Cancel

end Mirrors

end Server

end OrderbookGC
