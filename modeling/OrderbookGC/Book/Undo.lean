/-
A cancel takes exactly one order out of the book, and so undoes an `addOrder` that traded with
nothing. The maps of a book are determined by its queues and its index, so it is enough to follow
these: an order that comes to a queue comes last, and erasing it gives the queue back.
-/
import OrderbookGC.Book.Plain

namespace OrderbookGC

open Container OrderBook MatchState

variable {P : Type} [LinearOrder P]

/-! ## One order leaves -/

/-- The order leaves the one queue of a map that holds it, once; the level goes exactly when nothing is left of it. -/
structure Leaves (p : OrderPtr) (m m' : SortedMap P (List OrderPtr)) (k : P) (q : List OrderPtr) : Prop where
  level : m.find? k = some q
  once : q.count p = 1
  dropped : m'.find? k = none ↔ q.erase p = []
  left : ∀ q', m'.find? k = some q' → q' = q.erase p
  others : ∀ l, l ≠ k → m'.find? l = m.find? l ∧ ∀ q', m.find? l = some q' → p ∉ q'

/-- Everything a cancel of the order at `p` changes. -/
structure Removed (p : OrderPtr) (b b' : OrderBook P) : Prop where
  canceled : b'.heap p = { b.heap p with status := .canceled }
  heap : ∀ q, q ≠ p → b'.heap q = b.heap q
  index : ∀ id, b'.ordersById.find? id = if id = (b.heap p).id then none else b.ordersById.find? id
  queue : (∃ d k q, Leaves p (b.levels d) (b'.levels d) k q ∧ b'.levels d.opposite = b.levels d.opposite ∧
      (∀ k q, (b.levels d.opposite).find? k = some q → p ∉ q) ∧
      ∀ e, b'.stops e = b.stops e ∧ ∀ k q, (b.stops e).find? k = some q → p ∉ q) ∨
    ∃ d k q, Leaves p (b.stops d) (b'.stops d) k q ∧ b'.stops d.opposite = b.stops d.opposite ∧
      (∀ k q, (b.stops d.opposite).find? k = some q → p ∉ q) ∧
      ∀ e, b'.levels e = b.levels e ∧ ∀ k q, (b.levels e).find? k = some q → p ∉ q

/-- Books with the same queues have the same level maps. -/
theorem levels_eq_of_queue {F G : List OrderPtr} {b b' : OrderBook P} (hI : BookInv F b) (hI' : BookInv G b') {d : OrderSide}
    (h : ∀ k, b'.queue d k = b.queue d k) : b'.levels d = b.levels d :=
  SortedMap.ext_find? fun k => by rw [hI'.find?_levels, hI.find?_levels, h]

theorem stops_eq_of_stopQueue {F G : List OrderPtr} {b b' : OrderBook P} (hI : BookInv F b) (hI' : BookInv G b')
    {d : OrderSide} (h : ∀ k, b'.stopQueue d k = b.stopQueue d k) : b'.stops d = b.stops d :=
  SortedMap.ext_find? fun k => by rw [hI'.find?_stops, hI.find?_stops, h]

section Cancel

variable {b b' : OrderBook P} {id : String} {p : OrderPtr}

theorem mem_queue_of_find? {d : OrderSide} {k : P} {q : List OrderPtr} (h : (b.levels d).find? k = some q) (hp : p ∈ q) :
    p ∈ b.queue d k := by
  rw [queue_eq_of_find? h]; exact hp

theorem mem_stopQueue_of_find? {d : OrderSide} {k : P} {q : List OrderPtr} (h : (b.stops d).find? k = some q) (hp : p ∈ q) :
    p ∈ b.stopQueue d k := by
  unfold stopQueue
  rw [h]; exact hp

/-- A resting order leaves the level of its own side and price. -/
theorem OrderBook.CancelEffect.leaves_level (h : CancelEffect id p b b') (hI : Inv [] b) {d : OrderSide} {k : P}
    (hp : p ∈ b.queue d k) : Leaves p (b.levels d) (b'.levels d) k (b.queue d k) := by
  have hB := hI.toBookInv
  have hB' := (h.inv hI).toBookInv
  refine ⟨find?_of_mem_queue hp, List.count_eq_one_of_mem (hB.nodup d k) hp, ?_, fun q' hq' => ?_, fun l hl => ?_⟩
  · rw [hB'.find?_levels, h.queue]
    split_ifs with he <;> simp [he]
  · rw [← queue_eq_of_find? hq', h.queue]
  · have hno : p ∉ b.queue d l := fun hm => hl ((hB.rest hm).2.1.symm.trans (hB.rest hp).2.1)
    refine ⟨?_, fun q' hq' hm => hno (mem_queue_of_find? hq' hm)⟩
    rw [hB'.find?_levels, hB.find?_levels, h.queue, List.erase_of_not_mem hno]

theorem OrderBook.CancelEffect.leaves_stop (h : CancelEffect id p b b') (hI : Inv [] b) {d : OrderSide} {k : P}
    (hp : p ∈ b.stopQueue d k) : Leaves p (b.stops d) (b'.stops d) k (b.stopQueue d k) := by
  have hB := hI.toBookInv
  have hB' := (h.inv hI).toBookInv
  refine ⟨find?_of_mem_stopQueue hp, List.count_eq_one_of_mem (hB.nodupStop d k) hp, ?_, fun q' hq' => ?_, fun l hl => ?_⟩
  · rw [hB'.find?_stops, h.stopQueue]
    split_ifs with he <;> simp [he]
  · rw [hB'.find?_stops, h.stopQueue] at hq'
    split_ifs at hq'
    exact (Option.some.inj hq').symm
  · have hno : p ∉ b.stopQueue d l := fun hm => hl ((hB.stop hm).2.1.symm.trans (hB.stop hp).2.1)
    refine ⟨?_, fun q' hq' hm => hno (mem_stopQueue_of_find? hq' hm)⟩
    rw [hB'.find?_stops, hB.find?_stops, h.stopQueue, List.erase_of_not_mem hno]

theorem OrderBook.CancelEffect.removed (h : CancelEffect id p b b') (hI : Inv [] b) : Removed p b b' := by
  have hB := hI.toBookInv
  have hB' := (h.inv hI).toBookInv
  -- a map none of whose queues holds the order stays as it is
  have hlevels : ∀ e, (∀ k, p ∉ b.queue e k) → b'.levels e = b.levels e := fun e hno =>
    levels_eq_of_queue hB hB' fun k => by rw [h.queue, List.erase_of_not_mem (hno k)]
  have hstops : ∀ e, (∀ k, p ∉ b.stopQueue e k) → b'.stops e = b.stops e := fun e hno =>
    stops_eq_of_stopQueue hB hB' fun k => by rw [h.stopQueue, List.erase_of_not_mem (hno k)]
  refine ⟨by rw [h.heap, Function.update_self], fun q hq => h.heapOther hq, fun i => ?_, ?_⟩
  · rw [h.index, SortedMap.find?_erase, h.id]
  · rcases h.held with ⟨d, k, hp⟩ | ⟨d, k, hp⟩
    · have hopp : ∀ k, p ∉ b.queue d.opposite k := fun l hm =>
        d.ne_opposite ((hB.rest hp).1.symm.trans (hB.rest hm).1)
      have hstop : ∀ e k, p ∉ b.stopQueue e k := fun e l => hB.not_mem_stopQueue hp
      exact .inl ⟨d, k, _, h.leaves_level hI hp, hlevels _ hopp, fun l q hq hm => hopp l (mem_queue_of_find? hq hm),
        fun e => ⟨hstops e (hstop e), fun l q hq hm => hstop e l (mem_stopQueue_of_find? hq hm)⟩⟩
    · have hopp : ∀ k, p ∉ b.stopQueue d.opposite k := fun l hm =>
        d.ne_opposite ((hB.stop hp).1.symm.trans (hB.stop hm).1)
      have hrest : ∀ e k, p ∉ b.queue e k := fun e l hm => hB.not_mem_stopQueue hm hp
      exact .inr ⟨d, k, _, h.leaves_stop hI hp, hstops _ hopp, fun l q hq hm => hopp l (mem_stopQueue_of_find? hq hm),
        fun e => ⟨hlevels e (hrest e), fun l q hq hm => hrest e l (mem_queue_of_find? hq hm)⟩⟩

end Cancel

/-! ## A call without trades -/

/-- A call that trades with nothing matches the order in vain and places it. -/
theorem MatchState.Cascade.placed {order : OrderPtr} {s s' : MatchState P} (h : Cascade 0 [order] s s')
    (hI : Inv [order] s.toOrderBook) (ht : s'.pendingTrades = []) : PlaceEffect order (s.logMatch order) s' := by
  have hJ := (h.rule
    (J := fun _ F t => t.pendingTrades = [] → F = [order] ∧ t = s ∨ F = [] ∧ PlaceEffect order (s.logMatch order) t)
    (M := fun _ o F t => t.pendingTrades = [] → o = order ∧ F = [] ∧ t = s.logMatch order)
    (fun _ o F t _ hJ ht => ?_) (fun _ o F key maker rest t t' _ _ _ he ht => ?_) (fun _ o F t t' _ hM _ he ht => ?_)
    (fun n triggered t t' _ _ hlt he ht => ?_) hI fun _ => .inl ⟨rfl, rfl⟩).2 ht
  · rcases hJ with ⟨hF, -⟩ | ⟨-, hp⟩
    · cases hF
    · exact hp
  · rcases hJ ht with ⟨hF, rfl⟩ | ⟨hF, -⟩
    · exact ⟨(List.cons.inj hF).1, (List.cons.inj hF).2, by rw [(List.cons.inj hF).1]⟩
    · cases hF
  · -- a trade stays recorded
    rw [he.trades] at ht
    simp at ht
  · obtain ⟨rfl, rfl, rfl⟩ := hM (by rw [← he.frame.2.1]; exact ht)
    exact .inr ⟨rfl, he⟩
  · rw [he.trades] at ht
    rw [ht] at hlt
    exact absurd hlt (Nat.not_lt_zero n)

/-- An order that cannot trade when it comes in: a stop order, or a limit order that does not cross. -/
def Passive (b : OrderBook P) (o : Order P) : Prop := o.isStopOrder = true ∨ o.orderType = .limit ∧ Uncrossing b o

theorem MatchState.Cascade.no_trade {order : OrderPtr} {s s' : MatchState P} (h : Cascade 0 [order] s s')
    (hI : Inv [order] s.toOrderBook) (hl : (s.heap order).orderType = .limit) (hu : Uncrossing s.toOrderBook (s.heap order))
    (h0 : s.pendingTrades = []) : s'.pendingTrades = [] := by
  have hJ := (h.rule (J := fun _ F t => F = [order] ∧ t = s ∨ F = [] ∧ t.pendingTrades = [])
    (M := fun _ o F t => o = order ∧ F = [] ∧ t = s.logMatch order)
    (fun _ o F t _ hJ => ?_) (fun _ o F key maker rest t t' hI hM hta he => ?_) (fun _ o F t t' _ hM _ he => ?_)
    (fun n triggered t t' _ hJ hlt he => ?_) hI (.inl ⟨rfl, rfl⟩)).2
  · rcases hJ with ⟨hF, -⟩ | ⟨-, ht⟩
    · cases hF
    · exact ht
  · rcases hJ with ⟨hF, rfl⟩ | ⟨hF, -⟩
    · exact ⟨(List.cons.inj hF).1, (List.cons.inj hF).2, by rw [(List.cons.inj hF).1]⟩
    · cases hF
  · -- the best opposite level is one the order does not accept
    obtain ⟨rfl, rfl, rfl⟩ := hM
    have hq : (s.logMatch o).queue ((s.logMatch o).heap o).side.opposite key ≠ [] := by
      rw [he.makerMem]; exact List.cons_ne_nil _ _
    replace hq : (s.logMatch o).queue (s.heap o).side.opposite key ≠ [] := hq
    have hacc := hta.accepted.resolve_left (by show (s.heap o).orderType ≠ .market; rw [hl]; exact nofun)
    have := hu key (by unfold OrderBook.queue at hq ⊢; rwa [logMatch_levels] at hq)
    rw [show accepts (s.heap o).side (s.heap o).price key = true from hacc] at this
    cases this
  · obtain ⟨rfl, rfl, rfl⟩ := hM
    exact .inr ⟨rfl, he.frame.2.1.trans h0⟩
  · obtain ⟨-, ht⟩ := hJ.resolve_left fun h => by cases h.1
    rw [ht] at hlt
    exact absurd hlt (Nat.not_lt_zero n)

/-! ## Undoing a passive call -/

/-- The five maps of two books are the same. -/
structure SameMaps (b b' : OrderBook P) : Prop where
  ordersById : b'.ordersById = b.ordersById
  bids : b'.bids = b.bids
  asks : b'.asks = b.asks
  stopBuyOrders : b'.stopBuyOrders = b.stopBuyOrders
  stopSellOrders : b'.stopSellOrders = b.stopSellOrders

/-- Cancelling an order that has only come to its queue and the index. -/
theorem OrderBook.CancelEffect.sameMaps {b b₁ b' : OrderBook P} {id : String} {p : OrderPtr} (h : CancelEffect id p b₁ b')
    (hI : Inv [] b) (hI₁ : Inv [] b₁) (hfree : ¬ b.Held p) (hid : b.ordersById.find? id = none)
    (hindex : b₁.ordersById = b.ordersById.insert id p)
    (hq : ∀ d k, b₁.queue d k = b.queue d k ∨ b₁.queue d k = b.queue d k ++ [p])
    (hs : ∀ d k, b₁.stopQueue d k = b.stopQueue d k ∨ b₁.stopQueue d k = b.stopQueue d k ++ [p]) : SameMaps b b' := by
  have herase : ∀ {l l' : List OrderPtr}, p ∉ l → l' = l ∨ l' = l ++ [p] → l'.erase p = l := fun {l l'} hp hl => by
    rcases hl with rfl | rfl
    · exact List.erase_of_not_mem hp
    · rw [List.erase_append_right _ hp]; simp
  have hl : ∀ d, b'.levels d = b.levels d := fun d => levels_eq_of_queue hI.toBookInv (h.inv hI₁).toBookInv fun k => by
    rw [h.queue]; exact herase (fun hp => hfree (.inl ⟨d, k, hp⟩)) (hq d k)
  have hst : ∀ d, b'.stops d = b.stops d := fun d => stops_eq_of_stopQueue hI.toBookInv (h.inv hI₁).toBookInv fun k => by
    rw [h.stopQueue]; exact herase (fun hp => hfree (.inr ⟨d, k, hp⟩)) (hs d k)
  refine ⟨SortedMap.ext_find? fun i => ?_, hl .buy, hl .sell, hst .buy, hst .sell⟩
  rw [h.index, hindex, SortedMap.find?_erase, SortedMap.find?_insert]
  split_ifs with hi
  · rw [hi, hid]
  · rfl

/-- An order that has already left the index again cannot be cancelled. -/
theorem sameMaps_of_gone {b b₁ : OrderBook P} {id : String} (hgone : b₁.ordersById = b.ordersById)
    (hid : b.ordersById.find? id = none) (hl : ∀ d, b₁.levels d = b.levels d) (hs : ∀ d, b₁.stops d = b.stops d) :
    SameMaps b (b₁.cancelOrder id).2.1 := by
  rw [cancelOrder_none (by rw [hgone]; exact hid)]
  exact ⟨hgone, hl .buy, hl .sell, hs .buy, hs .sell⟩

section Add

variable {b : OrderBook P} {o : Order P} {out : AddOutcome P}

theorem AddEffect.passive_no_trade (he : AddEffect b.nextPtr (b.alloc o).2 out) (hI' : Inv [] (b.alloc o).2)
    (hp : Passive b o) : out.state.pendingTrades = [] := by
  have hself : (b.alloc o).2.heap b.nextPtr = o := Function.update_self ..
  cases he with
  | refused _ => rfl
  | stopped _ _ _ => rw [addStopOrder_pendingTrades]; rfl
  | matched ha hid hs hc =>
    obtain ⟨hlim, hu⟩ := hp.resolve_left fun hstop => by rw [hself, hstop] at hs; cases hs
    have hheap : (entered b.nextPtr (b.alloc o).2).heap b.nextPtr = o := hself
    exact hc.no_trade (entered_inv hI' ha hid hs) (by rw [hheap]; exact hlim) (by rw [hheap]; exact hu) rfl

/-- A fresh order that trades with nothing and is then cancelled leaves the maps as they were. -/
theorem AddEffect.cancel_sameMaps (he : AddEffect b.nextPtr (b.alloc o).2 out) (hI : Inv [] b) (hI' : Inv [] (b.alloc o).2)
    (hid : b.ordersById.find? o.id = none) (ht : out.state.pendingTrades = []) :
    SameMaps b (out.state.toOrderBook.cancelOrder o.id).2.1 := by
  have hself : (b.alloc o).2.heap b.nextPtr = o := Function.update_self ..
  have hfree : ¬ b.Held b.nextPtr := fun hh => lt_irrefl _ (hI.alloc (.inl hh))
  have hIout := he.inv hI'
  have hlev : ∀ d, (entered b.nextPtr (b.alloc o).2).levels d = b.levels d := fun d => by cases d <;> rfl
  have hsto : ∀ d, (entered b.nextPtr (b.alloc o).2).stops d = b.stops d := fun d => by cases d <;> rfl
  have hidx : (entered b.nextPtr (b.alloc o).2).ordersById = b.ordersById.insert o.id b.nextPtr := by
    unfold entered
    rw [hself]; rfl
  have herased : (b.ordersById.insert o.id b.nextPtr).erase o.id = b.ordersById := SortedMap.ext_find? fun i => by
    rw [SortedMap.find?_erase, SortedMap.find?_insert]
    split_ifs with hi
    · rw [hi, hid]
    · rfl
  cases he with
  | refused _ => exact sameMaps_of_gone rfl hid (fun d => by cases d <;> rfl) fun d => by cases d <;> rfl
  | stopped _ _ _ =>
    have hindex : ((entered b.nextPtr (b.alloc o).2).addStopOrder b.nextPtr).ordersById = b.ordersById.insert o.id b.nextPtr := by
      rw [addStopOrder_ordersById, hidx]
    obtain ⟨b', hb', hc⟩ := cancelOrder_effect hIout.toBookInv (by rw [hindex]; exact SortedMap.find?_insert_self _ _ _)
    rw [hb']
    refine hc.sameMaps hI hIout hfree hid hindex (fun d k => .inl ?_) fun d k => ?_
    · unfold OrderBook.queue
      rw [addStopOrder_levels, hlev]
    · rw [addStopOrder_stopQueue]
      unfold OrderBook.stopQueue
      rw [hsto]
      split_ifs
      · exact .inr rfl
      · exact .inl rfl
  | @matched s' ha hid' hs hcas =>
    have hp := hcas.placed (entered_inv hI' ha hid' hs) ht
    have hheap : ((entered b.nextPtr (b.alloc o).2).logMatch b.nextPtr).heap b.nextPtr = o := hself
    cases hp with
    | rest hl hty h =>
      subst h
      have hindex : (((entered b.nextPtr (b.alloc o).2).logMatch b.nextPtr).addOrderToBook b.nextPtr).ordersById =
          b.ordersById.insert o.id b.nextPtr := by
        unfold addOrderToBook
        rw [setLevels_ordersById]; exact hidx
      obtain ⟨b', hb', hc⟩ := cancelOrder_effect hIout.toBookInv (by rw [hindex]; exact SortedMap.find?_insert_self _ _ _)
      rw [hb']
      refine hc.sameMaps hI hIout hfree hid hindex (fun d k => ?_) fun d k => .inl ?_
      · rw [addOrderToBook_queue]
        unfold OrderBook.queue
        rw [logMatch_levels, hlev]
        split_ifs
        · exact .inr rfl
        · exact .inl rfl
      · unfold OrderBook.stopQueue addOrderToBook
        rw [setLevels_stops, logMatch_stops, hsto]
    | cancel _ _ h =>
      subst h
      refine sameMaps_of_gone ?_ hid (fun d => ?_) fun d => ?_
      · show SortedMap.erase _ _ = _
        rw [hheap]
        exact (congrArg (SortedMap.erase · o.id) hidx).trans herased
      · rw [← hlev]; cases d <;> rfl
      · rw [← hsto]; cases d <;> rfl
    | drop _ _ h =>
      subst h
      refine sameMaps_of_gone ?_ hid (fun d => ?_) fun d => ?_
      · show SortedMap.erase _ _ = _
        rw [hheap]
        exact (congrArg (SortedMap.erase · o.id) hidx).trans herased
      · rw [← hlev]; cases d <;> rfl
      · rw [← hsto]; cases d <;> rfl

end Add

/-! ## Runs -/

/-- What `cancelOrder` does on a book. -/
structure CancelSpec (b : OrderBook P) : Prop where
  /-- It succeeds on the orders that rest or wait to be triggered. -/
  succeeds : ∀ id, (b.cancelOrder id).1 = true ↔ ∃ p, b.Held p ∧ (b.heap p).id = id
  refused : ∀ id, (b.cancelOrder id).1 = false → (b.cancelOrder id).2 = (b, [])
  removes : ∀ p, b.Held p → Removed p b (b.cancelOrder (b.heap p).id).2.1
  noTrade : ∀ p, b.Held p → (b.cancelOrder (b.heap p).id).2.2 = [.order p]
  /-- A fresh order with a new id that trades with nothing can be added and cancelled again. -/
  undoes : ∀ o : Order P, o.Fresh → b.ordersById.find? o.id = none →
    ∃ out, addOrder (some (b.alloc o).1) (b.alloc o).2 = some out ∧
      (Passive b o → out.state.pendingTrades = []) ∧
      (out.state.pendingTrades = [] → SameMaps b (out.state.toOrderBook.cancelOrder o.id).2.1)

theorem Inv.cancelSpec {b : OrderBook P} (hI : Inv [] b) : CancelSpec b := by
  have hB := hI.toBookInv
  have hlive : ∀ p, b.Held p → ∃ b', b.cancelOrder (b.heap p).id = (true, b', [.order p]) ∧ CancelEffect (b.heap p).id p b b' :=
    fun p hp => cancelOrder_effect hB (hB.index.2 ⟨rfl, .inl hp⟩)
  have hdead : ∀ id, (∀ p, b.Held p → (b.heap p).id ≠ id) → b.cancelOrder id = (false, b, []) := fun id hno => by
    refine cancelOrder_none ?_
    cases hf : b.ordersById.find? id with
    | none => rfl
    | some p =>
      obtain ⟨hid, hp⟩ := hB.index.1 hf
      exact absurd hid (hno p (hp.resolve_right List.not_mem_nil))
  have hcases : ∀ id, (∃ p, b.Held p ∧ (b.heap p).id = id) ∨ ∀ p, b.Held p → (b.heap p).id ≠ id := fun id => by
    by_cases h : ∃ p, b.Held p ∧ (b.heap p).id = id
    · exact .inl h
    · exact .inr fun p hp he => h ⟨p, hp, he⟩
  constructor
  · intro id
    constructor
    · intro h
      refine (hcases id).resolve_right fun hno => ?_
      rw [hdead id hno] at h
      cases h
    · rintro ⟨p, hp, rfl⟩
      obtain ⟨b', hb', -⟩ := hlive p hp
      rw [hb']
  · intro id h
    rcases hcases id with ⟨p, hp, rfl⟩ | hno
    · obtain ⟨b', hb', -⟩ := hlive p hp
      rw [hb'] at h
      cases h
    · rw [hdead id hno]
  · intro p hp
    obtain ⟨b', hb', he⟩ := hlive p hp
    rw [hb']
    exact he.removed hI
  · intro p hp
    obtain ⟨b', hb', -⟩ := hlive p hp
    rw [hb']
  · intro o ho hid
    obtain ⟨hI', out, hout, he⟩ := alloc_addOrder hI ho
    exact ⟨out, hout, he.passive_no_trade hI', he.cancel_sameMaps hI hI' hid⟩

/-- After every run, `cancelOrder` takes exactly the order it names out of the book, and undoes an `addOrder` that has
traded with nothing. -/
theorem run_cancelSpec (symbol : String) (tickSize : P) (ops : List (BookOp P)) (hfresh : ∀ op ∈ ops, op.Fresh) :
    ∃ r, run symbol tickSize ops = some r ∧ CancelSpec r.book := by
  obtain ⟨r, hr, hI⟩ := run_inv symbol tickSize hfresh
  exact ⟨r, hr, hI.cancelSpec⟩

/-- The stop-limit order of the sample run has come to rest, and can be cancelled. -/
theorem run_cancelSpec_cascadeOps : ∃ r, run "S" 1 cascadeOps = some r ∧ CancelSpec r.book ∧
    (r.book.cancelOrder "t").1 = true ∧ (r.book.cancelOrder "b").1 = false := by
  obtain ⟨r, hr, hspec⟩ := run_cancelSpec "S" 1 cascadeOps cascadeOps_fresh
  have hstate : (run "S" 1 cascadeOps).map (fun r => ((r.book.cancelOrder "t").1, (r.book.cancelOrder "b").1)) =
      some (true, false) := by decide +kernel
  rw [hr, Option.map_some, Option.some.injEq, Prod.mk.injEq] at hstate
  exact ⟨r, hr, hspec, hstate⟩

end OrderbookGC
