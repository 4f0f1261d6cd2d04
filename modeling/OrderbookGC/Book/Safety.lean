/-
Two safety properties of the book over whole runs: the representation invariant of the five maps,
spelled out over the maps themselves (`run_repInv`), and the book is never crossed or locked at
rest (`run_uncrossed`). A sweep stops only when the taker is exhausted, the opposite side is empty
or its best price is not acceptable, so a remainder that comes to rest does not cross; everything
else a call does only removes orders from the price levels.
-/
import OrderbookGC.Book.Run

namespace OrderbookGC

open Container OrderBook MatchState

variable {P : Type} [LinearOrder P]

/-! ## The representation invariant -/

/-- All orders held by the book, queue by queue. -/
def OrderBook.heldOrders (b : OrderBook P) : List OrderPtr :=
  (contents b.bids ++ contents b.asks) ++ (contents b.stopBuyOrders ++ contents b.stopSellOrders)

theorem mem_heldOrders {b : OrderBook P} {p : OrderPtr} : p ∈ b.heldOrders ↔ b.Held p := by
  have hl : ∀ d, p ∈ contents (b.levels d) ↔ ∃ k, p ∈ b.queue d k := fun d => mem_contents_levels
  have hs : ∀ d, p ∈ contents (b.stops d) ↔ ∃ k, p ∈ b.stopQueue d k := fun d => mem_contents_stops
  unfold heldOrders Held
  simp only [List.mem_append]
  refine or_congr ?_ ?_
  · constructor
    · rintro (h | h)
      · obtain ⟨k, hk⟩ := (hl .buy).1 h; exact ⟨.buy, k, hk⟩
      · obtain ⟨k, hk⟩ := (hl .sell).1 h; exact ⟨.sell, k, hk⟩
    · rintro ⟨d, k, hk⟩
      cases d
      · exact .inl ((hl .buy).2 ⟨k, hk⟩)
      · exact .inr ((hl .sell).2 ⟨k, hk⟩)
  · constructor
    · rintro (h | h)
      · obtain ⟨k, hk⟩ := (hs .buy).1 h; exact ⟨.buy, k, hk⟩
      · obtain ⟨k, hk⟩ := (hs .sell).1 h; exact ⟨.sell, k, hk⟩
    · rintro ⟨d, k, hk⟩
      cases d
      · exact .inl ((hs .buy).2 ⟨k, hk⟩)
      · exact .inr ((hs .sell).2 ⟨k, hk⟩)

theorem BookInv.nodup_heldOrders {b : OrderBook P} (hI : BookInv [] b) : b.heldOrders.Nodup := by
  refine List.nodup_append.2 ⟨List.nodup_append.2 ⟨hI.nodup_levels .buy, hI.nodup_levels .sell, ?_⟩,
    hI.nodup_allStops, ?_⟩
  · rintro p hp p' hp' rfl
    obtain ⟨k, hk⟩ := mem_contents_levels.1 (show p ∈ contents (b.levels .buy) from hp)
    obtain ⟨k', hk'⟩ := mem_contents_levels.1 (show p ∈ contents (b.levels .sell) from hp')
    have h := (hI.rest hk).1
    rw [(hI.rest hk').1] at h; cases h
  · rintro p hp p' hp' rfl
    have hq : ∃ d k, p ∈ b.queue d k := by
      rcases List.mem_append.1 hp with h | h
      · obtain ⟨k, hk⟩ := mem_contents_levels.1 (show p ∈ contents (b.levels .buy) from h); exact ⟨_, k, hk⟩
      · obtain ⟨k, hk⟩ := mem_contents_levels.1 (show p ∈ contents (b.levels .sell) from h); exact ⟨_, k, hk⟩
    have hs : ∃ d k, p ∈ b.stopQueue d k := by
      rcases List.mem_append.1 hp' with h | h
      · obtain ⟨k, hk⟩ := mem_contents_stops.1 (show p ∈ contents (b.stops .buy) from h); exact ⟨_, k, hk⟩
      · obtain ⟨k, hk⟩ := mem_contents_stops.1 (show p ∈ contents (b.stops .sell) from h); exact ⟨_, k, hk⟩
    obtain ⟨d, k, hk⟩ := hq
    obtain ⟨e, l, hl⟩ := hs
    exact hI.not_mem_stopQueue hk hl

/-- The representation invariant of `OrderBook`, over its five maps. -/
structure RepInv (b : OrderBook P) : Prop where
  /-- The index holds exactly the held orders, under their ids. -/
  index : ∀ id p, b.ordersById.find? id = some p ↔ p ∈ b.heldOrders ∧ (b.heap p).id = id
  /-- Every held order sits in one queue, once. -/
  once : b.heldOrders.Nodup
  bids : ∀ k q, b.bids.find? k = some q → ∀ p ∈ q,
    (b.heap p).side = .buy ∧ (b.heap p).price = k ∧ (b.heap p).orderType = .limit
  asks : ∀ k q, b.asks.find? k = some q → ∀ p ∈ q,
    (b.heap p).side = .sell ∧ (b.heap p).price = k ∧ (b.heap p).orderType = .limit
  stopBuys : ∀ k q, b.stopBuyOrders.find? k = some q → ∀ p ∈ q, (b.heap p).side = .buy ∧
    (b.heap p).stopPrice = k ∧ ((b.heap p).orderType = .stop ∨ (b.heap p).orderType = .stopLimit)
  stopSells : ∀ k q, b.stopSellOrders.find? k = some q → ∀ p ∈ q, (b.heap p).side = .sell ∧
    (b.heap p).stopPrice = k ∧ ((b.heap p).orderType = .stop ∨ (b.heap p).orderType = .stopLimit)
  live : ∀ p ∈ b.heldOrders, ((b.heap p).status = .pending ∨ (b.heap p).status = .partialFill) ∧
    0 < (b.heap p).remainingQuantity
  noEmptyLevel : ∀ k, b.bids.find? k ≠ some [] ∧ b.asks.find? k ≠ some [] ∧
    b.stopBuyOrders.find? k ≠ some [] ∧ b.stopSellOrders.find? k ≠ some []

theorem Inv.repInv {b : OrderBook P} (hI : Inv [] b) : RepInv b := by
  have hB := hI.toBookInv
  have hrest : ∀ d k q, (b.levels d).find? k = some q → ∀ p ∈ q,
      (b.heap p).side = d ∧ (b.heap p).price = k ∧ (b.heap p).orderType = .limit := fun d k q hq p hp =>
    hB.rest (by rw [queue_eq_of_find? hq]; exact hp)
  have hstop : ∀ d k q, (b.stops d).find? k = some q → ∀ p ∈ q, (b.heap p).side = d ∧ (b.heap p).stopPrice = k ∧
      ((b.heap p).orderType = .stop ∨ (b.heap p).orderType = .stopLimit) := fun d k q hq p hp => by
    obtain ⟨h1, h2, h3⟩ := hB.stop (d := d) (k := k) (p := p) (by unfold stopQueue; rw [hq]; exact hp)
    exact ⟨h1, h2, by simpa [Order.isStopOrder] using h3⟩
  refine ⟨fun id p => ?_, hB.nodup_heldOrders, hrest .buy, hrest .sell, hstop .buy, hstop .sell, fun p hp => ?_,
    fun k => ⟨hB.full .buy k, hB.full .sell k, hB.fullStop .buy k, hB.fullStop .sell k⟩⟩
  · rw [hB.index, mem_heldOrders]
    simp [and_comm]
  · have := hB.live (mem_heldOrders.1 hp)
    exact ⟨this.status, this.remaining⟩

/-- After every finite sequence of `addOrder` and `cancelOrder` calls on fresh or restored orders,
all of which return, the book satisfies its representation invariant. -/
theorem run_repInv (symbol : String) (tickSize : P) (ops : List (BookOp P)) (hfresh : ∀ op ∈ ops, op.Fresh) :
    ∃ r, run symbol tickSize ops = some r ∧ RepInv r.book := by
  obtain ⟨r, hr, hI⟩ := run_inv symbol tickSize hfresh
  exact ⟨r, hr, hI.repInv⟩

theorem run_repInv_cascadeOps : ∃ r, run "S" 1 cascadeOps = some r ∧ RepInv r.book :=
  run_repInv "S" 1 cascadeOps cascadeOps_fresh

/-! ## Never crossed at rest -/

/-- Every resting bid is below every resting ask. -/
def Uncrossed (b : OrderBook P) : Prop := ∀ kb ka, b.queue .buy kb ≠ [] → b.queue .sell ka ≠ [] → kb < ka

/-- Removing orders from the levels does not cross the book. -/
theorem Uncrossed.mono {b b' : OrderBook P} (h : Uncrossed b) (hq : ∀ d k, b'.queue d k ≠ [] → b.queue d k ≠ []) :
    Uncrossed b' := fun kb ka hb ha => h kb ka (hq _ _ hb) (hq _ _ ha)

/-- What a limit order that finds no target accepts on the opposite side: nothing. -/
theorem not_accepts_of_done {F : List OrderPtr} {order : OrderPtr} {s : MatchState P}
    (hI : Inv (order :: F) s.toOrderBook) (hl : (s.heap order).Live)
    (hd : ∀ key maker rest, ¬ Target order s key maker rest) {k : P}
    (hk : s.queue (s.heap order).side.opposite k ≠ []) :
    accepts (s.heap order).side (s.heap order).price k = false := by
  rw [← Bool.not_eq_true]
  intro ha
  obtain ⟨key, maker, rest, ht⟩ := exists_target hI.toBookInv hl.remaining hk (.inr ha)
  exact hd key maker rest ht

theorem MatchState.PlaceEffect.uncrossed {F : List OrderPtr} {order : OrderPtr} {s s' : MatchState P}
    (h : PlaceEffect order s s') (hI : Inv (order :: F) s.toOrderBook) (hU : Uncrossed s.toOrderBook)
    (hd : ∀ key maker rest, ¬ Target order s key maker rest) : Uncrossed s'.toOrderBook := by
  cases h with
  | rest hl _ h =>
    subst h
    intro kb ka hb ha
    rw [addOrderToBook_queue] at hb ha
    have hacc := fun k => not_accepts_of_done hI hl hd (k := k)
    cases hside : (s.heap order).side <;> rw [hside] at hb ha hacc
    · rw [if_neg (by simp)] at ha
      split_ifs at hb with hc
      · rw [hc.2]
        simpa [accepts] using hacc ka ha
      · exact hU kb ka hb ha
    · rw [if_neg (by simp)] at hb
      split_ifs at ha with hc
      · rw [hc.2]
        simpa [accepts] using hacc kb hb
      · exact hU kb ka hb ha
  | cancel _ _ h => subst h; exact hU
  | drop _ _ h => subst h; exact hU

/-- A cascade started on an uncrossed book ends with an uncrossed book. -/
theorem MatchState.Cascade.uncrossed {n : Nat} {F : List OrderPtr} {s s' : MatchState P} (h : Cascade n F s s')
    (hI : Inv F s.toOrderBook) (hU : Uncrossed s.toOrderBook) : Uncrossed s'.toOrderBook := by
  refine (h.invariant (J := fun _ _ t => Uncrossed t.toOrderBook) (fun _ _ _ _ _ hJ => hJ) ?_
    (fun _ _ _ _ _ hI hJ hd he => he.uncrossed hI hJ hd) ?_ hI hU).2
  · intro _ order F key maker rest t t' hI hJ _ he
    refine hJ.mono fun d k hk => ?_
    obtain ⟨p, hp⟩ := List.exists_mem_of_ne_nil _ hk
    exact List.ne_nil_of_mem ((he.mem_queue hI.toBookInv).1 hp).1
  · intro _ _ t t' _ hJ _ he
    exact hJ.mono fun d k hk => by rw [← he.queue]; exact hk

theorem AddEffect.uncrossed {order : OrderPtr} {b : OrderBook P} {out : AddOutcome P} (h : AddEffect order b out)
    (hI : Inv [] b) (hU : Uncrossed b) : Uncrossed out.state.toOrderBook := by
  cases h with
  | refused _ => exact hU
  | stopped ha hid hs =>
    refine hU.mono fun d k hk => ?_
    unfold OrderBook.queue at hk ⊢
    rw [addStopOrder_levels] at hk
    cases d <;> exact hk
  | matched ha hid hs hc => exact hc.uncrossed (entered_inv hI ha hid hs) hU

theorem OrderBook.CancelEffect.uncrossed {id : String} {p : OrderPtr} {b b' : OrderBook P} (h : CancelEffect id p b b')
    (hU : Uncrossed b) : Uncrossed b' :=
  hU.mono fun d k hk he => hk (by rw [h.queue, he]; rfl)

/-- After every call of every run the best bid is strictly below the best ask. -/
theorem run_uncrossed (symbol : String) (tickSize : P) (ops : List (BookOp P)) (hfresh : ∀ op ∈ ops, op.Fresh) :
    ∃ r, run symbol tickSize ops = some r ∧
      ∀ kb qb ka qa, r.book.bids.max? = some (kb, qb) → r.book.asks.min? = some (ka, qa) → kb < ka := by
  obtain ⟨r, hr, hI, hU⟩ := run_induction symbol tickSize (K := fun _ r => Uncrossed r.book)
    hfresh (fun kb _ h => absurd rfl h) (fun _ _ _ _ _ _ hK _ hI' he => he.uncrossed hI' hK)
    (fun _ _ _ _ _ _ hK he => he.uncrossed hK) (fun _ _ _ _ hK _ => hK)
  refine ⟨r, hr, fun kb qb ka qa hb ha => ?_⟩
  have hne : ∀ d k q, r.book.bestLevel d = some (k, q) → r.book.queue d k ≠ [] := fun d k q h => by
    obtain ⟨p, rest, -, hq⟩ := hI.find?_eq_queue (bestLevel_eq_some_iff.1 h).1
    rw [hq]; simp
  exact hU kb ka (hne .buy kb qb hb) (hne .sell ka qa ha)

theorem run_uncrossed_cascadeOps : ∃ r, run "S" 1 cascadeOps = some r ∧
    ∀ kb qb ka qa, r.book.bids.max? = some (kb, qb) → r.book.asks.min? = some (ka, qa) → kb < ka :=
  run_uncrossed "S" 1 cascadeOps cascadeOps_fresh

end OrderbookGC
