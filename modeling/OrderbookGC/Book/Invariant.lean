/-
The representation invariant of the book, with the orders in flight. Inside a call of `addOrder`
an order can be in the index and in no queue: the incoming order while it is matched, and the stop
orders taken out of the stop maps and waiting for their turn. `Inv F b` is the invariant with
exactly the orders of `F` in flight, none of them a stop order any more; between calls it holds
with `F = []`.

An order's place is a function of the order itself (`rest`, `stop`), so an order sits in at most
one queue, and the index and the queues are tied by one equivalence (`index`).
-/
import OrderbookGC.Book.Views

namespace OrderbookGC

open Container

variable {P : Type} [LinearOrder P]

structure BookInv (F : List OrderPtr) (b : OrderBook P) : Prop where
  rest : ∀ {d k p}, p ∈ b.queue d k →
    (b.heap p).side = d ∧ (b.heap p).price = k ∧ (b.heap p).orderType = .limit
  stop : ∀ {d k p}, p ∈ b.stopQueue d k →
    (b.heap p).side = d ∧ (b.heap p).stopPrice = k ∧ (b.heap p).isStopOrder = true
  live : ∀ {p}, b.Held p → (b.heap p).Live
  nodup : ∀ d k, (b.queue d k).Nodup
  nodupStop : ∀ d k, (b.stopQueue d k).Nodup
  full : ∀ d k, (b.levels d).find? k ≠ some []
  fullStop : ∀ d k, (b.stops d).find? k ≠ some []
  index : ∀ {id p}, b.ordersById.find? id = some p ↔ (b.heap p).id = id ∧ (b.Held p ∨ p ∈ F)
  flight : ∀ p ∈ F, ¬ b.Held p
  flightNodup : F.Nodup
  flightSound : ∀ p ∈ F, (b.heap p).Sound
  waiting : ∀ p ∈ F.tail, (b.heap p).Live
  alloc : ∀ {p}, b.Held p ∨ p ∈ F → p < b.nextPtr

structure Inv (F : List OrderPtr) (b : OrderBook P) : Prop extends BookInv F b where
  flightType : ∀ p ∈ F, (b.heap p).isStopOrder = false

namespace BookInv

variable {F : List OrderPtr} {b : OrderBook P} {p p' : OrderPtr}

theorem live_of_mem_queue (h : BookInv F b) {d : OrderSide} {k : P} (hp : p ∈ b.queue d k) : (b.heap p).Live :=
  h.live (.inl ⟨d, k, hp⟩)

/-- An order found in the index is the only one with its id. -/
theorem eq_of_id (h : BookInv F b) (hp : b.Held p ∨ p ∈ F) (hp' : b.Held p' ∨ p' ∈ F)
    (hid : (b.heap p).id = (b.heap p').id) : p = p' := by
  have h1 := h.index.2 ⟨hid, hp⟩
  have h2 := h.index.2 ⟨rfl, hp'⟩
  rw [h1] at h2
  exact Option.some.inj h2

/-- Resting orders are no stop orders, so no order is in a price level and in a stop map. -/
theorem not_mem_stopQueue (h : BookInv F b) {d e : OrderSide} {k l : P} (hp : p ∈ b.queue d k) :
    p ∉ b.stopQueue e l := by
  intro hs
  have h1 := (h.rest hp).2.2
  have h2 := (h.stop hs).2.2
  simp [Order.isStopOrder, h1] at h2

theorem find?_eq_queue (h : BookInv F b) {d : OrderSide} {k : P} {q : List OrderPtr}
    (hq : (b.levels d).find? k = some q) : ∃ p rest, q = p :: rest ∧ b.queue d k = p :: rest := by
  cases q with
  | nil => exact absurd hq (h.full d k)
  | cons p rest => exact ⟨p, rest, rfl, OrderBook.queue_eq_of_find? hq⟩

/-- The level maps are determined by the queues. -/
theorem find?_levels (h : BookInv F b) (d : OrderSide) (k : P) :
    (b.levels d).find? k = if b.queue d k = [] then none else some (b.queue d k) := by
  cases hf : (b.levels d).find? k with
  | none => simp [OrderBook.queue, hf]
  | some q =>
    obtain ⟨p, rest, rfl, hq⟩ := h.find?_eq_queue hf
    simp [hq]

theorem find?_stops (h : BookInv F b) (d : OrderSide) (k : P) :
    (b.stops d).find? k = if b.stopQueue d k = [] then none else some (b.stopQueue d k) := by
  cases hf : (b.stops d).find? k with
  | none => simp [OrderBook.stopQueue, hf]
  | some q =>
    cases q with
    | nil => exact absurd hf (h.fullStop d k)
    | cons p rest => simp [OrderBook.stopQueue, hf]

end BookInv

namespace MatchState

open OrderBook

/-! ## One trade of the matching loop -/

/-- The taker `order` trades next with `maker`, the front of the best opposite level. -/
structure Target (order : OrderPtr) (s : MatchState P) (key : P) (maker : OrderPtr) (rest : List OrderPtr) : Prop where
  pos : 0 < (s.heap order).remainingQuantity
  best : s.bestLevel (s.heap order).side.opposite = some (key, maker :: rest)
  accepted : (s.heap order).orderType = .market ∨ accepts (s.heap order).side (s.heap order).price key = true

/-- A live taker that accepts the price of some resting order has a target: the best level is at
least as acceptable. -/
theorem exists_target {F : List OrderPtr} {order : OrderPtr} {s : MatchState P} (hI : BookInv F s.toOrderBook)
    (hpos : 0 < (s.heap order).remainingQuantity) {k : P} (hk : s.queue (s.heap order).side.opposite k ≠ [])
    (hacc : (s.heap order).orderType = .market ∨ accepts (s.heap order).side (s.heap order).price k = true) :
    ∃ key maker rest, Target order s key maker rest := by
  obtain ⟨p, hp⟩ := List.exists_mem_of_ne_nil _ hk
  have hf := find?_of_mem_queue hp
  cases hb : s.bestLevel (s.heap order).side.opposite with
  | none => rw [bestLevel_eq_none_iff.1 hb k] at hf; cases hf
  | some e =>
    obtain ⟨key, q⟩ := e
    obtain ⟨hfind, hbest⟩ := bestLevel_eq_some_iff.1 hb
    obtain ⟨m, rest, rfl, -⟩ := hI.find?_eq_queue hfind
    refine ⟨key, m, rest, hpos, hb, hacc.imp_right fun ha => ?_⟩
    have hle := hbest k _ hf
    cases hside : (s.heap order).side <;>
      simp only [hside, OrderSide.opposite, atLeast, accepts, Bool.not_eq_true', decide_eq_false_iff_not, gt_iff_lt,
        not_lt] at ha hle ⊢
    · exact hle.trans ha
    · exact ha.trans hle

/-- The quantity a taker and a resting order trade. -/
def hitQuantity (order maker : OrderPtr) (s : MatchState P) : UInt32 :=
  min (s.heap order).remainingQuantity (s.heap maker).remainingQuantity

/-- One trade with the front of a level, and the removal of the front order once it is filled. -/
def hit (order : OrderPtr) (key : P) (maker : OrderPtr) (rest : List OrderPtr) (s : MatchState P) : MatchState P :=
  let side := (s.heap order).side
  let s := tradeWith side order maker (hitQuantity order maker s) s
  if (s.heap maker).remainingQuantity = 0 then (s.eraseId (s.heap maker).id).setQueue side.opposite key rest
  else s

/-- Everything one trade changes. -/
structure HitEffect (order : OrderPtr) (key : P) (maker : OrderPtr) (rest : List OrderPtr) (s s' : MatchState P) :
    Prop where
  ne : order ≠ maker
  makerLive : (s.heap maker).Live
  takerLive : (s.heap order).Live
  makerMem : s.queue (s.heap order).side.opposite key = maker :: rest
  makerPrice : (s.heap maker).price = key
  makerSide : (s.heap maker).side = (s.heap order).side.opposite
  heapTaker : s'.heap order = ((s.heap order).fill (hitQuantity order maker s)).2
  heapMaker : s'.heap maker = ((s.heap maker).fill (hitQuantity order maker s)).2
  heapOther : ∀ p, p ≠ order → p ≠ maker → s'.heap p = s.heap p
  queue : ∀ d k, s'.queue d k =
    if d = (s.heap order).side.opposite ∧ k = key ∧ (s'.heap maker).remainingQuantity = 0 then rest else s.queue d k
  full : ∀ d k, (s'.levels d).find? k ≠ some []
  stops : ∀ d, s'.stops d = s.stops d
  index : ∀ id, s'.ordersById.find? id =
    if id = (s.heap maker).id ∧ (s'.heap maker).remainingQuantity = 0 then none else s.ordersById.find? id
  nextPtr : s'.nextPtr = s.nextPtr
  symbol : s'.symbol = s.symbol
  tickSize : s'.tickSize = s.tickSize
  trades : s'.pendingTrades = s.pendingTrades ++ [tradeOf (s.heap order).side order maker (hitQuantity order maker s) s]
  updates : s'.pendingOrderUpdates = s.pendingOrderUpdates ++ updatesOf (s.heap order).side order maker
  calls : s'.matchCalls = s.matchCalls

theorem hit_effect {F : List OrderPtr} {order maker : OrderPtr} {key : P} {rest : List OrderPtr} {s : MatchState P}
    (hI : BookInv (order :: F) s.toOrderBook) (ht : Target order s key maker rest) :
    HitEffect order key maker rest s (hit order key maker rest s) := by
  have hf := (bestLevel_eq_some_iff.1 ht.best).1
  have hq : s.queue (s.heap order).side.opposite key = maker :: rest := queue_eq_of_find? hf
  have hmem : maker ∈ s.queue (s.heap order).side.opposite key := by rw [hq]; exact List.mem_cons_self ..
  have hne : order ≠ maker := by
    rintro rfl
    exact hI.flight _ (List.mem_cons_self ..) (.inl ⟨_, _, hmem⟩)
  have hml := hI.live_of_mem_queue hmem
  have htl := (hI.flightSound order (List.mem_cons_self ..)).live_of_pos ht.pos
  have hid : ((s.heap maker).fill (hitQuantity order maker s)).2.id = (s.heap maker).id :=
    (Order.fill_static _ _).id
  obtain ⟨hside, hprice, -⟩ := hI.rest hmem
  unfold hit
  simp only [tradeWith_eq hne]
  split_ifs with h0
  · refine ⟨hne, hml, htl, hq, hprice, hside, ?_, ?_, ?_, ?_, ?_, ?_, ?_, ?_, ?_, ?_, ?_, ?_, ?_⟩
    all_goals simp only [setQueue_heap, setQueue_stops, setQueue_nextPtr, setQueue_symbol, setQueue_tickSize,
      setQueue_ordersById, setQueue_pendingTrades, setQueue_pendingOrderUpdates, setQueue_matchCalls, eraseId,
      Function.update_self, Function.update_of_ne hne] at h0 ⊢
    · exact fun p h1 h2 => by rw [Function.update_of_ne h2, Function.update_of_ne h1]
    · intro d k
      rw [setQueue_queue]
      by_cases hc : d = (s.heap order).side.opposite ∧ k = key
      · simp [hc, h0]
      · rw [if_neg hc, if_neg (fun h => hc ⟨h.1, h.2.1⟩)]; rfl
    · intro d k
      rw [setQueue_find?]
      by_cases hc : d = (s.heap order).side.opposite ∧ k = key
      · rw [if_pos hc]
        by_cases hr : rest = [] <;> simp [hr]
      · rw [if_neg hc]; exact hI.full d k
    · intro d; cases d <;> rfl
    · intro id
      rw [SortedMap.find?_erase, hid]
      simp [h0]
  · refine ⟨hne, hml, htl, hq, hprice, hside, ?_, ?_, ?_, ?_, ?_, ?_, ?_, rfl, rfl, rfl, rfl, rfl, rfl⟩
    all_goals simp only [Function.update_self, Function.update_of_ne hne] at h0 ⊢
    · exact fun p h1 h2 => by rw [Function.update_of_ne h2, Function.update_of_ne h1]
    · intro d k; simp [h0]; rfl
    · exact hI.full
    · intro d; cases d <;> rfl
    · intro id; simp [h0]

theorem hitQuantity_toNat (order maker : OrderPtr) (s : MatchState P) :
    (hitQuantity order maker s).toNat =
      min (s.heap order).remainingQuantity.toNat (s.heap maker).remainingQuantity.toNat := by
  unfold hitQuantity
  show (if _ ≤ _ then _ else _ : UInt32).toNat = _
  split_ifs with h
  · rw [Nat.min_eq_left (UInt32.le_iff_toNat_le.1 h)]
  · rw [Nat.min_eq_right (Nat.le_of_lt (UInt32.lt_iff_toNat_lt.1 (UInt32.not_le.1 h)))]

namespace HitEffect

variable {order maker : OrderPtr} {key : P} {rest : List OrderPtr} {s s' : MatchState P} {F : List OrderPtr}

theorem quantity_pos (h : HitEffect order key maker rest s s') : 0 < (hitQuantity order maker s).toNat := by
  have h1 : 0 < (s.heap order).remainingQuantity.toNat := UInt32.lt_iff_toNat_lt.1 h.takerLive.remaining
  have h2 : 0 < (s.heap maker).remainingQuantity.toNat := UInt32.lt_iff_toNat_lt.1 h.makerLive.remaining
  rw [hitQuantity_toNat]; omega

/-- The taker's fill is accepted and lowers its remainder by exactly the trade quantity. -/
theorem taker_spec (h : HitEffect order key maker rest s s') :
    ((s.heap order).fill (hitQuantity order maker s)).1 = true ∧ (s'.heap order).Sound ∧
      (s'.heap order).remainingQuantity.toNat + (hitQuantity order maker s).toNat =
        (s.heap order).remainingQuantity.toNat := by
  rw [h.heapTaker]
  apply Order.fill_of_live h.takerLive
  rw [UInt32.le_iff_toNat_le, hitQuantity_toNat]; omega

theorem maker_spec (h : HitEffect order key maker rest s s') :
    ((s.heap maker).fill (hitQuantity order maker s)).1 = true ∧ (s'.heap maker).Sound ∧
      (s'.heap maker).remainingQuantity.toNat + (hitQuantity order maker s).toNat =
        (s.heap maker).remainingQuantity.toNat := by
  rw [h.heapMaker]
  apply Order.fill_of_live h.makerLive
  rw [UInt32.le_iff_toNat_le, hitQuantity_toNat]; omega

/-- A trade exhausts one of its two orders. -/
theorem exhausts (h : HitEffect order key maker rest s s') :
    (s'.heap order).remainingQuantity = 0 ∨ (s'.heap maker).remainingQuantity = 0 := by
  have h1 := h.taker_spec.2.2
  have h2 := h.maker_spec.2.2
  rw [hitQuantity_toNat] at h1 h2
  by_cases hle : (s.heap order).remainingQuantity.toNat ≤ (s.heap maker).remainingQuantity.toNat
  · left; rw [← UInt32.toNat_inj]; simp only [UInt32.toNat_zero]; omega
  · right; rw [← UInt32.toNat_inj]; simp only [UInt32.toNat_zero]; omega

theorem static (h : HitEffect order key maker rest s s') (p : OrderPtr) : (s.heap p).SameStatic (s'.heap p) := by
  by_cases h1 : p = order
  · rw [h1, h.heapTaker]; exact Order.fill_static _ _
  · by_cases h2 : p = maker
    · rw [h2, h.heapMaker]; exact Order.fill_static _ _
    · rw [h.heapOther p h1 h2]; exact .refl _

theorem orderType (h : HitEffect order key maker rest s s') (p : OrderPtr) :
    (s'.heap p).orderType = (s.heap p).orderType := by
  by_cases h1 : p = order
  · rw [h1, h.heapTaker]; exact Order.fill_orderType _ _
  · by_cases h2 : p = maker
    · rw [h2, h.heapMaker]; exact Order.fill_orderType _ _
    · rw [h.heapOther p h1 h2]

theorem isStopOrder (h : HitEffect order key maker rest s s') (p : OrderPtr) :
    (s'.heap p).isStopOrder = (s.heap p).isStopOrder := by
  unfold Order.isStopOrder; rw [h.orderType]

theorem stopQueue (h : HitEffect order key maker rest s s') (d : OrderSide) (k : P) :
    s'.stopQueue d k = s.stopQueue d k := by
  unfold OrderBook.stopQueue; rw [h.stops]

/-- The queues lose the filled maker and nothing else. -/
theorem mem_queue (h : HitEffect order key maker rest s s') (hI : BookInv (order :: F) s.toOrderBook)
    {d : OrderSide} {k : P} {p : OrderPtr} :
    p ∈ s'.queue d k ↔ p ∈ s.queue d k ∧ ¬ (p = maker ∧ (s'.heap maker).remainingQuantity = 0) := by
  rw [h.queue]
  split_ifs with hc
  · obtain ⟨rfl, rfl, h0⟩ := hc
    have hnd := hI.nodup (s.heap order).side.opposite k
    rw [h.makerMem] at hnd ⊢
    have hnot := (List.nodup_cons.1 hnd).1
    constructor
    · intro hp
      exact ⟨List.mem_cons_of_mem _ hp, fun hpm => hnot (hpm.1 ▸ hp)⟩
    · rintro ⟨hp, hno⟩
      rcases List.mem_cons.1 hp with rfl | hp
      · exact absurd ⟨rfl, h0⟩ hno
      · exact hp
  · constructor
    · intro hp
      refine ⟨hp, ?_⟩
      rintro ⟨rfl, h0⟩
      obtain ⟨h1, h2, -⟩ := hI.rest hp
      exact hc ⟨by rw [← h1, h.makerSide], by rw [← h2, h.makerPrice], h0⟩
    · exact fun hp => hp.1

theorem held_iff (h : HitEffect order key maker rest s s') (hI : BookInv (order :: F) s.toOrderBook) {p : OrderPtr} :
    s'.Held p ↔ s.Held p ∧ ¬ (p = maker ∧ (s'.heap maker).remainingQuantity = 0) := by
  unfold Held
  simp only [h.mem_queue hI, h.stopQueue]
  constructor
  · rintro (⟨d, k, hp, hno⟩ | ⟨d, k, hp⟩)
    · exact ⟨.inl ⟨d, k, hp⟩, hno⟩
    · refine ⟨.inr ⟨d, k, hp⟩, ?_⟩
      rintro ⟨rfl, -⟩
      have hm : p ∈ s.queue (s.heap order).side.opposite key := by rw [h.makerMem]; exact List.mem_cons_self ..
      exact hI.not_mem_stopQueue hm hp
  · rintro ⟨⟨d, k, hp⟩ | hp, hno⟩
    · exact .inl ⟨d, k, hp, hno⟩
    · exact .inr hp

/-- A trade keeps the invariant; the taker stays in flight. -/
theorem bookInv (h : HitEffect order key maker rest s s') (hI : BookInv (order :: F) s.toOrderBook) :
    BookInv (order :: F) s'.toOrderBook := by
  have hm : maker ∈ s.queue (s.heap order).side.opposite key := by rw [h.makerMem]; exact List.mem_cons_self ..
  have hmF : maker ∉ order :: F := fun hF => hI.flight _ hF (.inl ⟨_, _, hm⟩)
  have hF : ∀ p ∈ F, s'.heap p = s.heap p := fun p hp => h.heapOther p
    (fun e => (List.nodup_cons.1 hI.flightNodup).1 (e ▸ hp)) (fun e => hmF (e ▸ List.mem_cons_of_mem _ hp))
  constructor
  · intro d k p hp
    obtain ⟨h1, h2, h3⟩ := hI.rest ((h.mem_queue hI).1 hp).1
    exact ⟨(h.static p).side.trans h1, (h.static p).price.trans h2, (h.orderType p).trans h3⟩
  · intro d k p hp
    rw [h.stopQueue] at hp
    obtain ⟨h1, h2, h3⟩ := hI.stop hp
    exact ⟨(h.static p).side.trans h1, (h.static p).stopPrice.trans h2, (h.isStopOrder p).trans h3⟩
  · intro p hp
    obtain ⟨hp, hno⟩ := (h.held_iff hI).1 hp
    by_cases hpm : p = maker
    · subst hpm
      exact h.maker_spec.2.1.live_of_pos (UInt32.pos_iff_ne_zero.2 fun h0 => hno ⟨rfl, h0⟩)
    · rw [h.heapOther p (fun e => hI.flight p (e ▸ List.mem_cons_self ..) hp) hpm]
      exact hI.live hp
  · intro d k
    rw [h.queue]
    split_ifs
    · have hnd := hI.nodup (s.heap order).side.opposite key
      rw [h.makerMem] at hnd
      exact (List.nodup_cons.1 hnd).2
    · exact hI.nodup d k
  · intro d k; rw [h.stopQueue]; exact hI.nodupStop d k
  · exact h.full
  · intro d k; rw [h.stops]; exact hI.fullStop d k
  · intro id p
    rw [h.index, (h.static p).id, h.held_iff hI]
    split_ifs with hc
    · -- the filled maker's id: no order in the book has it any more
      constructor
      · intro hn; cases hn
      · rintro ⟨hid, hp⟩
        have hp' : s.Held p ∨ p ∈ order :: F := hp.imp_left (·.1)
        have : p = maker := hI.eq_of_id hp' (.inl (.inl ⟨_, _, hm⟩)) (hid.trans hc.1)
        rcases hp with hp | hp
        · exact absurd ⟨this, hc.2⟩ hp.2
        · exact absurd (this ▸ hp) hmF
    · rw [hI.index]
      refine and_congr_right fun hid => or_congr_left ⟨fun hp => ⟨hp, ?_⟩, fun hp => hp.1⟩
      rintro ⟨rfl, h0⟩
      exact hc ⟨hid.symm, h0⟩
  · intro p hp hh; exact hI.flight p hp ((h.held_iff hI).1 hh).1
  · exact hI.flightNodup
  · intro p hp
    rcases List.mem_cons.1 hp with rfl | hp
    · exact h.taker_spec.2.1
    · rw [hF p hp]; exact (hI.waiting p hp).sound
  · intro p hp
    rw [hF p hp]; exact hI.waiting p hp
  · intro p hp
    rw [h.nextPtr]
    exact hI.alloc (hp.imp_left fun hh => ((h.held_iff hI).1 hh).1)

theorem inv (h : HitEffect order key maker rest s s') (hI : Inv (order :: F) s.toOrderBook) :
    Inv (order :: F) s'.toOrderBook :=
  ⟨h.bookInv hI.toBookInv, fun p hp => by rw [h.isStopOrder]; exact hI.flightType p hp⟩

end HitEffect

end MatchState

end OrderbookGC
