/-
One call of `addOrder` as a sequence of elementary steps. A sweep (`Sweep`) is what the nested
loops of `matchOrder` do: trades of the taker with the front of the best opposite level until no
such trade is possible. A cascade (`Cascade`) matches the orders in flight one after the other,
places what is left of each, and takes the stop orders reached by the new trades into flight, until
no new trade is left. `insertOrder_cascade` states that the source's loops, with the fuel they are
given, do exactly this and return; `Cascade.invariant` then proves a property of a whole call from
four elementary steps.
-/
import OrderbookGC.Book.Trigger
import Mathlib.Logic.Relation

namespace OrderbookGC

open Container OrderBook

variable {P : Type} [LinearOrder P]

namespace MatchState

/-! ## Sweeps -/

/-- The taker trades once. -/
def HitStep (order : OrderPtr) (s s' : MatchState P) : Prop :=
  ∃ key maker rest, Target order s key maker rest ∧ s' = hit order key maker rest s

/-- Trades of one taker, as many as it can make. -/
structure Sweep (order : OrderPtr) (s s' : MatchState P) : Prop where
  hits : Relation.ReflTransGen (HitStep order) s s'
  done : ∀ key maker rest, ¬ Target order s' key maker rest

/-- The state of the book when the inner loop holds `queue` as what is left of a level. -/
theorem tradeWith_setQueue {side : OrderSide} {order maker : OrderPtr} (hne : order ≠ maker) (q : UInt32)
    (s : MatchState P) (d : OrderSide) (key : P) (queue : List OrderPtr) :
    tradeWith side order maker q (s.setQueue d key queue) = (tradeWith side order maker q s).setQueue d key queue := by
  rw [tradeWith_eq hne, tradeWith_eq hne]
  have ht : tradeOf side order maker q (s.setQueue d key queue) = tradeOf side order maker q s := by
    unfold tradeOf; rw [setQueue_heap, setQueue_symbol]
  rw [setQueue_heap, setQueue_pendingTrades, setQueue_pendingOrderUpdates, ht]
  unfold setQueue
  cases d <;> rfl

theorem eraseId_setQueue (s : MatchState P) (id : String) (d : OrderSide) (key : P) (queue : List OrderPtr) :
    (s.setQueue d key queue).eraseId id = (s.eraseId id).setQueue d key queue := by
  unfold setQueue
  cases d <;> rfl

/-- What the inner loop needs of the level at `key`, of which it holds `queue`. -/
structure Sweeping (F : List OrderPtr) (side : OrderSide) (order : OrderPtr) (key : P) (queue : List OrderPtr)
    (s : MatchState P) : Prop where
  taker : (s.heap order).side = side
  inv : Inv (order :: F) (s.setQueue side.opposite key queue).toOrderBook
  best : ∀ k q, (s.levels side.opposite).find? k = some q → atLeast side.opposite key k
  accepted : (s.heap order).orderType = .market ∨ accepts side (s.heap order).price key = true

namespace Sweeping

variable {F : List OrderPtr} {side : OrderSide} {order maker : OrderPtr} {key : P} {rest : List OrderPtr} {s : MatchState P}

/-- The front of the level is the taker's next target. -/
theorem target (h : Sweeping F side order key (maker :: rest) s) (hpos : 0 < (s.heap order).remainingQuantity) :
    Target order (s.setQueue side.opposite key (maker :: rest)) key maker rest := by
  refine ⟨by rw [setQueue_heap]; exact hpos, ?_, by rw [setQueue_heap, h.taker]; exact h.accepted⟩
  rw [setQueue_heap, h.taker, bestLevel_eq_some_iff]
  refine ⟨by simp [setQueue_find?], fun k q hq => ?_⟩
  rw [setQueue_find?] at hq
  split_ifs at hq with hc hn
  · rw [hc.2]; cases side <;> exact le_refl _
  · exact h.best k q hq

theorem effect (h : Sweeping F side order key (maker :: rest) s) (hpos : 0 < (s.heap order).remainingQuantity) :
    HitEffect order key maker rest (s.setQueue side.opposite key (maker :: rest))
      (hit order key maker rest (s.setQueue side.opposite key (maker :: rest))) :=
  hit_effect h.inv.toBookInv (h.target hpos)

theorem quantity_pos (h : Sweeping F side order key (maker :: rest) s) (hpos : 0 < (s.heap order).remainingQuantity) :
    0 < hitQuantity order maker s := by
  have hq := (h.effect hpos).quantity_pos
  unfold hitQuantity at hq ⊢
  rw [setQueue_heap] at hq
  exact UInt32.lt_iff_toNat_lt.2 hq

/-- The state after the trade, as the loop and as the step compute it. -/
theorem hit_eq (h : Sweeping F side order key (maker :: rest) s) (hpos : 0 < (s.heap order).remainingQuantity) :
    hit order key maker rest (s.setQueue side.opposite key (maker :: rest)) =
      if ((tradeWith side order maker (hitQuantity order maker s) s).heap maker).remainingQuantity = 0 then
        ((tradeWith side order maker (hitQuantity order maker s) s).eraseId
          ((tradeWith side order maker (hitQuantity order maker s) s).heap maker).id).setQueue side.opposite key rest
      else (tradeWith side order maker (hitQuantity order maker s) s).setQueue side.opposite key (maker :: rest) := by
  have hne := (h.effect hpos).ne
  have hq : hitQuantity order maker (s.setQueue side.opposite key (maker :: rest)) = hitQuantity order maker s := by
    unfold hitQuantity; rw [setQueue_heap]
  unfold hit
  simp only [setQueue_heap, h.taker, hq, tradeWith_setQueue hne, eraseId_setQueue, setQueue_setQueue]

/-- A front that is used up is dropped, and the loop goes on with what is behind it. -/
theorem next (h : Sweeping F side order key (maker :: rest) s) (hpos : 0 < (s.heap order).remainingQuantity)
    (h0 : ((tradeWith side order maker (hitQuantity order maker s) s).heap maker).remainingQuantity = 0) :
    Sweeping F side order key rest ((tradeWith side order maker (hitQuantity order maker s) s).eraseId
      ((tradeWith side order maker (hitQuantity order maker s) s).heap maker).id) := by
  have he := h.effect hpos
  have hinv := he.inv h.inv
  have hst := he.static order
  have hty := he.orderType order
  rw [h.hit_eq hpos, if_pos h0] at hinv hst hty
  simp only [setQueue_heap] at hst hty
  refine ⟨hst.side.trans h.taker, hinv, fun k q hkq => ?_, h.accepted.imp (fun hm => hty.trans hm) fun ha => ?_⟩
  · rw [eraseId_levels, tradeWith_eq he.ne] at hkq
    exact h.best k q (by cases side <;> exact hkq)
  · rw [hst.price]; exact ha

end Sweeping

/-- The inner loop makes trades of a sweep; when it ends, the level is used up or the taker is. -/
theorem matchLevel_hits {F : List OrderPtr} {side : OrderSide} {order : OrderPtr} {key : P} :
    ∀ (queue : List OrderPtr) (s : MatchState P), Sweeping F side order key queue s →
      let r := matchLevel side order queue s
      Relation.ReflTransGen (HitStep order) (s.setQueue side.opposite key queue)
        (r.2.setQueue side.opposite key r.1) ∧
      (r.1 = [] ∨ (r.2.heap order).remainingQuantity = 0)
  | [], s, _ => ⟨.refl, .inl rfl⟩
  | maker :: rest, s, h => by
    intro r
    by_cases hpos : 0 < (s.heap order).remainingQuantity
    · have he := h.effect hpos
      have hstep : HitStep order (s.setQueue side.opposite key (maker :: rest)) (hit order key maker rest _) :=
        ⟨key, maker, rest, h.target hpos, rfl⟩
      have hqpos : 0 < min (s.heap order).remainingQuantity (s.heap maker).remainingQuantity := h.quantity_pos hpos
      have hr : r = if ((tradeWith side order maker (hitQuantity order maker s) s).heap maker).remainingQuantity = 0 then
            matchLevel side order rest ((tradeWith side order maker (hitQuantity order maker s) s).eraseId
              ((tradeWith side order maker (hitQuantity order maker s) s).heap maker).id)
          else (maker :: rest, tradeWith side order maker (hitQuantity order maker s) s) := by
        show matchLevel side order (maker :: rest) s = _
        rw [matchLevel, if_pos hpos]
        simp only [if_pos hqpos]
        rfl
      rw [h.hit_eq hpos] at hstep he
      by_cases h0 : ((tradeWith side order maker (hitQuantity order maker s) s).heap maker).remainingQuantity = 0
      · rw [if_pos h0] at hstep hr
        obtain ⟨i1, i2⟩ := matchLevel_hits rest _ (h.next hpos h0)
        rw [hr]
        exact ⟨.head hstep i1, i2⟩
      · rw [if_neg h0] at hstep he hr
        rw [hr]
        refine ⟨.single hstep, .inr ?_⟩
        rcases he.exhausts with h | h
        · rw [setQueue_heap] at h; exact h
        · rw [setQueue_heap] at h; exact absurd h h0
    · have hr : r = (maker :: rest, s) := by
        show matchLevel side order (maker :: rest) s = _
        rw [matchLevel, if_neg hpos]
      rw [hr]
      exact ⟨.refl, .inr (by rw [UInt32.pos_iff_ne_zero, not_not] at hpos; exact hpos)⟩

theorem hits_inv {F : List OrderPtr} {order : OrderPtr} {s s' : MatchState P}
    (h : Relation.ReflTransGen (HitStep order) s s') (hI : Inv (order :: F) s.toOrderBook) :
    Inv (order :: F) s'.toOrderBook := by
  induction h with
  | refl => exact hI
  | tail _ hs ih =>
    obtain ⟨key, maker, rest, ht, rfl⟩ := hs
    exact (hit_effect ih.toBookInv ht).inv ih

theorem hits_taker {F : List OrderPtr} {order : OrderPtr} {s s' : MatchState P}
    (h : Relation.ReflTransGen (HitStep order) s s') (hI : Inv (order :: F) s.toOrderBook) :
    (s.heap order).SameStatic (s'.heap order) ∧ (s'.heap order).orderType = (s.heap order).orderType := by
  induction h with
  | refl => exact ⟨.refl _, rfl⟩
  | tail h1 hs ih =>
    obtain ⟨key, maker, rest, ht, rfl⟩ := hs
    have he := hit_effect (hits_inv h1 hI).toBookInv ht
    exact ⟨ih.1.trans (he.static order), (he.orderType order).trans ih.2⟩

@[simp] theorem tradeWith_levels (side : OrderSide) (order maker : OrderPtr) (q : UInt32) (s : MatchState P)
    (d : OrderSide) : (tradeWith side order maker q s).levels d = s.levels d := by
  cases side <;> cases d <;> rfl

/-- The inner loop leaves the level map to its caller. -/
theorem matchLevel_levels (side : OrderSide) (order : OrderPtr) (d : OrderSide) :
    ∀ (queue : List OrderPtr) (s : MatchState P), (matchLevel side order queue s).2.levels d = s.levels d
  | [], s => rfl
  | maker :: rest, s => by
    unfold matchLevel
    by_cases hpos : 0 < (s.heap order).remainingQuantity
    · rw [if_pos hpos]
      simp only
      split_ifs
      · rw [matchLevel_levels side order d rest, eraseId_levels, tradeWith_levels]
      · exact tradeWith_levels ..
      · rw [matchLevel_levels side order d rest, eraseId_levels]
      · rfl
    · rw [if_neg hpos]

/-- The outer loop takes up the best level of the opposite side. -/
theorem sweeping_of_best {F : List OrderPtr} {side : OrderSide} {order : OrderPtr} {key : P} {queue : List OrderPtr}
    {s : MatchState P} (hside : (s.heap order).side = side) (hI : Inv (order :: F) s.toOrderBook)
    (hb : s.bestLevel side.opposite = some (key, queue))
    (hacc : (s.heap order).orderType = .market ∨ accepts side (s.heap order).price key = true) :
    s.setQueue side.opposite key queue = s ∧ Sweeping F side order key queue s := by
  obtain ⟨hfind, hbest⟩ := bestLevel_eq_some_iff.1 hb
  obtain ⟨p, rest, rfl, -⟩ := hI.find?_eq_queue hfind
  have hself : s.setQueue side.opposite key (p :: rest) = s := setQueue_self (by simp) hfind
  exact ⟨hself, hside, by rw [hself]; exact hI, hbest, hacc⟩

/-- The outer loop, with one unit of fuel more than there are levels, returns after a sweep. -/
theorem matchLoop_sweep {F : List OrderPtr} {side : OrderSide} {order : OrderPtr} :
    ∀ (fuel : Nat) (s : MatchState P), (s.heap order).side = side → Inv (order :: F) s.toOrderBook →
      (s.levels side.opposite).entries.length < fuel →
      ∃ s', matchLoop side (decide ((s.heap order).orderType = .market)) order fuel s = some s' ∧ Sweep order s s'
  | 0, s, _, _, hf => absurd hf (Nat.not_lt_zero _)
  | fuel + 1, s, hside, hI, hf => by
    unfold matchLoop
    by_cases hpos : 0 < (s.heap order).remainingQuantity
    · rw [if_pos hpos]
      cases hb : s.bestLevel side.opposite with
      | none =>
        refine ⟨s, rfl, .refl, fun key maker rest ht => ?_⟩
        have := ht.best
        rw [hside, hb] at this; cases this
      | some e =>
        obtain ⟨key, queue⟩ := e
        simp only
        by_cases hacc : (s.heap order).orderType = .market ∨ accepts side (s.heap order).price key = true
        · rw [if_neg (by rcases hacc with h | h <;> simp [h])]
          have hfind := (bestLevel_eq_some_iff.1 hb).1
          obtain ⟨hself, hsw⟩ := sweeping_of_best hside hI hb hacc
          obtain ⟨h1, h2⟩ := matchLevel_hits queue s hsw
          rw [hself] at h1
          have hlev := matchLevel_levels side order side.opposite queue s
          rcases hr : matchLevel side order queue s with ⟨queue', s₁⟩
          rw [hr] at h1 h2 hlev
          have hI₁ := hits_inv h1 hI
          obtain ⟨hst, hty⟩ := hits_taker h1 hI
          have hlen := List.length_pos_of_mem (SortedMap.find?_eq_some_iff.1 hfind)
          simp only at h1 h2 hlev hI₁ hst hty ⊢
          rw [← hty]
          by_cases hz : (s₁.heap order).remainingQuantity = 0
          · -- the taker is exhausted: the next test of the loop condition ends it
            obtain ⟨f, rfl⟩ : ∃ f, fuel = f + 1 := ⟨fuel - 1, by omega⟩
            refine ⟨s₁.setQueue side.opposite key queue', ?_, h1, fun k m r ht => ?_⟩
            · unfold matchLoop
              rw [if_neg (by rw [setQueue_heap, hz]; decide)]
            · have := ht.pos
              rw [setQueue_heap, hz] at this; exact absurd this (by decide)
          · -- the level is used up and erased: one level less for the rest of the loop
            have hq : queue' = [] := h2.resolve_right hz
            subst hq
            obtain ⟨s', hs', hsw⟩ := matchLoop_sweep fuel (s₁.setQueue side.opposite key []) (hst.side.trans hside) hI₁ (by
              have := SortedMap.length_erase_lt hfind
              unfold setQueue
              rw [setLevels_levels, if_pos rfl, hlev]
              simp only [List.isEmpty_nil, if_true]
              omega)
            exact ⟨s', hs', h1.trans hsw.hits, hsw.done⟩
        · rw [if_pos (by simp only [not_or] at hacc; simp [hacc.1, hacc.2])]
          refine ⟨s, rfl, .refl, fun k m r ht => hacc ?_⟩
          have hk := ht.best
          rw [hside, hb] at hk
          cases hk
          rw [← hside]; exact ht.accepted
    · rw [if_neg hpos]
      exact ⟨s, rfl, .refl, fun key maker rest ht => hpos ht.pos⟩

/-- `matchOrder` returns, after a sweep. -/
theorem matchOrder_sweep {F : List OrderPtr} {order : OrderPtr} {s : MatchState P}
    (hI : Inv (order :: F) s.toOrderBook) :
    ∃ s', matchOrder order s = some s' ∧ Sweep order (s.logMatch order) s' :=
  matchLoop_sweep _ (s.logMatch order) rfl hI (by rw [logMatch_levels]; exact Nat.lt_succ_self _)

theorem Sweep.inv {F : List OrderPtr} {order : OrderPtr} {s s' : MatchState P} (h : Sweep order s s')
    (hI : Inv (order :: F) s.toOrderBook) : Inv (order :: F) s'.toOrderBook := hits_inv h.hits hI

/-! ## Cascades -/

/-- The prices of the trades not yet looked at by the trigger loop. -/
def newPrices (n : Nat) (s : MatchState P) : List P := priceSet (s.pendingTrades.drop n)

theorem mem_newPrices {n : Nat} {s : MatchState P} {x : P} :
    x ∈ newPrices n s ↔ ∃ t ∈ s.pendingTrades.drop n, t.price = x := by
  unfold newPrices priceSet
  rw [SortedMap.mem_keys_ofKeys, List.mem_map]

/-- From a state with the given orders in flight, of whose trades the first `n` have been looked
at by the trigger loop, to the state at the end of the call. -/
inductive Cascade : Nat → List OrderPtr → MatchState P → MatchState P → Prop
  | done {n : Nat} {s : MatchState P} : n = s.pendingTrades.length → Cascade n [] s s
  | trigger {n : Nat} {s s' : MatchState P} : n < s.pendingTrades.length →
      Cascade s.pendingTrades.length (triggerStops (newPrices n s) s).1 (triggerStops (newPrices n s) s).2 s' →
      Cascade n [] s s'
  | activate {n : Nat} {order : OrderPtr} {F : List OrderPtr} {s s₁ s' : MatchState P} :
      Sweep order (s.logMatch order) s₁ → Cascade n F (s₁.placeRemainder order) s' → Cascade n (order :: F) s s'

/-- The rule for a whole call: `J` holds between the orders in flight, `M` while the first of them
is matched; what the four elementary steps keep holds at the end. -/
theorem Cascade.rule {J : Nat → List OrderPtr → MatchState P → Prop}
    {M : Nat → OrderPtr → List OrderPtr → MatchState P → Prop}
    (hlog : ∀ n order F s, Inv (order :: F) s.toOrderBook → J n (order :: F) s → M n order F (s.logMatch order))
    (hhit : ∀ n order F key maker rest s s', Inv (order :: F) s.toOrderBook → M n order F s →
      Target order s key maker rest → HitEffect order key maker rest s s' → M n order F s')
    (hplace : ∀ n order F s s', Inv (order :: F) s.toOrderBook → M n order F s →
      (∀ key maker rest, ¬ Target order s key maker rest) → PlaceEffect order s s' → J n F s')
    (htrig : ∀ n triggered s s', Inv [] s.toOrderBook → J n [] s → n < s.pendingTrades.length →
      TriggerEffect (newPrices n s) triggered s s' → J s.pendingTrades.length triggered s')
    {n : Nat} {F : List OrderPtr} {s s' : MatchState P} (h : Cascade n F s s') (hI : Inv F s.toOrderBook)
    (hJ : J n F s) : Inv [] s'.toOrderBook ∧ J s'.pendingTrades.length [] s' := by
  induction h with
  | done hn => subst hn; exact ⟨hI, hJ⟩
  | @trigger n s s' hn _ ih =>
    have he := triggerStops_effect (newPrices n s) s
    exact ih (he.inv hI) (htrig _ _ _ _ hI hJ hn he)
  | @activate n order F s s₁ s' hsw _ ih =>
    have hsweep : ∀ t, Relation.ReflTransGen (HitStep order) (s.logMatch order) t →
        Inv (order :: F) t.toOrderBook ∧ M n order F t := by
      intro t ht
      induction ht with
      | refl => exact ⟨hI, hlog n order F s hI hJ⟩
      | tail _ hs iht =>
        obtain ⟨key, maker, rest, hta, rfl⟩ := hs
        have he := hit_effect iht.1.toBookInv hta
        exact ⟨he.inv iht.1, hhit n order F key maker rest _ _ iht.1 iht.2 hta he⟩
    obtain ⟨hI₁, hM₁⟩ := hsweep s₁ hsw.hits
    have hp := placeRemainder_effect hI₁
    exact ih (hp.inv hI₁) (hplace n order F _ _ hI₁ hM₁ hsw.done hp)

/-- The rule for a property that does not tell the order being matched from the waiting ones. -/
theorem Cascade.invariant {J : Nat → List OrderPtr → MatchState P → Prop}
    (hlog : ∀ n order F s, Inv (order :: F) s.toOrderBook → J n (order :: F) s → J n (order :: F) (s.logMatch order))
    (hhit : ∀ n order F key maker rest s s', Inv (order :: F) s.toOrderBook → J n (order :: F) s →
      Target order s key maker rest → HitEffect order key maker rest s s' → J n (order :: F) s')
    (hplace : ∀ n order F s s', Inv (order :: F) s.toOrderBook → J n (order :: F) s →
      (∀ key maker rest, ¬ Target order s key maker rest) → PlaceEffect order s s' → J n F s')
    (htrig : ∀ n triggered s s', Inv [] s.toOrderBook → J n [] s → n < s.pendingTrades.length →
      TriggerEffect (newPrices n s) triggered s s' → J s.pendingTrades.length triggered s')
    {n : Nat} {F : List OrderPtr} {s s' : MatchState P} (h : Cascade n F s s') (hI : Inv F s.toOrderBook)
    (hJ : J n F s) : Inv [] s'.toOrderBook ∧ J s'.pendingTrades.length [] s' :=
  h.rule (M := fun n order F s => J n (order :: F) s) hlog hhit hplace htrig hI hJ

/-! ## The source's loops are a cascade -/

theorem PlaceEffect.frame {order : OrderPtr} {s s' : MatchState P} (h : PlaceEffect order s s') :
    (∀ d, s'.stops d = s.stops d) ∧ s'.pendingTrades = s.pendingTrades ∧
      s'.pendingOrderUpdates = s.pendingOrderUpdates ∧ s'.matchCalls = s.matchCalls ∧ s'.nextPtr = s.nextPtr ∧
      s'.symbol = s.symbol ∧ s'.tickSize = s.tickSize := by
  cases h with
  | rest _ _ h =>
    subst h
    unfold addOrderToBook
    exact ⟨fun d => setLevels_stops .., setLevels_pendingTrades .., setLevels_pendingOrderUpdates ..,
      setLevels_matchCalls .., setLevels_nextPtr .., setLevels_symbol .., setLevels_tickSize ..⟩
  | cancel _ _ h => subst h; exact ⟨fun d => by cases d <;> rfl, rfl, rfl, rfl, rfl, rfl, rfl⟩
  | drop _ _ h => subst h; exact ⟨fun d => by cases d <;> rfl, rfl, rfl, rfl, rfl, rfl, rfl⟩

theorem stopCount_congr {s s' : MatchState P} (h : ∀ d, s'.stops d = s.stops d) : s'.stopCount = s.stopCount := by
  have hb : s'.stopBuyOrders = s.stopBuyOrders := h .buy
  have hs : s'.stopSellOrders = s.stopSellOrders := h .sell
  unfold stopCount; rw [hb, hs]

/-- A sweep leaves the stop maps alone and only appends trades. -/
theorem Sweep.frame {F : List OrderPtr} {order : OrderPtr} {s s' : MatchState P} (h : Sweep order s s')
    (hI : Inv (order :: F) s.toOrderBook) :
    (∀ d, s'.stops d = s.stops d) ∧ s.pendingTrades.length ≤ s'.pendingTrades.length := by
  have : ∀ t, Relation.ReflTransGen (HitStep order) s t →
      (∀ d, t.stops d = s.stops d) ∧ s.pendingTrades.length ≤ t.pendingTrades.length := by
    intro t ht
    induction ht with
    | refl => exact ⟨fun _ => rfl, le_refl _⟩
    | tail h1 hs ih =>
      obtain ⟨key, maker, rest, hta, rfl⟩ := hs
      have he := hit_effect (hits_inv h1 hI).toBookInv hta
      refine ⟨fun d => (he.stops d).trans (ih.1 d), ih.2.trans ?_⟩
      rw [he.trades]; simp
  exact this s' h.hits

/-- The activation loop returns, and is the beginning of a cascade. -/
theorem foldlM_activate : ∀ (F : List OrderPtr) (s : MatchState P), Inv F s.toOrderBook →
    ∃ s₁, F.foldlM activate s = some s₁ ∧ Inv [] s₁.toOrderBook ∧ s₁.stopCount = s.stopCount ∧
      s.pendingTrades.length ≤ s₁.pendingTrades.length ∧
      ∀ n s', Cascade n [] s₁ s' → Cascade n F s s'
  | [], s, hI => ⟨s, rfl, hI, rfl, le_refl _, fun _ _ h => h⟩
  | order :: F, s, hI => by
    obtain ⟨t, ht, hsw⟩ := matchOrder_sweep hI
    have hlog : Inv (order :: F) (s.logMatch order).toOrderBook := hI
    have hIt := hsw.inv hlog
    have hp := placeRemainder_effect hIt
    obtain ⟨hst, hlen⟩ := hsw.frame hlog
    obtain ⟨pst, ptr, -⟩ := hp.frame
    obtain ⟨s₁, h1, h2, h3, h4, h5⟩ := foldlM_activate F (t.placeRemainder order) (hp.inv hIt)
    refine ⟨s₁, ?_, h2, ?_, ?_, fun n s' hc => .activate hsw (h5 n s' hc)⟩
    · rw [List.foldlM_cons, activate, ht]; exact h1
    · rw [h3, stopCount_congr pst, stopCount_congr hst, stopCount_congr (logMatch_stops s · order)]
    · rw [ptr] at h4; exact le_trans hlen h4

/-- `processStopOrders`, with one unit of fuel more than there are stop orders, returns, and is a
cascade: every further invocation has taken a stop order out of the maps. -/
theorem processStopOrders_cascade : ∀ (fuel n : Nat) (s : MatchState P), Inv [] s.toOrderBook →
    n < s.pendingTrades.length → s.stopCount < fuel →
    ∃ s', processStopOrders fuel (newPrices n s) s = some s' ∧ Cascade n [] s s'
  | 0, n, s, _, _, hf => absurd hf (Nat.not_lt_zero _)
  | fuel + 1, n, s, hI, hn, hf => by
    have he := triggerStops_effect (newPrices n s) s
    have hc := he.count
    unfold processStopOrders
    rcases hr : triggerStops (newPrices n s) s with ⟨triggered, s₁⟩
    rw [hr] at he hc
    have hstep : ∀ s', Cascade s.pendingTrades.length triggered s₁ s' → Cascade n [] s s' := fun s' h =>
      .trigger hn (by rw [hr]; exact h)
    simp only at he hc ⊢
    by_cases hemp : triggered.isEmpty = true
    · rw [if_pos hemp]
      rw [List.isEmpty_iff.1 hemp] at hstep
      exact ⟨s₁, rfl, hstep s₁ (.done (by rw [he.trades]))⟩
    · rw [if_neg hemp]
      obtain ⟨s₂, h1, h2, h3, h4, h5⟩ := foldlM_activate triggered s₁ (he.inv hI)
      rw [he.trades] at h4
      rw [h1, Option.bind_some, he.trades]
      by_cases hlt : s.pendingTrades.length < s₂.pendingTrades.length
      · rw [if_pos hlt]
        have hpos : 0 < triggered.length := List.length_pos_of_ne_nil fun e => hemp (by rw [e]; rfl)
        obtain ⟨s', hs', hcas⟩ := processStopOrders_cascade fuel s.pendingTrades.length s₂ h2 hlt (by omega)
        exact ⟨s', hs', hstep s' (h5 _ _ hcas)⟩
      · rw [if_neg hlt]
        exact ⟨s₂, rfl, hstep s₂ (h5 _ _ (.done (by omega)))⟩

end MatchState

namespace OrderBook

open MatchState

/-- The state in which an incoming order is matched: its id in the index, no events yet. -/
def entered (order : OrderPtr) (b : OrderBook P) : MatchState P :=
  start { b with ordersById := b.ordersById.insert (b.heap order).id order }

/-- An order `addOrder` can be given between calls: live, a valid object, in none of the queues. -/
structure Admissible (order : OrderPtr) (b : OrderBook P) : Prop where
  live : (b.heap order).Live
  free : ¬ b.Held order
  alloc : order < b.nextPtr

theorem entered_inv {order : OrderPtr} {b : OrderBook P} (hI : Inv [] b) (ha : Admissible order b)
    (hid : b.ordersById.find? (b.heap order).id = none) (hs : (b.heap order).isStopOrder = false) :
    Inv [order] (entered order b).toOrderBook :=
  ⟨hI.toBookInv.enter ha.live ha.free ha.alloc hid, fun p hp => by rw [List.mem_singleton.1 hp]; exact hs⟩

/-- The locked section of `addOrder`, for an order that is no stop order, returns and is a
cascade starting with the incoming order in flight. -/
theorem insertOrder_cascade {order : OrderPtr} {b : OrderBook P} (hI : Inv [] b) (ha : Admissible order b)
    (hid : b.ordersById.find? (b.heap order).id = none) (hs : (b.heap order).isStopOrder = false) :
    ∃ s', insertOrder order b = some s' ∧ Cascade 0 [order] (entered order b) s' := by
  obtain ⟨s₁, h1, h2, -, -, h5⟩ := foldlM_activate [order] (entered order b) (entered_inv hI ha hid hs)
  have hact : (entered order b).activate order = some s₁ := by
    simpa [List.foldlM_cons] using h1
  unfold insertOrder
  simp only [hs, Bool.false_eq_true, if_false]
  show ∃ s', ((entered order b).activate order).bind _ = some s' ∧ _
  rw [hact, Option.bind_some]
  by_cases hemp : s₁.pendingTrades.isEmpty = true
  · rw [if_pos hemp]
    exact ⟨s₁, rfl, h5 0 s₁ (.done (by rw [List.isEmpty_iff.1 hemp]; rfl))⟩
  · rw [if_neg hemp]
    have hpos : 0 < s₁.pendingTrades.length := List.length_pos_of_ne_nil fun e => hemp (by rw [e]; rfl)
    obtain ⟨s', hs', hc⟩ := processStopOrders_cascade (s₁.stopCount + 1) 0 s₁ h2 hpos (Nat.lt_succ_self _)
    exact ⟨s', hs', h5 0 s' hc⟩

end OrderBook

end OrderbookGC
