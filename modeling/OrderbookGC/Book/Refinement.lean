/-
The book refines the reference engine. The simulation keeps, beside the two engines, the flat list
of resting orders as addresses with their stamps (`flat`): the reference engine's list is its image,
and every queue of the book is the part of it at one side and price, in the same order. A trade with
the front of the best level is then a trade with the order the selection rule chooses
(`Sim.choose_target`); the rest of a call is simulated step by step along its cascade.
-/
import OrderbookGC.Book.Reference
import OrderbookGC.Book.Run

namespace OrderbookGC

open Container OrderBook MatchState

variable {P : Type}

/-! ## The abstraction of orders and trades -/

def Order.ref (o : Order P) : RefOrder P :=
  ⟨o.id, o.side, o.orderType, o.price, o.stopPrice, o.remainingQuantity.toNat⟩

def Trade.ref (t : Trade P) : RefTrade P := ⟨t.buyOrderId, t.sellOrderId, t.price, t.quantity.toNat⟩

theorem Order.trigger_ref (o : Order P) : o.trigger.2.ref = o.ref.trigger := by
  unfold Order.trigger RefOrder.trigger Order.ref
  cases h : o.orderType <;> simp [h]

theorem Order.ref_isStop (o : Order P) : o.ref.isStop = o.isStopOrder := rfl

theorem Order.fill_ref {o : Order P} (hl : o.Live) {q : UInt32} (hq : q ≤ o.remainingQuantity) :
    (o.fill q).2.ref = { o.ref with remaining := o.ref.remaining - q.toNat } := by
  have hst := o.fill_static q
  have hr := (Order.fill_of_live hl hq).2.2
  unfold Order.ref
  rw [hst.id, hst.side, hst.price, hst.stopPrice, o.fill_orderType q]
  have : (o.fill q).2.remainingQuantity.toNat = o.remainingQuantity.toNat - q.toNat := by omega
  rw [this]

variable [LinearOrder P]

theorem Order.ref_accepts (o : Order P) (k : P) :
    o.ref.accepts k = true ↔ o.orderType = .market ∨ MatchState.accepts o.side o.price k = true := by
  unfold RefOrder.accepts MatchState.accepts Order.ref
  rw [Bool.or_eq_true, decide_eq_true_eq]
  refine or_congr_right ?_
  cases o.side <;> simp

/-- The stop map of the reference engine for a stop map of the book. -/
def refStops (heap : OrderPtr → Order P) (m : SortedMap P (List OrderPtr)) : SortedMap P (List (RefOrder P)) :=
  m.mapVals (List.map fun p => (heap p).ref)

theorem refStops_congr {h h' : OrderPtr → Order P} {m : SortedMap P (List OrderPtr)}
    (he : ∀ p ∈ contents m, (h' p).ref = (h p).ref) : refStops h' m = refStops h m := by
  apply SortedMap.ext_find?
  intro k
  unfold refStops
  rw [SortedMap.find?_mapVals, SortedMap.find?_mapVals]
  cases hq : m.find? k with
  | none => rfl
  | some q =>
    rw [Option.map_some, Option.map_some, Option.some.injEq]
    exact List.map_congr_left fun p hp => he p (mem_contents.2 ⟨k, q, hq, hp⟩)

/-- The queues after a trade, with the filled maker filtered out. -/
theorem MatchState.HitEffect.queue_filter {order maker : OrderPtr} {key : P} {rest F : List OrderPtr} {s s' : MatchState P}
    (h : HitEffect order key maker rest s s') (hI : BookInv (order :: F) s.toOrderBook) (d : OrderSide) (k : P) :
    s'.queue d k = (s.queue d k).filter fun p => decide (¬ (p = maker ∧ (s'.heap maker).remainingQuantity = 0)) := by
  rw [h.queue]
  split_ifs with hc
  · obtain ⟨rfl, rfl, h0⟩ := hc
    have hnd := hI.nodup (s.heap order).side.opposite k
    rw [h.makerMem] at hnd ⊢
    have hnot := (List.nodup_cons.1 hnd).1
    rw [List.filter_cons_of_neg (by simp [h0]), List.filter_eq_self.2]
    intro p hp
    exact decide_eq_true fun hpm => hnot (hpm.1 ▸ hp)
  · refine (List.filter_eq_self.2 fun p hp => decide_eq_true ?_).symm
    rintro ⟨rfl, h0⟩
    obtain ⟨h1, h2, -⟩ := hI.rest hp
    exact hc ⟨by rw [← h1, h.makerSide], by rw [← h2, h.makerPrice], h0⟩

/-! ## The simulation relation -/

structure Sim (T : List (RefTrade P)) (flat : List (OrderPtr × Nat)) (s : MatchState P) (e : RefEngine P) : Prop where
  resting : e.resting = flat.map fun x => ⟨(s.heap x.1).ref, x.2⟩
  queue : ∀ d k, s.queue d k =
    (flat.filter fun x => decide ((s.heap x.1).side = d ∧ (s.heap x.1).price = k)).map (·.1)
  stamps : flat.Pairwise fun x y => x.2 < y.2
  stampsLt : ∀ x ∈ flat, x.2 < e.nextStamp
  stopBuys : e.stopBuys = refStops s.heap s.stopBuyOrders
  stopSells : e.stopSells = refStops s.heap s.stopSellOrders
  trades : e.trades = T ++ s.pendingTrades.map Trade.ref

namespace Sim

variable {T : List (RefTrade P)} {flat : List (OrderPtr × Nat)} {s s' : MatchState P} {e : RefEngine P}
  {F : List OrderPtr}

theorem mem_queue (h : Sim T flat s e) {p : OrderPtr} {d : OrderSide} {k : P} :
    p ∈ s.queue d k ↔ (s.heap p).side = d ∧ (s.heap p).price = k ∧ ∃ st, (p, st) ∈ flat := by
  rw [h.queue]
  simp only [List.mem_map, List.mem_filter, decide_eq_true_eq, Prod.exists, exists_and_right, exists_eq_right]
  constructor
  · rintro ⟨h1, h2, h3⟩; exact ⟨h2, h3, h1⟩
  · rintro ⟨h2, h3, h1⟩; exact ⟨h1, h2, h3⟩

theorem held (h : Sim T flat s e) {x : OrderPtr × Nat} (hx : x ∈ flat) : s.Held x.1 :=
  .inl ⟨_, _, h.mem_queue.2 ⟨rfl, rfl, x.2, hx⟩⟩

/-- An order rests once. -/
theorem stamp_unique (h : Sim T flat s e) (hI : BookInv F s.toOrderBook) {p : OrderPtr} {st st' : Nat}
    (h1 : (p, st) ∈ flat) (h2 : (p, st') ∈ flat) : st = st' := by
  have hnd := hI.nodup (s.heap p).side (s.heap p).price
  rw [h.queue] at hnd
  have := List.inj_on_of_nodup_map hnd (x := (p, st)) (by simp [h1]) (y := (p, st')) (by simp [h2]) rfl
  exact (Prod.mk.inj this).2

/-- A stamp belongs to one order. -/
theorem eq_of_stamp (h : Sim T flat s e) {x y : OrderPtr × Nat} (hx : x ∈ flat) (hy : y ∈ flat) (hst : x.2 = y.2) :
    x = y := by
  have hnd : (flat.map (·.2)).Nodup := List.pairwise_map.2 (h.stamps.imp fun hlt => ne_of_lt hlt)
  exact List.inj_on_of_nodup_map hnd hx hy hst

/-- The front of the best level is the order the selection rule chooses. -/
theorem choose_target (h : Sim T flat s e) (hI : BookInv F s.toOrderBook) {order maker : OrderPtr} {key : P}
    {rest : List OrderPtr} (ht : Target order s key maker rest) :
    ∃ st, (maker, st) ∈ flat ∧ e.choose (s.heap order).ref = some ⟨(s.heap maker).ref, st⟩ := by
  obtain ⟨hf, hbest⟩ := bestLevel_eq_some_iff.1 ht.best
  have hq : s.queue (s.heap order).side.opposite key = maker :: rest := queue_eq_of_find? hf
  have hm : maker ∈ s.queue (s.heap order).side.opposite key := by rw [hq]; exact List.mem_cons_self ..
  obtain ⟨hside, hprice, st, hst⟩ := h.mem_queue.1 hm
  refine ⟨st, hst, RefEngine.choose_eq_some ?_ ?_ ?_⟩
  · rw [h.resting]; exact List.mem_map.2 ⟨_, hst, rfl⟩
  · unfold RefOrder.candidate
    rw [Bool.and_eq_true, decide_eq_true_eq]
    refine ⟨hside, ?_⟩
    show (s.heap order).ref.accepts (s.heap maker).price = true
    rw [Order.ref_accepts, hprice]; exact ht.accepted
  · intro c hc hcand hne
    rw [h.resting] at hc
    obtain ⟨⟨p, st'⟩, hp, rfl⟩ := List.mem_map.1 hc
    simp only [RefOrder.candidate, Bool.and_eq_true, decide_eq_true_eq] at hcand
    have hpq : p ∈ s.queue (s.heap order).side.opposite (s.heap p).price := h.mem_queue.2 ⟨hcand.1, rfl, st', hp⟩
    have hle := hbest _ _ (find?_of_mem_queue hpq)
    by_cases heq : (s.heap p).price = key
    · -- same price: the front of the queue has the smallest stamp
      have hlt : st < st' := by
        have hq' := h.queue (s.heap order).side.opposite key
        rw [hq] at hq'
        have hsub := h.stamps.filter
          (fun x => decide ((s.heap x.1).side = (s.heap order).side.opposite ∧ (s.heap x.1).price = key))
        have hpf : (p, st') ∈ flat.filter fun x =>
            decide ((s.heap x.1).side = (s.heap order).side.opposite ∧ (s.heap x.1).price = key) :=
          List.mem_filter.2 ⟨hp, decide_eq_true ⟨hcand.1, heq⟩⟩
        rcases hl : flat.filter (fun x => decide ((s.heap x.1).side = (s.heap order).side.opposite ∧
          (s.heap x.1).price = key)) with _ | ⟨⟨m, st₀⟩, l⟩
        · rw [hl] at hpf; cases hpf
        · rw [hl] at hq' hsub hpf
          obtain ⟨rfl, -⟩ := List.cons.inj hq'
          have hm₀ : (maker, st₀) ∈ flat := (List.mem_filter.1 (hl ▸ List.mem_cons_self ..)).1
          rw [h.stamp_unique hI hst hm₀]
          rcases List.mem_cons.1 hpf with heq' | hpl
          · obtain ⟨rfl, rfl⟩ := Prod.mk.inj heq'
            exact absurd (by rw [h.stamp_unique hI hst hp]) hne
          · exact (List.pairwise_cons.1 hsub).1 _ hpl
      have hpk : (s.heap maker).price = (s.heap p).price := by rw [hprice, heq]
      show Resting.precedes (s.heap order).side _ _ = true
      unfold Resting.precedes
      cases (s.heap order).side <;> simp [Order.ref, hpk, hlt]
    · show Resting.precedes (s.heap order).side _ _ = true
      unfold Resting.precedes
      cases hd : (s.heap order).side <;> rw [hd] at hle <;>
        simp only [Order.ref, hprice, Bool.or_eq_true, decide_eq_true_eq]
      · exact .inl (lt_of_le_of_ne hle (Ne.symm heq))
      · exact .inl (lt_of_le_of_ne hle heq)

/-- A taker without a target has no candidate. -/
theorem choose_none (h : Sim T flat s e) (hI : BookInv F s.toOrderBook) {order : OrderPtr}
    (hpos : 0 < (s.heap order).remainingQuantity) (hd : ∀ key maker rest, ¬ Target order s key maker rest) :
    e.choose (s.heap order).ref = none := by
  refine RefEngine.choose_eq_none fun c hc => ?_
  rw [h.resting] at hc
  obtain ⟨⟨p, st⟩, hp, rfl⟩ := List.mem_map.1 hc
  rw [← Bool.not_eq_true]
  intro hcand
  simp only [RefOrder.candidate, Bool.and_eq_true, decide_eq_true_eq] at hcand
  have hpq : p ∈ s.queue (s.heap order).side.opposite (s.heap p).price := h.mem_queue.2 ⟨hcand.1, rfl, st, hp⟩
  obtain ⟨key, maker, rest, ht⟩ := exists_target hI hpos (List.ne_nil_of_mem hpq) ((Order.ref_accepts _ _).1 hcand.2)
  exact hd key maker rest ht

/-! ## One trade -/

/-- The flat list after a trade with `maker`. -/
def afterHit (flat : List (OrderPtr × Nat)) (maker : OrderPtr) (s' : MatchState P) : List (OrderPtr × Nat) :=
  flat.filter fun x => decide (¬ (x.1 = maker ∧ (s'.heap maker).remainingQuantity = 0))

theorem stops_of_congr (h : Sim T flat s e) (hst : ∀ d, s'.stops d = s.stops d)
    (hh : ∀ p d k, p ∈ s.stopQueue d k → (s'.heap p).ref = (s.heap p).ref) :
    e.stopBuys = refStops s'.heap s'.stopBuyOrders ∧ e.stopSells = refStops s'.heap s'.stopSellOrders := by
  have hb : s'.stopBuyOrders = s.stopBuyOrders := hst .buy
  have hs : s'.stopSellOrders = s.stopSellOrders := hst .sell
  rw [h.stopBuys, h.stopSells, hb, hs]
  constructor
  · refine (refStops_congr fun p hp => ?_).symm
    obtain ⟨k, hk⟩ := mem_contents_stops.1 (show p ∈ contents (s.stops .buy) from hp)
    exact hh p .buy k hk
  · refine (refStops_congr fun p hp => ?_).symm
    obtain ⟨k, hk⟩ := mem_contents_stops.1 (show p ∈ contents (s.stops .sell) from hp)
    exact hh p .sell k hk

theorem hit {order maker : OrderPtr} {key : P} {rest : List OrderPtr} {st : Nat} (h : Sim T flat s e)
    (hI : BookInv (order :: F) s.toOrderBook) (he : HitEffect order key maker rest s s') (hm : (maker, st) ∈ flat) :
    ((s.heap order).ref.remaining ≠ 0) ∧
      (RefEngine.trade (s.heap order).ref ⟨(s.heap maker).ref, st⟩ e).1 = (s'.heap order).ref ∧
      Sim T (afterHit flat maker s') s' (RefEngine.trade (s.heap order).ref ⟨(s.heap maker).ref, st⟩ e).2 := by
  have hq : (hitQuantity order maker s).toNat = min (s.heap order).ref.remaining (s.heap maker).ref.remaining :=
    hitQuantity_toNat order maker s
  have hleT : hitQuantity order maker s ≤ (s.heap order).remainingQuantity := by
    rw [UInt32.le_iff_toNat_le, hitQuantity_toNat]; omega
  have hleM : hitQuantity order maker s ≤ (s.heap maker).remainingQuantity := by
    rw [UInt32.le_iff_toNat_le, hitQuantity_toNat]; omega
  have htaker : (s'.heap order).ref = _ := (congrArg Order.ref he.heapTaker).trans (Order.fill_ref he.takerLive hleT)
  have hmaker : (s'.heap maker).ref = _ := (congrArg Order.ref he.heapMaker).trans (Order.fill_ref he.makerLive hleM)
  have hpos : (s.heap order).ref.remaining ≠ 0 := by
    have := UInt32.lt_iff_toNat_lt.1 he.takerLive.remaining
    exact Nat.pos_iff_ne_zero.1 this
  -- a resting order is the maker or keeps its value
  have hother : ∀ x ∈ flat, x.1 ≠ maker → s'.heap x.1 = s.heap x.1 := fun x hx hne =>
    he.heapOther x.1 (fun heq => hI.flight order (List.mem_cons_self ..) (heq ▸ h.held hx)) hne
  have hfull : (s'.heap maker).remainingQuantity = 0 ↔ (s.heap maker).ref.remaining = (hitQuantity order maker s).toNat := by
    have hr := he.maker_spec.2.2
    rw [← UInt32.toNat_inj]
    simp only [Order.ref, UInt32.toNat_zero]
    omega
  obtain ⟨hsb, hss⟩ := h.stops_of_congr he.stops fun p d k hp => by
    rw [he.heapOther p]
    · rintro rfl; exact hI.flight _ (List.mem_cons_self ..) (.inr ⟨d, k, hp⟩)
    · rintro rfl
      exact hI.not_mem_stopQueue (show p ∈ s.queue _ key by rw [he.makerMem]; exact List.mem_cons_self ..) hp
  refine ⟨hpos, ?_, ?_, fun d k => ?_, h.stamps.filter _, fun x hx => h.stampsLt x (List.mem_filter.1 hx).1, hsb, hss, ?_⟩
  · rw [htaker, hq]; rfl
  · show e.resting.filterMap _ = _
    unfold afterHit
    rw [h.resting, List.filterMap_map, ← List.filterMap_eq_map, List.filterMap_filter]
    refine List.filterMap_congr fun x hx => ?_
    show Resting.reduce st (min _ _) _ = _
    rw [← hq]
    by_cases hxm : x.1 = maker
    · obtain ⟨p, st'⟩ := x
      simp only at hxm
      subst hxm
      cases h.stamp_unique hI hx hm
      unfold Resting.reduce
      simp only [if_true, true_and, hfull, Function.comp, hmaker, decide_not, Bool.not_eq_true', decide_eq_false_iff_not]
      by_cases hz : (s.heap p).ref.remaining = (hitQuantity order p s).toNat <;> simp [hz]
    · have hst : x.2 ≠ st := fun heq => hxm (congrArg Prod.fst (h.eq_of_stamp hx hm heq))
      unfold Resting.reduce
      simp [hst, hxm, hother x hx hxm]
  · rw [he.queue_filter hI, h.queue, List.filter_map, List.filter_filter]
    unfold afterHit
    rw [List.filter_filter]
    congr 1
    refine List.filter_congr fun x _ => ?_
    rw [(he.static x.1).side, (he.static x.1).price, Bool.and_comm]
    rfl
  · show e.trades ++ _ = _
    rw [h.trades, he.trades, List.map_append, ← List.append_assoc]
    congr 1
    simp only [List.map_cons, List.map_nil, List.cons.injEq, and_true]
    unfold RefEngine.tradeOf Trade.ref MatchState.tradeOf
    rw [hq]
    cases hside : (s.heap order).side <;> simp [Order.ref, hside]

end Sim

/-! ## A sweep, an activation -/

theorem hits_waiting {F : List OrderPtr} {order : OrderPtr} {s s' : MatchState P}
    (h : Relation.ReflTransGen (HitStep order) s s') (hI : Inv (order :: F) s.toOrderBook) :
    ∀ p ∈ F, s'.heap p = s.heap p := by
  induction h with
  | refl => intro p _; rfl
  | tail h1 hs ih =>
    intro p hp
    obtain ⟨key, maker, rest, ht, rfl⟩ := hs
    have hI₁ := hits_inv h1 hI
    have he := hit_effect hI₁.toBookInv ht
    rw [← ih p hp]
    apply he.heapOther
    · rintro rfl; exact (List.nodup_cons.1 hI.flightNodup).1 hp
    · rintro rfl
      exact hI₁.flight p (List.mem_cons_of_mem _ hp)
        (.inl ⟨_, key, by rw [he.makerMem]; exact List.mem_cons_self ..⟩)

/-- The reference engine executes the taker of a sweep with the same trades. -/
theorem Sim.sweep {T : List (RefTrade P)} {order : OrderPtr} {F : List OrderPtr} {s s' : MatchState P}
    (h : Relation.ReflTransGen (HitStep order) s s') (hd : ∀ key maker rest, ¬ Target order s' key maker rest)
    (hI : Inv (order :: F) s.toOrderBook) :
    ∀ (flat : List (OrderPtr × Nat)) (e : RefEngine P) (fuel : Nat), Sim T flat s e →
      (flat.length < fuel ∨ ((s.heap order).remainingQuantity = 0 ∧ 0 < fuel)) →
      ∃ flat' e', RefEngine.sweep fuel (s.heap order).ref e = some ((s'.heap order).ref, e') ∧ Sim T flat' s' e' := by
  induction h using Relation.ReflTransGen.head_induction_on with
  | refl =>
    intro flat e fuel hS hf
    obtain ⟨f, rfl⟩ : ∃ f, fuel = f + 1 := ⟨fuel - 1, by omega⟩
    refine ⟨flat, e, ?_, hS⟩
    unfold RefEngine.sweep
    by_cases hz : (s'.heap order).remainingQuantity = 0
    · rw [if_pos (by simp [Order.ref, hz])]
    · rw [if_neg (by simp [Order.ref, ← UInt32.toNat_inj] at hz ⊢; exact hz),
        hS.choose_none hI.toBookInv (UInt32.pos_iff_ne_zero.2 hz) hd]
  | @head t _ hs _ ih =>
    intro flat e fuel hS hf
    obtain ⟨key, maker, rest, ht, rfl⟩ := hs
    have he := hit_effect hI.toBookInv ht
    obtain ⟨st, hst, hch⟩ := hS.choose_target hI.toBookInv ht
    obtain ⟨hne, htk, hS'⟩ := hS.hit hI.toBookInv he hst
    have hf' : flat.length < fuel := by
      rcases hf with hf | ⟨h0, -⟩
      · exact hf
      · have := ht.pos
        rw [h0] at this; exact absurd this (by decide)
    have hpos : 0 < flat.length := List.length_pos_of_mem hst
    obtain ⟨f, rfl⟩ : ∃ f, fuel = f + 1 := ⟨fuel - 1, by omega⟩
    -- a filled maker shortens the flat list; otherwise the taker is exhausted
    obtain ⟨flat', e', h1, h2⟩ := ih (he.inv hI) _ _ f hS' (by
      rcases he.exhausts with hz | hz
      · exact .inr ⟨hz, by omega⟩
      · left
        have hlt : (Sim.afterHit flat maker (MatchState.hit order key maker rest t)).length < flat.length :=
          List.length_filter_lt_length_iff_exists.2 ⟨_, hst, by simp [hz]⟩
        omega)
    refine ⟨flat', e', ?_, h2⟩
    rw [RefEngine.sweep, if_neg hne, hch]
    simp only [htk]
    exact h1

namespace Sim

variable {T : List (RefTrade P)} {flat : List (OrderPtr × Nat)} {s s' : MatchState P} {e : RefEngine P}
  {F : List OrderPtr} {order : OrderPtr}

/-- A step the reference engine does not see. -/
theorem frame (h : Sim T flat s e) (hh : ∀ p, s.Held p → (s'.heap p).ref = (s.heap p).ref)
    (hq : ∀ d k, s'.queue d k = s.queue d k) (hst : ∀ d, s'.stops d = s.stops d)
    (ht : s'.pendingTrades = s.pendingTrades) : Sim T flat s' e := by
  have hx : ∀ x ∈ flat, (s'.heap x.1).ref = (s.heap x.1).ref := fun x hx => hh x.1 (h.held hx)
  obtain ⟨hsb, hss⟩ := h.stops_of_congr hst fun p d k hp => hh p (.inr ⟨d, k, hp⟩)
  refine ⟨?_, fun d k => ?_, h.stamps, h.stampsLt, hsb, hss, by rw [ht]; exact h.trades⟩
  · rw [h.resting]
    exact List.map_congr_left fun x hm => by rw [hx x hm]
  · rw [hq, h.queue]
    congr 1
    refine List.filter_congr fun x hm => ?_
    have hside : (s'.heap x.1).side = (s.heap x.1).side := congrArg RefOrder.side (hx x hm)
    have hprice : (s'.heap x.1).price = (s.heap x.1).price := congrArg RefOrder.price (hx x hm)
    rw [hside, hprice]

theorem place (h : Sim T flat s e) (hp : PlaceEffect order s s') :
    ∃ flat', Sim T flat' s' (e.place (s.heap order).ref) := by
  cases hp with
  | rest hl ht heq =>
    subst heq
    have hheap : (s.addOrderToBook order).heap = s.heap := setLevels_heap ..
    have hpl : e.place (s.heap order).ref =
        { e with resting := e.resting ++ [⟨(s.heap order).ref, e.nextStamp⟩], nextStamp := e.nextStamp + 1 } := by
      have h0 : (s.heap order).remainingQuantity.toNat ≠ 0 :=
        Nat.pos_iff_ne_zero.1 (UInt32.lt_iff_toNat_lt.1 hl.remaining)
      unfold RefEngine.place
      rw [if_neg (by simp [Order.ref, ht, h0])]
    rw [hpl]
    refine ⟨flat ++ [(order, e.nextStamp)], ?_, fun d k => ?_, ?_, ?_, ?_, ?_, ?_⟩
    · rw [hheap, h.resting, List.map_append]; rfl
    · rw [addOrderToBook_queue, hheap, List.filter_append, List.map_append, h.queue]
      by_cases hc : d = (s.heap order).side ∧ k = (s.heap order).price
      · rw [if_pos hc]
        simp [hc]
      · rw [if_neg hc, List.filter_cons_of_neg fun hd => hc ?_]
        · simp
        · obtain ⟨h1, h2⟩ := of_decide_eq_true hd
          exact ⟨h1.symm, h2.symm⟩
    · refine List.pairwise_append.2 ⟨h.stamps, List.pairwise_singleton _ _, fun x hx y hy => ?_⟩
      rw [List.mem_singleton.1 hy]; exact h.stampsLt x hx
    · intro x hx
      show x.2 < e.nextStamp + 1
      rcases List.mem_append.1 hx with hx | hx
      · exact (h.stampsLt x hx).trans (Nat.lt_succ_self _)
      · rw [List.mem_singleton.1 hx]; exact Nat.lt_succ_self _
    · show e.stopBuys = _
      rw [h.stopBuys, hheap]
      exact congrArg _ (setLevels_stops s _ .buy _).symm
    · show e.stopSells = _
      rw [h.stopSells, hheap]
      exact congrArg _ (setLevels_stops s _ .sell _).symm
    · show e.trades = _
      rw [h.trades]
      exact congrArg (T ++ List.map Trade.ref ·) (setLevels_pendingTrades ..).symm
  | cancel hl ht heq =>
    have hpl : e.place (s.heap order).ref = e := if_pos (by simp [Order.ref, ht])
    rw [hpl]
    refine ⟨flat, h.frame (fun p _ => ?_) (fun d k => ?_) (fun d => ?_) ?_⟩ <;> subst heq
    · show (Function.update s.heap order _ p).ref = _
      by_cases hp : p = order
      · subst hp; rw [Function.update_self]; rfl
      · rw [Function.update_of_ne hp]
    · cases d <;> rfl
    · cases d <;> rfl
    · rfl
  | drop h0 hf heq =>
    have hpl : e.place (s.heap order).ref = e := if_pos (by simp [Order.ref, h0])
    rw [hpl]
    refine ⟨flat, h.frame (fun p _ => ?_) (fun d k => ?_) (fun d => ?_) ?_⟩ <;> subst heq
    · rfl
    · cases d <;> rfl
    · cases d <;> rfl
    · rfl

/-- Matching an order and placing its remainder, in both engines. -/
theorem activate (h : Sim T flat s e) (hI : Inv (order :: F) s.toOrderBook) {s₁ : MatchState P}
    (hsw : Sweep order (s.logMatch order) s₁) :
    ∃ flat' e', e.activate (s.heap order).ref = some e' ∧ Sim T flat' (s₁.placeRemainder order) e' := by
  have hlog : Sim T flat (s.logMatch order) e := h.frame (fun _ _ => rfl) (fun d k => by cases d <;> rfl)
    (fun d => logMatch_stops ..) rfl
  have hlen : e.resting.length = flat.length := by rw [h.resting, List.length_map]
  obtain ⟨flat₁, e₁, h1, h2⟩ := Sim.sweep hsw.hits hsw.done hI flat e (e.resting.length + 1) hlog
    (.inl (by rw [hlen]; exact Nat.lt_succ_self _))
  obtain ⟨flat', h3⟩ := h2.place (placeRemainder_effect (hsw.inv hI))
  refine ⟨flat', _, ?_, h3⟩
  unfold RefEngine.activate
  have h1' : RefEngine.sweep (e.resting.length + 1) (s.heap order).ref e = some ((s₁.heap order).ref, e₁) := h1
  rw [h1']; rfl

/-! ## The stop maps -/

theorem stopCount (h : Sim T flat s e) : e.stopCount = s.stopCount := by
  unfold RefEngine.stopCount MatchState.stopCount
  rw [h.stopBuys, h.stopSells]
  unfold refStops SortedMap.mapVals
  simp [Function.comp_def]

theorem newPrices (h : Sim T flat s e) (n : Nat) : e.newPrices (T.length + n) = MatchState.newPrices n s := by
  unfold RefEngine.newPrices MatchState.newPrices priceSet
  have hdrop : e.trades.drop (T.length + n) = (s.pendingTrades.drop n).map Trade.ref := by
    rw [h.trades, List.drop_append, List.drop_of_length_le (by omega), List.nil_append, List.map_drop]
    congr 1; omega
  rw [hdrop, List.map_map]
  rfl

end Sim

theorem takeTriggered_map {β γ : Type} (g : β → γ) (price : P) (sb ss : SortedMap P (List β)) :
    takeTriggered price (sb.mapVals (List.map g), ss.mapVals (List.map g)) =
      ((takeTriggered price (sb, ss)).1.map g, (takeTriggered price (sb, ss)).2.1.mapVals (List.map g),
        (takeTriggered price (sb, ss)).2.2.mapVals (List.map g)) := by
  unfold takeTriggered
  simp only [SortedMap.popMinWhile_mapVals, SortedMap.popMaxWhile_mapVals, List.map_append, List.map_flatMap,
    List.flatMap_map]

/-- The trigger loop does not look at the orders, so it commutes with any map of them. -/
theorem takeAllTriggered_map {β γ : Type} (g : β → γ) : ∀ (prices : List P) (sb ss : SortedMap P (List β)),
    takeAllTriggered prices (sb.mapVals (List.map g), ss.mapVals (List.map g)) =
      ((takeAllTriggered prices (sb, ss)).1.map g, (takeAllTriggered prices (sb, ss)).2.1.mapVals (List.map g),
        (takeAllTriggered prices (sb, ss)).2.2.mapVals (List.map g))
  | [], sb, ss => rfl
  | price :: prices, sb, ss => by
    rw [takeAllTriggered, takeTriggered_map, takeAllTriggered]
    simp only [takeAllTriggered_map g prices, List.map_append]

theorem triggerStops_maps (prices : List P) (s : MatchState P) :
    let r := takeAllTriggered prices (s.stopBuyOrders, s.stopSellOrders)
    (triggerStops prices s).1 = r.1 ∧ (triggerStops prices s).2.stopBuyOrders = r.2.1 ∧
      (triggerStops prices s).2.stopSellOrders = r.2.2 := by
  intro r
  obtain ⟨heap, hh⟩ := triggerOrders_frame r.1 { s with stopBuyOrders := r.2.1, stopSellOrders := r.2.2 }
  have hs : (triggerStops prices s).2 = triggerOrders r.1 { s with stopBuyOrders := r.2.1, stopSellOrders := r.2.2 } :=
    rfl
  rw [hs, hh]
  exact ⟨rfl, rfl, rfl⟩

namespace Sim

variable {T : List (RefTrade P)} {flat : List (OrderPtr × Nat)} {s s' : MatchState P} {e : RefEngine P}

/-- The trigger step, in both engines. -/
theorem trigger (h : Sim T flat s e) (hI : Inv [] s.toOrderBook) (prices : List P) :
    takeAllTriggered prices (e.stopBuys, e.stopSells) =
      ((triggerStops prices s).1.map fun p => (s.heap p).ref,
        refStops s.heap (triggerStops prices s).2.stopBuyOrders, refStops s.heap (triggerStops prices s).2.stopSellOrders) ∧
      Sim T flat (triggerStops prices s).2
        { e with
          stopBuys := refStops s.heap (triggerStops prices s).2.stopBuyOrders
          stopSells := refStops s.heap (triggerStops prices s).2.stopSellOrders } := by
  have he := triggerStops_effect prices s
  have hB := hI.toBookInv
  obtain ⟨hfst, hsb, hss⟩ := triggerStops_maps prices s
  -- an order still held afterwards was not triggered, so its object is unchanged
  have hkeep : ∀ p, (triggerStops prices s).2.Held p → (triggerStops prices s).2.heap p = s.heap p := fun p hp => by
    rw [he.heap, if_neg ((he.held_iff hB).1 hp).2]
  have hflat : ∀ x ∈ flat, (triggerStops prices s).2.heap x.1 = s.heap x.1 := fun x hx => by
    refine hkeep x.1 ((he.held_iff hB).2 ⟨h.held hx, fun ht => ?_⟩)
    obtain ⟨d, k, hk, -⟩ := (he.mem x.1).1 ht
    exact hB.not_mem_stopQueue (h.mem_queue.2 ⟨rfl, rfl, x.2, hx⟩) hk
  refine ⟨?_, ?_, fun d k => ?_, h.stamps, h.stampsLt, ?_, ?_, ?_⟩
  · rw [h.stopBuys, h.stopSells]
    unfold refStops
    rw [takeAllTriggered_map, hfst, hsb, hss]
  · show e.resting = _
    rw [h.resting]
    exact List.map_congr_left fun x hx => by rw [hflat x hx]
  · rw [he.queue, h.queue]
    congr 1
    refine List.filter_congr fun x hx => ?_
    rw [hflat x hx]
  · refine (refStops_congr fun p hp => ?_).symm
    obtain ⟨k, hk⟩ := mem_contents_stops.1 (show p ∈ contents ((triggerStops prices s).2.stops .buy) from hp)
    rw [hkeep p (.inr ⟨_, k, hk⟩)]
  · refine (refStops_congr fun p hp => ?_).symm
    obtain ⟨k, hk⟩ := mem_contents_stops.1 (show p ∈ contents ((triggerStops prices s).2.stops .sell) from hp)
    rw [hkeep p (.inr ⟨_, k, hk⟩)]
  · show e.trades = _
    rw [h.trades, he.trades]

end Sim

end OrderbookGC
