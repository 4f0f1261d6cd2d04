/-
Price-time priority of the book as a refinement, over whole calls and whole runs: for every
sequence of calls the book and the reference engine make the same trades and end with the same
resting and stop orders (`run_refines`). `toRef` reads a state of the reference engine off a book,
so that what one call of `addOrder` trades is stated over the book before the call
(`AddEffect.refTrades`).
-/
import OrderbookGC.Book.Refinement

namespace OrderbookGC

open Container OrderBook MatchState

variable {P : Type} [LinearOrder P]

/-! ## One call -/

namespace RefEngine

theorem sweep_stops : ∀ (fuel : Nat) (o : RefOrder P) (e : RefEngine P) {r : RefOrder P × RefEngine P},
    sweep fuel o e = some r → r.2.stopBuys = e.stopBuys ∧ r.2.stopSells = e.stopSells
  | 0, _, _, _, h => by cases h
  | fuel + 1, o, e, r, h => by
    unfold sweep at h
    split_ifs at h
    · cases h; exact ⟨rfl, rfl⟩
    · split at h
      · cases h; exact ⟨rfl, rfl⟩
      · next c _ => exact sweep_stops fuel (trade o c e).1 (trade o c e).2 h

/-- Executing an order leaves the stop maps alone. -/
theorem activate_stopCount {e e' : RefEngine P} {o : RefOrder P} (h : e.activate o = some e') :
    e'.stopCount = e.stopCount := by
  obtain ⟨⟨o', e₁⟩, h1, rfl⟩ := Option.map_eq_some_iff.1 h
  obtain ⟨h2, h3⟩ := sweep_stops _ _ _ h1
  have hp : (e₁.place o').stopBuys = e₁.stopBuys ∧ (e₁.place o').stopSells = e₁.stopSells := by
    unfold place; split_ifs <;> exact ⟨rfl, rfl⟩
  unfold stopCount
  rw [hp.1, hp.2, h2, h3]

end RefEngine

namespace Sim

variable {T : List (RefTrade P)}

/-- A whole cascade, in both engines. -/
theorem cascade {n : Nat} {F : List OrderPtr} {s s' : MatchState P} (h : Cascade n F s s') :
    ∀ (flat : List (OrderPtr × Nat)) (e : RefEngine P) (fuel : Nat), Inv F s.toOrderBook → Sim T flat s e →
      e.stopCount < fuel →
      ∃ flat' e', ((F.map fun p => (s.heap p).ref).foldlM RefEngine.activate e).bind (fun e =>
          if T.length + n < e.trades.length then RefEngine.processStops fuel (T.length + n) e else some e) = some e' ∧
        Sim T flat' s' e' := by
  have hlen : ∀ {flat : List (OrderPtr × Nat)} {s : MatchState P} {e : RefEngine P}, Sim T flat s e →
      e.trades.length = T.length + s.pendingTrades.length := fun h => by
    rw [h.trades, List.length_append, List.length_map]
  induction h with
  | done hn =>
    intro flat e fuel hI hS _
    refine ⟨flat, e, ?_, hS⟩
    simp only [List.map_nil, List.foldlM_nil, pure, Option.bind_some]
    rw [if_neg (by rw [hlen hS, hn]; exact lt_irrefl _)]
  | @trigger n s s' hn _ ih =>
    intro flat e fuel hI hS hfuel
    obtain ⟨f, rfl⟩ : ∃ f, fuel = f + 1 := ⟨fuel - 1, by omega⟩
    have he := triggerStops_effect (MatchState.newPrices n s) s
    obtain ⟨htake, hS₁⟩ := hS.trigger hI (MatchState.newPrices n s)
    have htrig : ((triggerStops (MatchState.newPrices n s) s).1.map fun p => (s.heap p).ref).map RefOrder.trigger =
        (triggerStops (MatchState.newPrices n s) s).1.map fun p => ((triggerStops (MatchState.newPrices n s) s).2.heap p).ref := by
      rw [List.map_map]
      refine List.map_congr_left fun p hp => ?_
      rw [he.heap, if_pos hp, Order.trigger_ref]; rfl
    have hN : e.trades.length = T.length + s.pendingTrades.length := hlen hS
    simp only [List.map_nil, List.foldlM_nil, pure, Option.bind_some]
    rw [if_pos (by rw [hN]; omega), RefEngine.processStops, hS.newPrices, htake]
    simp only
    rw [htrig, hN]
    by_cases hemp : (triggerStops (MatchState.newPrices n s) s).1 = []
    · -- nothing triggered: the recursion ends here, and so does the cascade
      obtain ⟨flat', e', h1, h2⟩ := ih flat _ (f + 2) (he.inv hI) hS₁ (by
        rw [hS₁.stopCount]
        have := he.count
        rw [← hS.stopCount] at this
        omega)
      refine ⟨flat', e', ?_, h2⟩
      rw [hemp] at h1 ⊢
      rw [List.map_nil, List.foldlM_nil] at h1 ⊢
      have hno : ¬ T.length + s.pendingTrades.length < e.trades.length := by omega
      simp only [pure, Option.bind_some] at h1 ⊢
      rw [if_neg hno] at h1 ⊢
      exact h1
    · refine ih flat _ f (he.inv hI) hS₁ ?_
      rw [hS₁.stopCount]
      have := he.count
      have hpos := List.length_pos_of_ne_nil hemp
      rw [← hS.stopCount] at this
      omega
  | @activate n order F s s₁ s' hsw _ ih =>
    intro flat e fuel hI hS hfuel
    obtain ⟨flat₁, e₁, h1, hS₁⟩ := hS.activate hI hsw
    have hI₁ := hsw.inv (s := s.logMatch order) hI
    have hp := placeRemainder_effect hI₁
    have hwait : (F.map fun p => (s.heap p).ref) = F.map fun p => ((s₁.placeRemainder order).heap p).ref := by
      refine List.map_congr_left fun p hpF => ?_
      rcases hp.heap p with heq | ⟨rfl, -⟩
      · rw [heq, hits_waiting hsw.hits hI p hpF]; rfl
      · exact absurd hpF (List.nodup_cons.1 hI.flightNodup).1
    obtain ⟨flat', e', h2, h3⟩ := ih flat₁ e₁ fuel (hp.inv hI₁) hS₁ (by
      rw [hS₁.stopCount, stopCount_congr hp.frame.1, stopCount_congr (hsw.frame hI).1,
        stopCount_congr (logMatch_stops s · order), ← hS.stopCount]
      exact hfuel)
    refine ⟨flat', e', ?_, h3⟩
    rw [List.map_cons, List.foldlM_cons, h1, hwait]
    exact h2

variable {flat : List (OrderPtr × Nat)} {b b' : OrderBook P} {e : RefEngine P}

/-- Between calls the trades of the last call are history. -/
theorem restart {s : MatchState P} (h : Sim T flat s e) :
    Sim (T ++ s.pendingTrades.map Trade.ref) flat (start s.toOrderBook) e :=
  ⟨h.resting, h.queue, h.stamps, h.stampsLt, h.stopBuys, h.stopSells, by
    rw [h.trades]; exact (List.append_nil _).symm⟩

theorem allocate (h : Sim T flat (start b) e) (hI : Inv [] b) (o : Order P) :
    Sim T flat (start (b.alloc o).2) e := by
  refine h.frame (fun p hp => ?_) (fun d k => by cases d <;> rfl) (fun d => by cases d <;> rfl) rfl
  show (Function.update b.heap b.nextPtr o p).ref = _
  rw [Function.update_of_ne (ne_of_lt (hI.alloc (.inl hp)))]; rfl

/-- The ids of the stop orders of one side. -/
theorem any_refStops {heap : OrderPtr → Order P} {m : SortedMap P (List OrderPtr)} {id : String} :
    (refStops heap m).entries.any (fun x => x.2.any fun o => o.id = id) = true ↔
      ∃ p ∈ contents m, (heap p).id = id := by
  unfold refStops SortedMap.mapVals contents
  simp only [List.any_eq_true, List.mem_map, decide_eq_true_eq, List.mem_flatMap, Order.ref]
  constructor
  · rintro ⟨_, ⟨x, hx, rfl⟩, o, ho, hid⟩
    obtain ⟨p, hp, rfl⟩ := List.mem_map.1 ho
    exact ⟨p, ⟨x, hx, hp⟩, hid⟩
  · rintro ⟨p, ⟨x, hx, hp⟩, hid⟩
    exact ⟨_, ⟨x, hx, rfl⟩, _, List.mem_map.2 ⟨p, hp, rfl⟩, hid⟩

/-- The reference engine holds an id exactly when some order of the book has it. -/
theorem holds_iff (h : Sim T flat (start b) e) {id : String} :
    e.holds id = true ↔ ∃ p, b.Held p ∧ (b.heap p).id = id := by
  have hsb : e.stopBuys = refStops b.heap b.stopBuyOrders := h.stopBuys
  have hss : e.stopSells = refStops b.heap b.stopSellOrders := h.stopSells
  have hst : ∀ d p, p ∈ contents (b.stops d) → b.Held p := fun d p hp => by
    obtain ⟨k, hk⟩ := mem_contents_stops.1 hp
    exact .inr ⟨d, k, hk⟩
  unfold RefEngine.holds
  rw [Bool.or_eq_true, Bool.or_eq_true, hsb, hss, any_refStops, any_refStops, h.resting]
  simp only [List.any_eq_true, List.mem_map, decide_eq_true_eq]
  constructor
  · rintro ((⟨_, ⟨x, hx, rfl⟩, hid⟩ | ⟨p, hp, hid⟩) | ⟨p, hp, hid⟩)
    · exact ⟨x.1, h.held hx, hid⟩
    · exact ⟨p, hst .buy p hp, hid⟩
    · exact ⟨p, hst .sell p hp, hid⟩
  · rintro ⟨p, ⟨d, k, hk⟩ | ⟨d, k, hk⟩, hid⟩
    · obtain ⟨-, -, st, hx⟩ := h.mem_queue.1 (show p ∈ (start b).queue d k from hk)
      exact .inl (.inl ⟨_, ⟨_, hx, rfl⟩, hid⟩)
    · cases d
      · exact .inl (.inr ⟨p, mem_contents_stops.2 ⟨k, hk⟩, hid⟩)
      · exact .inr ⟨p, mem_contents_stops.2 ⟨k, hk⟩, hid⟩

theorem holds_eq (h : Sim T flat (start b) e) (hI : Inv [] b) (id : String) :
    e.holds id = (b.ordersById.find? id).isSome := by
  rw [Bool.eq_iff_iff, h.holds_iff, Option.isSome_iff_exists]
  refine exists_congr fun p => ?_
  rw [hI.toBookInv.index]
  simp [and_comm]

theorem addStop {s : MatchState P} {order : OrderPtr} (h : Sim T flat s e) :
    Sim T flat (s.addStopOrder order) (e.addStop (s.heap order).ref) := by
  have hheap := addStopOrder_heap order s
  have hmap : ∀ (d : OrderSide), d = (s.heap order).side →
      refStops s.heap ((s.addStopOrder order).stops d) =
        (refStops s.heap (s.stops d)).insert (s.heap order).stopPrice
          (((refStops s.heap (s.stops d)).find? (s.heap order).stopPrice).getD [] ++ [(s.heap order).ref]) := by
    intro d hd
    apply SortedMap.ext_find?
    intro k
    unfold refStops
    rw [SortedMap.find?_mapVals, addStopOrder_find?, SortedMap.find?_insert, SortedMap.find?_mapVals,
      SortedMap.find?_mapVals]
    by_cases hk : k = (s.heap order).stopPrice
    · rw [if_pos ⟨hd, hk⟩, if_pos hk, hk]
      unfold OrderBook.stopQueue
      cases (s.stops d).find? (s.heap order).stopPrice <;> simp
    · rw [if_neg (fun hc => hk hc.2), if_neg hk]
  have hkeep : ∀ (d : OrderSide), d ≠ (s.heap order).side → (s.addStopOrder order).stops d = s.stops d := by
    intro d hd
    apply SortedMap.ext_find?
    intro k
    rw [addStopOrder_find?, if_neg (fun hc => hd hc.1)]
  have hq : ∀ d k, (s.addStopOrder order).queue d k = s.queue d k := fun d k => by
    unfold OrderBook.queue; rw [addStopOrder_levels]
  have ht : (s.addStopOrder order).pendingTrades = s.pendingTrades := addStopOrder_pendingTrades order s
  have hres : ∀ e' : RefEngine P, e'.resting = e.resting → e'.nextStamp = e.nextStamp → e'.trades = e.trades →
      e'.stopBuys = refStops s.heap ((s.addStopOrder order).stops .buy) →
      e'.stopSells = refStops s.heap ((s.addStopOrder order).stops .sell) → Sim T flat (s.addStopOrder order) e' := by
    intro e' h1 h2 h3 h4 h5
    refine ⟨by rw [h1, hheap]; exact h.resting, fun d k => by rw [hq, hheap]; exact h.queue d k, h.stamps,
      by rw [h2]; exact h.stampsLt, by rw [hheap]; exact h4, by rw [hheap]; exact h5, by rw [h3, ht]; exact h.trades⟩
  unfold RefEngine.addStop
  cases hside : (s.heap order).side
  · have : (s.heap order).ref.side = .buy := hside
    rw [this]
    refine hres _ rfl rfl rfl ?_ ?_
    · rw [hmap .buy hside.symm]
      exact congrArg (fun m => SortedMap.insert m _ ((SortedMap.find? m _).getD [] ++ [_])) h.stopBuys
    · rw [hkeep .sell (by rw [hside]; simp)]; exact h.stopSells
  · have : (s.heap order).ref.side = .sell := hside
    rw [this]
    refine hres _ rfl rfl rfl ?_ ?_
    · rw [hkeep .buy (by rw [hside]; simp)]; exact h.stopBuys
    · rw [hmap .sell hside.symm]
      exact congrArg (fun m => SortedMap.insert m _ ((SortedMap.find? m _).getD [] ++ [_])) h.stopSells

theorem not_refused {order : OrderPtr} (h : Sim T flat (start b) e) (hI : Inv [] b) (ha : Admissible order b)
    (hid : b.ordersById.find? (b.heap order).id = none) :
    ¬ (decide ((b.heap order).ref.remaining = 0) || e.holds (b.heap order).ref.id) = true := by
  have h0 : (b.heap order).remainingQuantity.toNat ≠ 0 :=
    Nat.pos_iff_ne_zero.1 (UInt32.lt_iff_toNat_lt.1 ha.live.remaining)
  have hh : e.holds (b.heap order).id = false := by rw [h.holds_eq hI, hid]; rfl
  simp [hh, Order.ref, h0]

/-- One call of `addOrder`, in both engines. -/
theorem addOrder {order : OrderPtr} {out : AddOutcome P} (h : Sim T flat (start b) e) (hI : Inv [] b)
    (he : AddEffect order b out) :
    ∃ flat' e', e.addOrder (b.heap order).ref = some e' ∧ Sim T flat' out.state e' := by
  have hentered : Sim T flat (entered order b) e :=
    h.frame (fun _ _ => rfl) (fun d k => by cases d <;> rfl) (fun d => by cases d <;> rfl) rfl
  unfold RefEngine.addOrder
  cases he with
  | refused hr =>
    refine ⟨flat, e, if_pos ?_, h⟩
    rw [Bool.or_eq_true, decide_eq_true_eq]
    rcases hr with h0 | ⟨p, hp⟩
    · left; simp [Order.ref, h0]
    · right
      show e.holds (b.heap order).id = true
      rw [h.holds_eq hI, hp]; rfl
  | stopped ha hid hs =>
    rw [if_neg (h.not_refused hI ha hid), if_pos (by rw [Order.ref_isStop]; exact hs)]
    exact ⟨flat, _, rfl, hentered.addStop⟩
  | @matched s' ha hid hs hc =>
    rw [if_neg (h.not_refused hI ha hid), if_neg (by rw [Order.ref_isStop, hs]; simp)]
    have hlen : e.trades.length = T.length := by rw [h.trades]; simp [start]
    obtain ⟨flat', e', h1, h2⟩ := Sim.cascade hc flat e (e.stopCount + 1) (entered_inv hI ha hid hs) hentered
      (Nat.lt_succ_self _)
    refine ⟨flat', e', ?_, h2⟩
    rw [← h1, hlen]
    simp only [List.map_cons, List.map_nil, List.foldlM_cons, List.foldlM_nil, Nat.add_zero]
    have hact : e.activate (b.heap order).ref = e.activate ((entered order b).heap order).ref := rfl
    rw [hact]
    cases hr : e.activate ((entered order b).heap order).ref with
    | none => rfl
    | some e₁ =>
      rw [← RefEngine.activate_stopCount hr]
      rfl

omit [LinearOrder P] in
/-- A queue without the order of an id, when only `p` has that id in it. -/
theorem dropId_map (heap heap' : OrderPtr → Order P) {q : List OrderPtr} {p : OrderPtr} {id : String} (hnd : q.Nodup)
    (hid : ∀ x ∈ q, (heap x).id = id ↔ x = p) (hh : ∀ x ∈ q, (heap' x).ref = (heap x).ref) :
    RefEngine.dropId id (q.map fun x => (heap x).ref) =
      if q.erase p = [] then none else some ((q.erase p).map fun x => (heap' x).ref) := by
  have hf : (q.map fun x => (heap x).ref).filter (fun o => decide (o.id ≠ id)) =
      (q.erase p).map fun x => (heap' x).ref := by
    rw [hnd.erase_eq_filter, List.filter_map]
    have hpred : q.filter ((fun o : RefOrder P => decide (o.id ≠ id)) ∘ fun x => (heap x).ref) = q.filter (· != p) := by
      refine List.filter_congr fun x hx => ?_
      show decide (¬ (heap x).id = id) = (x != p)
      rw [Bool.eq_iff_iff, decide_eq_true_eq, bne_iff_ne]
      exact not_congr (hid x hx)
    rw [hpred]
    exact List.map_congr_left fun x hx => (hh x (List.mem_filter.1 hx).1).symm
  unfold RefEngine.dropId
  rw [hf]
  by_cases he : q.erase p = []
  · rw [if_pos he, if_pos (by rw [he]; rfl)]
  · rw [if_neg he, if_neg (by simpa using he)]

/-- `cancelOrder`, in both engines. -/
theorem cancel {id : String} {p : OrderPtr} (h : Sim T flat (start b) e) (hI : Inv [] b) (he : CancelEffect id p b b') :
    Sim T (flat.filter fun x => decide (x.1 ≠ p)) (start b') (e.cancelOrder id) := by
  have hB := hI.toBookInv
  have hid : ∀ x, b.Held x → ((b.heap x).id = id ↔ x = p) := fun x hx =>
    ⟨fun hxi => hB.eq_of_id (.inl hx) (.inl he.held) (hxi.trans he.id.symm), fun hxp => hxp ▸ he.id⟩
  have href : ∀ x, (b'.heap x).ref = (b.heap x).ref := by
    intro x
    by_cases hx : x = p
    · rw [hx, he.heap, Function.update_self]; rfl
    · rw [he.heapOther hx]
  have hstop : ∀ d, refStops b'.heap (b'.stops d) = (refStops b.heap (b.stops d)).filterMapVals (RefEngine.dropId id) := by
    intro d
    apply SortedMap.ext_find?
    intro k
    have hB' := (he.inv hI).toBookInv
    unfold refStops
    rw [SortedMap.find?_mapVals, SortedMap.find?_filterMapVals, SortedMap.find?_mapVals, hB.find?_stops, hB'.find?_stops,
      he.stopQueue]
    by_cases hq : b.stopQueue d k = []
    · simp [hq]
    · have hdrop := dropId_map b.heap b'.heap (p := p) (hB.nodupStop d k)
        (fun x hx => hid x (.inr ⟨d, k, hx⟩)) (fun x _ => href x)
      rw [if_neg hq]
      simp only [Option.map_some, Option.bind_some]
      rw [hdrop]
      split_ifs <;> rfl
  refine ⟨?_, fun d k => ?_, h.stamps.filter _, fun x hx => h.stampsLt x (List.mem_filter.1 hx).1, ?_, ?_, h.trades⟩
  · show e.resting.filter _ = _
    rw [h.resting, List.filter_map]
    have hpred : flat.filter ((fun r : Resting P => decide (r.order.id ≠ id)) ∘ fun x =>
        (⟨((start b).heap x.1).ref, x.2⟩ : Resting P)) = flat.filter fun x => decide (x.1 ≠ p) := by
      refine List.filter_congr fun x hx => ?_
      show decide (¬ (b.heap x.1).id = id) = decide (¬ x.1 = p)
      rw [decide_eq_decide, hid x.1 (h.held hx)]
    rw [hpred]
    exact List.map_congr_left fun x _ => by
      show (⟨(b.heap x.1).ref, x.2⟩ : Resting P) = ⟨(b'.heap x.1).ref, x.2⟩
      rw [href]
  · show b'.queue d k = _
    rw [he.queue, (hB.nodup d k).erase_eq_filter]
    have hq : b.queue d k = _ := h.queue d k
    rw [hq, List.filter_map, List.filter_filter, List.filter_filter]
    congr 1
    refine List.filter_congr fun x _ => ?_
    have hs : (b'.heap x.1).side = (b.heap x.1).side := congrArg RefOrder.side (href x.1)
    have hp : (b'.heap x.1).price = (b.heap x.1).price := congrArg RefOrder.price (href x.1)
    show ((x.1 != p) && decide ((b.heap x.1).side = d ∧ (b.heap x.1).price = k)) =
      (decide ((b'.heap x.1).side = d ∧ (b'.heap x.1).price = k) && decide (x.1 ≠ p))
    rw [hs, hp, Bool.and_comm, Bool.eq_iff_iff]
    simp only [Bool.and_eq_true, bne_iff_ne, decide_eq_true_eq]
  · show e.stopBuys.filterMapVals _ = refStops b'.heap (b'.stops .buy)
    rw [hstop, h.stopBuys]; rfl
  · show e.stopSells.filterMapVals _ = refStops b'.heap (b'.stops .sell)
    rw [hstop, h.stopSells]; rfl

/-- Cancelling an id nobody has changes nothing in either engine. -/
theorem cancel_none {id : String} (h : Sim T flat (start b) e) (hI : Inv [] b)
    (hid : b.ordersById.find? id = none) : e.cancelOrder id = e := by
  have hB := hI.toBookInv
  have hno : ∀ x, b.Held x → (b.heap x).id ≠ id := fun x hx hxi => by
    have := hB.index.2 ⟨hxi, .inl hx⟩
    rw [hid] at this; cases this
  have hstop : ∀ d, (refStops b.heap (b.stops d)).filterMapVals (RefEngine.dropId id) = refStops b.heap (b.stops d) := by
    intro d
    apply SortedMap.ext_find?
    intro k
    unfold refStops
    rw [SortedMap.find?_filterMapVals, SortedMap.find?_mapVals, hB.find?_stops]
    by_cases hq : b.stopQueue d k = []
    · simp [hq]
    · rw [if_neg hq]
      have hf : (((b.stopQueue d k).map fun x => (b.heap x).ref).filter fun o => decide (o.id ≠ id)) =
          (b.stopQueue d k).map fun x => (b.heap x).ref := by
        refine List.filter_eq_self.2 fun o ho => ?_
        obtain ⟨x, hx, rfl⟩ := List.mem_map.1 ho
        exact decide_eq_true (hno x (.inr ⟨d, k, hx⟩))
      simp only [Option.map_some, Option.bind_some]
      unfold RefEngine.dropId
      rw [hf, if_neg (by simpa using hq)]
  have hres : e.resting.filter (fun r => decide (r.order.id ≠ id)) = e.resting := by
    refine List.filter_eq_self.2 fun r hr => ?_
    rw [h.resting] at hr
    obtain ⟨x, hx, rfl⟩ := List.mem_map.1 hr
    exact decide_eq_true (hno x.1 (h.held hx))
  have hb : e.stopBuys.filterMapVals (RefEngine.dropId id) = e.stopBuys := by rw [h.stopBuys]; exact hstop .buy
  have hs : e.stopSells.filterMapVals (RefEngine.dropId id) = e.stopSells := by rw [h.stopSells]; exact hstop .sell
  unfold RefEngine.cancelOrder
  rw [hres, hb, hs]

end Sim

/-! ## Whole runs -/

/-- One call on the reference engine. -/
def RefEngine.exec (e : RefEngine P) : BookOp P → Option (RefEngine P)
  | .addOrder o => e.addOrder o.ref
  | .cancelOrder id => some (e.cancelOrder id)

def refRun (ops : List (BookOp P)) : Option (RefEngine P) := ops.foldlM RefEngine.exec .empty

theorem Sim.empty (symbol : String) (tickSize : P) :
    Sim [] [] (start (OrderBook.empty symbol tickSize)) RefEngine.empty :=
  ⟨rfl, fun d k => (by cases d <;> rfl), .nil, fun _ h => (by cases h), rfl, rfl, rfl⟩

/-- Price-time priority. On every finite sequence of calls the book and the reference engine make
the same trades, in the same order, and end with the same orders: at every side and price the
book's queue holds the reference engine's resting orders in the order of their stamps, with the
same remainders, and the stop maps hold the same stop orders. No acceptable resting order precedes
the one the reference engine trades with next. -/
theorem run_refines (symbol : String) (tickSize : P) (ops : List (BookOp P)) (hfresh : ∀ op ∈ ops, op.Fresh) :
    ∃ r e, run symbol tickSize ops = some r ∧ refRun ops = some e ∧
      e.trades = r.trades.map Trade.ref ∧
      e.resting.Pairwise (fun x y => x.stamp < y.stamp) ∧
      (∀ d k, (r.book.queue d k).map (fun p => (r.book.heap p).ref) =
        (e.resting.filter fun x => x.order.side = d ∧ x.order.price = k).map (·.order)) ∧
      e.stopBuys = r.book.stopBuyOrders.mapVals (List.map fun p => (r.book.heap p).ref) ∧
      e.stopSells = r.book.stopSellOrders.mapVals (List.map fun p => (r.book.heap p).ref) ∧
      ∀ (e : RefEngine P) (taker : RefOrder P) (x : Resting P), e.choose taker = some x →
        ∀ c ∈ e.resting, taker.candidate c = true → c.precedes taker.side x = false := by
  obtain ⟨r, hr, -, flat, e, hre, hS⟩ := run_induction symbol tickSize (K := fun pre r => ∃ flat e, refRun pre = some e ∧
      Sim (r.trades.map Trade.ref) flat (start r.book) e) hfresh ⟨[], _, rfl, .empty symbol tickSize⟩
    (by
      rintro pre o r out - hI ⟨flat, e, hre, hS⟩ hf hI' he
      obtain ⟨flat', e', h1, h2⟩ := (hS.allocate hI o).addOrder hI' he
      refine ⟨flat', e', ?_, ?_⟩
      · refine Machine.foldlM_append_some.2 ⟨e, hre, ?_⟩
        have hself : (r.book.alloc o).2.heap (r.book.alloc o).1 = o := Function.update_self ..
        rw [hself] at h1
        rw [List.foldlM_cons]
        show (e.addOrder o.ref).bind _ = _
        rw [h1]; rfl
      · simp only [List.map_append]
        exact h2.restart)
    (by
      rintro pre id p r b' hI ⟨flat, e, hre, hS⟩ he
      exact ⟨_, _, Machine.foldlM_append_some.2 ⟨e, hre, rfl⟩, hS.cancel hI he⟩)
    (by
      rintro pre id r hI ⟨flat, e, hre, hS⟩ hid
      refine ⟨flat, e, Machine.foldlM_append_some.2 ⟨e, hre, ?_⟩, hS⟩
      show some (e.cancelOrder id) = some e
      rw [hS.cancel_none hI hid])
  refine ⟨r, e, hr, hre, ?_, ?_, fun d k => ?_, hS.stopBuys, hS.stopSells,
    fun _ _ _ h => (RefEngine.choose_spec h).2.2⟩
  · rw [hS.trades]; exact List.append_nil _
  · rw [hS.resting, List.pairwise_map]; exact hS.stamps
  · have hq : r.book.queue d k = _ := hS.queue d k
    rw [hq, hS.resting, List.filter_map, List.map_map, List.map_map]
    rfl

theorem run_refines_cascadeOps : ∃ r e, run "S" 1 cascadeOps = some r ∧ refRun cascadeOps = some e ∧
    e.trades = r.trades.map Trade.ref := by
  obtain ⟨r, e, hr, he, ht, -⟩ := run_refines "S" 1 cascadeOps cascadeOps_fresh
  exact ⟨r, e, hr, he, ht⟩

/-! ## The reference engine of a book -/

/-- A state of the reference engine read off a book: the resting orders, stamped level by level. -/
def OrderBook.toRef (b : OrderBook P) : RefEngine P :=
  { resting := (contents b.bids ++ contents b.asks).zipIdx.map fun x => ⟨(b.heap x.1).ref, x.2⟩
    stopBuys := refStops b.heap b.stopBuyOrders
    stopSells := refStops b.heap b.stopSellOrders
    nextStamp := (contents b.bids ++ contents b.asks).length
    trades := [] }

/-- The orders of a level map at one price are its queue there. -/
theorem contents_filter {b : OrderBook P} {F : List OrderPtr} (hI : BookInv F b) (d e : OrderSide) (k : P) :
    (contents (b.levels e)).filter (fun p => decide ((b.heap p).side = d ∧ (b.heap p).price = k)) =
      if e = d then b.queue d k else [] := by
  have hrest : ∀ x ∈ (b.levels e).entries, ∀ p ∈ x.2, (b.heap p).side = e ∧ (b.heap p).price = x.1 := fun x hx p hp => by
    have hf := SortedMap.find?_eq_some_iff.2 hx
    have := hI.rest (show p ∈ b.queue e x.1 by rw [queue_eq_of_find? hf]; exact hp)
    exact ⟨this.1, this.2.1⟩
  by_cases hed : e = d
  · subst hed
    rw [if_pos rfl]
    unfold contents OrderBook.queue SortedMap.find?
    have hs := (b.levels e).sorted
    generalize (b.levels e).entries = l at hrest hs
    induction l with
    | nil => rfl
    | cons x l ih =>
      obtain ⟨hx, hl⟩ := List.pairwise_cons.1 hs
      have hr := fun y hy => hrest y (List.mem_cons_of_mem _ hy)
      rw [List.flatMap_cons, List.filter_append, ih hr hl]
      have hxr := hrest x (List.mem_cons_self ..)
      by_cases hk : x.1 = k
      · -- the level itself; the later levels have other keys
        have hnone : l.find? (fun y => decide (y.1 = k)) = none := List.find?_eq_none.2 fun y hy => by
          simp only [decide_eq_true_eq]
          exact fun hyk => absurd (hx y hy) (by rw [hk, hyk]; exact lt_irrefl _)
        rw [hnone, List.find?_cons_of_pos (by simpa using hk), List.filter_eq_self.2]
        · simp
        · intro p hp
          exact decide_eq_true ⟨(hxr p hp).1, (hxr p hp).2.trans hk⟩
      · rw [List.find?_cons_of_neg (by simpa using hk), List.filter_eq_nil_iff.2, List.nil_append]
        intro p hp hd
        exact hk ((hxr p hp).2.symm.trans (of_decide_eq_true hd).2)
  · rw [if_neg hed, List.filter_eq_nil_iff]
    intro p hp hd
    obtain ⟨x, hx, hpx⟩ := List.mem_flatMap.1 hp
    exact hed ((hrest x hx p hpx).1.symm.trans (of_decide_eq_true hd).1)

theorem OrderBook.toRef_sim {b : OrderBook P} (hI : BookInv [] b) :
    Sim [] (contents b.bids ++ contents b.asks).zipIdx (start b) b.toRef := by
  refine ⟨rfl, fun d k => ?_, ?_, fun x hx => ?_, rfl, rfl, rfl⟩
  · have hz : ∀ (l : List OrderPtr) (i : Nat) (f : OrderPtr → Bool),
        ((l.zipIdx i).filter fun x => f x.1).map (·.1) = l.filter f := by
      intro l
      induction l with
      | nil => intro i f; rfl
      | cons a l ih =>
        intro i f
        rw [List.zipIdx_cons]
        by_cases hf : f a = true
        · rw [List.filter_cons_of_pos (by simpa using hf), List.map_cons, ih, List.filter_cons_of_pos hf]
        · rw [List.filter_cons_of_neg (by simpa using hf), ih, List.filter_cons_of_neg hf]
    refine Eq.trans ?_ (hz _ 0 fun p => decide ((b.heap p).side = d ∧ (b.heap p).price = k)).symm
    show b.queue d k = _
    rw [List.filter_append]
    have h1 := contents_filter hI d .buy k
    have h2 := contents_filter hI d .sell k
    simp only [OrderBook.levels] at h1 h2
    rw [h1, h2]
    cases d <;> simp
  · have hz : ∀ (l : List OrderPtr) (i : Nat), (l.zipIdx i).Pairwise fun x y => x.2 < y.2 := by
      intro l
      induction l with
      | nil => intro i; exact .nil
      | cons a l ih =>
        intro i
        rw [List.zipIdx_cons]
        refine .cons (fun y hy => ?_) (ih (i + 1))
        have := List.le_snd_of_mem_zipIdx hy
        omega
    exact hz _ 0
  · have := List.snd_lt_of_mem_zipIdx hx
    simpa [toRef] using this

/-- The trades of one call are those the reference engine makes from the book before the call. -/
theorem AddEffect.refTrades {order : OrderPtr} {b : OrderBook P} {out : AddOutcome P} (he : AddEffect order b out)
    (hI : Inv [] b) :
    ∃ e, b.toRef.addOrder (b.heap order).ref = some e ∧ e.trades = out.state.pendingTrades.map Trade.ref := by
  obtain ⟨flat, e, h1, h2⟩ := (toRef_sim hI.toBookInv).addOrder hI he
  exact ⟨e, h1, by rw [h2.trades]; rfl⟩

end OrderbookGC
