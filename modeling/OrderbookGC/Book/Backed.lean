/-
The executions behind the trades of a call, for objects of any status. `addOrder` looks at the
remaining quantity and the id of an object, `fill` at its status, and `executeTrade` at no result:
a trade is backed when both of its fills were accepted. The executions of a call are those of the
source's loops, one for each emitted trade. A finished order that is passed again and finds
something to match trades without being filled.
-/
import OrderbookGC.Book.Call

namespace OrderbookGC

open Container OrderBook MatchState

variable {P : Type} [LinearOrder P]

/-! ## Executions -/

/-- One call of `executeTrade` by `matchOrder`: the taker of `side`, the resting order, and the state before it. -/
structure Execution (P : Type) [LinearOrder P] where
  side : OrderSide
  order : OrderPtr
  matching : OrderPtr
  quantity : UInt32
  before : MatchState P

namespace Execution

variable (e : Execution P)

def buyOrder : OrderPtr := if e.side = .buy then e.order else e.matching

def sellOrder : OrderPtr := if e.side = .buy then e.matching else e.order

def after : MatchState P := tradeWith e.side e.order e.matching e.quantity e.before

/-- The trade it records. -/
def trade : Trade P :=
  { buyOrderId := (e.before.heap e.buyOrder).id, sellOrderId := (e.before.heap e.sellOrder).id
    symbol := e.before.symbol, price := (e.before.heap e.matching).price, quantity := e.quantity }

/-- Both fills return true, and each lowers the remaining quantity of its order by the traded one. -/
structure Backed : Prop where
  buyFilled : ((e.before.heap e.buyOrder).fill e.quantity).1 = true
  sellFilled : (((e.before.modify e.buyOrder (·.fill e.quantity)).heap e.sellOrder).fill e.quantity).1 = true
  buyer : (e.after.heap e.buyOrder).remainingQuantity.toNat + e.quantity.toNat =
    (e.before.heap e.buyOrder).remainingQuantity.toNat
  seller : (e.after.heap e.sellOrder).remainingQuantity.toNat + e.quantity.toNat =
    (e.before.heap e.sellOrder).remainingQuantity.toNat

end Execution

namespace MatchState

/-- The executions of `matchLevel`. -/
def matchLevelExecutions (side : OrderSide) (order : OrderPtr) : List OrderPtr → MatchState P → List (Execution P)
  | [], _ => []
  | matching :: rest, s =>
    if 0 < (s.heap order).remainingQuantity then
      let quantity := min (s.heap order).remainingQuantity (s.heap matching).remainingQuantity
      let s' := if 0 < quantity then tradeWith side order matching quantity s else s
      (if 0 < quantity then [⟨side, order, matching, quantity, s⟩] else []) ++
        if (s'.heap matching).remainingQuantity = 0 then
          matchLevelExecutions side order rest (s'.eraseId (s'.heap matching).id)
        else []
    else []

/-- The executions of `matchLoop`. -/
def matchLoopExecutions (side : OrderSide) (isMarket : Bool) (order : OrderPtr) : Nat → MatchState P → List (Execution P)
  | 0, _ => []
  | fuel + 1, s =>
    if 0 < (s.heap order).remainingQuantity then
      match s.bestLevel side.opposite with
      | none => []
      | some (key, queue) =>
        if !isMarket && !accepts side (s.heap order).price key then []
        else
          matchLevelExecutions side order queue s ++
            matchLoopExecutions side isMarket order fuel
              ((matchLevel side order queue s).2.setQueue side.opposite key (matchLevel side order queue s).1)
    else []

def matchOrderExecutions (order : OrderPtr) (s : MatchState P) : List (Execution P) :=
  let o := s.heap order
  matchLoopExecutions o.side (o.orderType = .market) order ((s.levels o.side.opposite).entries.length + 1) (s.logMatch order)

/-- The executions of the activation loop. -/
def activateExecutions : List OrderPtr → MatchState P → List (Execution P)
  | [], _ => []
  | order :: rest, s => matchOrderExecutions order s ++ ((activate s order).map (activateExecutions rest)).getD []

def processStopOrdersExecutions : Nat → List P → MatchState P → List (Execution P)
  | 0, _, _ => []
  | fuel + 1, prices, s =>
    let (triggered, s) := triggerStops prices s
    activateExecutions triggered s ++
      match triggered.foldlM activate s with
      | none => []
      | some s' =>
        if s.pendingTrades.length < s'.pendingTrades.length then
          processStopOrdersExecutions fuel (priceSet (s'.pendingTrades.drop s.pendingTrades.length)) s'
        else []

end MatchState

namespace OrderBook

def insertOrderExecutions (order : OrderPtr) (b : OrderBook P) : List (Execution P) :=
  if (b.heap order).isStopOrder then []
  else
    matchOrderExecutions order (entered order b) ++
      match (entered order b).activate order with
      | none => []
      | some s =>
        if s.pendingTrades.isEmpty then []
        else processStopOrdersExecutions (s.stopCount + 1) (priceSet s.pendingTrades) s

/-- The executions of `addOrder`. -/
def addOrderExecutions (order : Option OrderPtr) (b : OrderBook P) : List (Execution P) :=
  match order with
  | none => []
  | some order =>
    if (b.heap order).remainingQuantity = 0 then []
    else if (b.ordersById.find? (b.heap order).id).isSome then []
    else insertOrderExecutions order b

end OrderBook

/-! ## Every trade has its execution -/

namespace MatchState

theorem tradeWith_pendingTrades (side : OrderSide) (order matching : OrderPtr) (quantity : UInt32) (s : MatchState P) :
    (tradeWith side order matching quantity s).pendingTrades =
      s.pendingTrades ++ [(⟨side, order, matching, quantity, s⟩ : Execution P).trade] := by
  have hid : ∀ (p q : OrderPtr) (h : OrderPtr → Order P), (Function.update h p ((h p).fill quantity).2 q).id = (h q).id :=
    fun p q h => by
      by_cases hq : q = p
      · rw [hq, Function.update_self]; exact (Order.fill_static ..).id
      · rw [Function.update_of_ne hq]
  unfold tradeWith executeTrade Execution.trade Execution.buyOrder Execution.sellOrder
  cases side <;> simp only [modify_heap, hid, if_true, reduceCtorEq, if_false] <;> rfl

theorem matchLevel_trades (side : OrderSide) (order : OrderPtr) : ∀ (queue : List OrderPtr) (s : MatchState P),
    (matchLevel side order queue s).2.pendingTrades =
      s.pendingTrades ++ (matchLevelExecutions side order queue s).map (·.trade)
  | [], s => (List.append_nil _).symm
  | matching :: rest, s => by
    unfold matchLevel matchLevelExecutions
    by_cases hpos : 0 < (s.heap order).remainingQuantity
    · rw [if_pos hpos, if_pos hpos]
      dsimp only
      generalize min (s.heap order).remainingQuantity (s.heap matching).remainingQuantity = quantity
      by_cases hq : 0 < quantity
      · rw [if_pos hq, if_pos hq, List.map_append]
        split_ifs
        · rw [matchLevel_trades side order rest]
          show (tradeWith side order matching quantity s).pendingTrades ++ _ = _
          rw [tradeWith_pendingTrades, List.append_assoc]
          rfl
        · exact tradeWith_pendingTrades ..
      · rw [if_neg hq, if_neg hq, List.nil_append]
        split_ifs
        · exact matchLevel_trades side order rest _
        · exact (List.append_nil _).symm
    · rw [if_neg hpos, if_neg hpos]
      exact (List.append_nil _).symm

theorem matchLoop_trades (side : OrderSide) (isMarket : Bool) (order : OrderPtr) : ∀ (fuel : Nat) {s s' : MatchState P},
    matchLoop side isMarket order fuel s = some s' →
      s'.pendingTrades = s.pendingTrades ++ (matchLoopExecutions side isMarket order fuel s).map (·.trade)
  | 0, _, _, h => by cases h
  | fuel + 1, s, s', h => by
    unfold matchLoop at h
    unfold matchLoopExecutions
    by_cases hpos : 0 < (s.heap order).remainingQuantity
    · rw [if_pos hpos] at h ⊢
      cases hb : s.bestLevel side.opposite with
      | none =>
        rw [hb] at h
        cases h
        exact (List.append_nil _).symm
      | some e =>
        rw [hb] at h
        dsimp only at h ⊢
        split_ifs at h ⊢
        · cases h
          exact (List.append_nil _).symm
        · rw [matchLoop_trades side isMarket order fuel h, setQueue_pendingTrades, matchLevel_trades, List.map_append,
            List.append_assoc]
    · rw [if_neg hpos] at h ⊢
      cases h
      exact (List.append_nil _).symm

theorem placeRemainder_pendingTrades (order : OrderPtr) (s : MatchState P) :
    (s.placeRemainder order).pendingTrades = s.pendingTrades := by
  unfold placeRemainder addOrderToBook
  dsimp only
  split_ifs
  · rfl
  · exact setLevels_pendingTrades ..
  · rfl

theorem activate_trades {order : OrderPtr} {s s' : MatchState P} (h : activate s order = some s') :
    s'.pendingTrades = s.pendingTrades ++ (matchOrderExecutions order s).map (·.trade) := by
  obtain ⟨t, ht, rfl⟩ := Option.map_eq_some_iff.1 h
  rw [placeRemainder_pendingTrades]
  exact matchLoop_trades _ _ order _ ht

theorem foldlM_activate_trades : ∀ (F : List OrderPtr) {s s' : MatchState P}, F.foldlM activate s = some s' →
    s'.pendingTrades = s.pendingTrades ++ (activateExecutions F s).map (·.trade)
  | [], _, _, h => by cases h; exact (List.append_nil _).symm
  | order :: F, s, s', h => by
    rw [List.foldlM_cons] at h
    obtain ⟨t, ht, h⟩ := Option.bind_eq_some_iff.1 h
    unfold activateExecutions
    rw [foldlM_activate_trades F h, activate_trades ht, ht, List.map_append, List.append_assoc]
    rfl

theorem processStopOrders_trades : ∀ (fuel : Nat) (prices : List P) {s s' : MatchState P},
    processStopOrders fuel prices s = some s' →
      s'.pendingTrades = s.pendingTrades ++ (processStopOrdersExecutions fuel prices s).map (·.trade)
  | 0, _, _, _, h => by cases h
  | fuel + 1, prices, s, s', h => by
    have htr : (triggerStops prices s).2.pendingTrades = s.pendingTrades := (triggerStops_effect prices s).trades
    unfold processStopOrders at h
    unfold processStopOrdersExecutions
    dsimp only at h ⊢
    generalize triggerStops prices s = r at h htr ⊢
    by_cases hemp : r.1.isEmpty = true
    · rw [if_pos hemp] at h
      cases h
      rw [List.isEmpty_iff.1 hemp, ← htr]
      simp [activateExecutions]
    · rw [if_neg hemp] at h
      obtain ⟨t, ht, h⟩ := Option.bind_eq_some_iff.1 h
      rw [ht, List.map_append, ← List.append_assoc, ← htr, ← foldlM_activate_trades r.1 ht]
      dsimp only
      split_ifs at h ⊢
      · exact processStopOrders_trades fuel _ h
      · cases h
        exact (List.append_nil _).symm

end MatchState

/-- The trades a call of `addOrder` emits are those of its executions. -/
theorem addOrder_trades {order : Option OrderPtr} {b : OrderBook P} {out : AddOutcome P} (h : addOrder order b = some out) :
    out.state.pendingTrades = (addOrderExecutions order b).map (·.trade) := by
  cases order with
  | none => cases h; rfl
  | some order =>
    unfold addOrder at h
    unfold addOrderExecutions
    dsimp only at h ⊢
    split_ifs at h ⊢
    · cases h; rfl
    · cases h; rfl
    · obtain ⟨s, hs, rfl⟩ := Option.map_eq_some_iff.1 h
      unfold insertOrder at hs
      unfold insertOrderExecutions
      dsimp only at hs ⊢
      split_ifs at hs ⊢
      · cases hs
        exact addStopOrder_pendingTrades ..
      · obtain ⟨t, ht, hs⟩ := Option.bind_eq_some_iff.1 hs
        replace ht : (entered order b).activate order = some t := ht
        have htt : t.pendingTrades = (matchOrderExecutions order (entered order b)).map (·.trade) := by
          rw [activate_trades ht]; rfl
        rw [ht, List.map_append, ← htt]
        dsimp only
        split_ifs at hs ⊢
        · cases hs
          exact (List.append_nil _).symm
        · exact processStopOrders_trades _ _ hs

/-! ## Backed executions -/

/-- An execution between two live orders, of no more than either has left, is backed. -/
theorem Execution.backed_of_live {e : Execution P} (hne : e.order ≠ e.matching) (ho : (e.before.heap e.order).Live)
    (hm : (e.before.heap e.matching).Live) (hqo : e.quantity ≤ (e.before.heap e.order).remainingQuantity)
    (hqm : e.quantity ≤ (e.before.heap e.matching).remainingQuantity) : e.Backed := by
  obtain ⟨ho1, -, ho2⟩ := Order.fill_of_live ho hqo
  obtain ⟨hm1, -, hm2⟩ := Order.fill_of_live hm hqm
  have hheap : e.after.heap = Function.update (Function.update e.before.heap e.order ((e.before.heap e.order).fill e.quantity).2)
      e.matching ((e.before.heap e.matching).fill e.quantity).2 := by
    unfold Execution.after
    rw [tradeWith_eq hne]
  have hao : e.after.heap e.order = ((e.before.heap e.order).fill e.quantity).2 := by
    rw [hheap, Function.update_of_ne hne, Function.update_self]
  have ham : e.after.heap e.matching = ((e.before.heap e.matching).fill e.quantity).2 := by
    rw [hheap, Function.update_self]
  cases hs : e.side with
  | buy =>
    have hb : e.buyOrder = e.order := if_pos hs
    have hsell : e.sellOrder = e.matching := if_pos hs
    constructor
    · rw [hb]; exact ho1
    · rw [hb, hsell, modify_heap, Function.update_of_ne hne.symm]; exact hm1
    · rw [hb, hao]; exact ho2
    · rw [hsell, ham]; exact hm2
  | sell =>
    have hno : ¬ e.side = .buy := by rw [hs]; nofun
    have hb : e.buyOrder = e.matching := if_neg hno
    have hsell : e.sellOrder = e.order := if_neg hno
    constructor
    · rw [hb]; exact hm1
    · rw [hb, hsell, modify_heap, Function.update_of_ne hne]; exact ho1
    · rw [hb, ham]; exact hm2
    · rw [hsell, hao]; exact ho2

namespace MatchState

/-- The inner loop: each of its executions is the next trade of the sweep. -/
theorem matchLevel_backed {F : List OrderPtr} {side : OrderSide} {order : OrderPtr} {key : P} :
    ∀ (queue : List OrderPtr) (s : MatchState P), Sweeping F side order key queue s →
      ∀ e ∈ matchLevelExecutions side order queue s, e.Backed
  | [], s, _, e, he => by cases he
  | maker :: rest, s, h, e, he => by
    unfold matchLevelExecutions at he
    by_cases hpos : 0 < (s.heap order).remainingQuantity
    · rw [if_pos hpos] at he
      have hhit := h.effect hpos
      have hqpos : 0 < min (s.heap order).remainingQuantity (s.heap maker).remainingQuantity := h.quantity_pos hpos
      have hlive : (s.heap order).Live ∧ (s.heap maker).Live := by
        have h1 := hhit.takerLive
        have h2 := hhit.makerLive
        rw [setQueue_heap] at h1 h2
        exact ⟨h1, h2⟩
      dsimp only at he
      rw [if_pos hqpos, if_pos hqpos] at he
      rcases List.mem_append.1 he with he | he
      · rw [List.mem_singleton.1 he]
        have hq := hitQuantity_toNat order maker s
        refine Execution.backed_of_live hhit.ne hlive.1 hlive.2 ?_ ?_
        · show hitQuantity order maker s ≤ (s.heap order).remainingQuantity
          rw [UInt32.le_iff_toNat_le, hq]; omega
        · show hitQuantity order maker s ≤ (s.heap maker).remainingQuantity
          rw [UInt32.le_iff_toNat_le, hq]; omega
      · split_ifs at he with h0
        · exact matchLevel_backed rest _ (h.next hpos h0) e he
        · cases he
    · rw [if_neg hpos] at he
      cases he

theorem matchLoop_backed {F : List OrderPtr} {side : OrderSide} {order : OrderPtr} :
    ∀ (fuel : Nat) (s : MatchState P), (s.heap order).side = side → Inv (order :: F) s.toOrderBook →
      ∀ e ∈ matchLoopExecutions side (decide ((s.heap order).orderType = .market)) order fuel s, e.Backed
  | 0, s, _, _, e, he => by cases he
  | fuel + 1, s, hside, hI, e, he => by
    unfold matchLoopExecutions at he
    by_cases hpos : 0 < (s.heap order).remainingQuantity
    · rw [if_pos hpos] at he
      cases hb : s.bestLevel side.opposite with
      | none => rw [hb] at he; cases he
      | some l =>
        obtain ⟨key, queue⟩ := l
        rw [hb] at he
        dsimp only at he
        split_ifs at he with hno
        · cases he
        · have hacc : (s.heap order).orderType = .market ∨ accepts side (s.heap order).price key = true := by
            simpa [or_iff_not_imp_left] using hno
          obtain ⟨hself, hsw⟩ := sweeping_of_best hside hI hb hacc
          rcases List.mem_append.1 he with he | he
          · exact matchLevel_backed queue s hsw e he
          · -- the next round begins where the trades of this one end
            have hits := (matchLevel_hits queue s hsw).1
            rw [hself] at hits
            obtain ⟨hst, hty⟩ := hits_taker hits hI
            refine matchLoop_backed fuel _ (hst.side.trans hside) (hits_inv hits hI) e ?_
            rw [hty]
            exact he
    · rw [if_neg hpos] at he
      cases he

theorem matchOrder_backed {F : List OrderPtr} {order : OrderPtr} {s : MatchState P} (hI : Inv (order :: F) s.toOrderBook) :
    ∀ e ∈ matchOrderExecutions order s, e.Backed :=
  matchLoop_backed _ (s.logMatch order) rfl hI

/-- An activation keeps the invariant for the orders still in flight. -/
theorem activate_inv {F : List OrderPtr} {order : OrderPtr} {s s' : MatchState P} (hI : Inv (order :: F) s.toOrderBook)
    (h : activate s order = some s') : Inv F s'.toOrderBook := by
  obtain ⟨t, ht, rfl⟩ := Option.map_eq_some_iff.1 h
  obtain ⟨t', ht', hsw⟩ := matchOrder_sweep hI
  cases ht.symm.trans ht'
  have hIt := hsw.inv (show Inv (order :: F) (s.logMatch order).toOrderBook from hI)
  exact (placeRemainder_effect hIt).inv hIt

theorem activate_backed : ∀ (F : List OrderPtr) (s : MatchState P), Inv F s.toOrderBook →
    ∀ e ∈ activateExecutions F s, e.Backed
  | [], s, _, e, he => by cases he
  | order :: F, s, hI, e, he => by
    unfold activateExecutions at he
    rcases List.mem_append.1 he with he | he
    · exact matchOrder_backed hI e he
    · cases ha : activate s order with
      | none => rw [ha] at he; cases he
      | some t =>
        rw [ha] at he
        exact activate_backed F t (activate_inv hI ha) e he

theorem foldlM_activate_inv {F : List OrderPtr} {s s' : MatchState P} (hI : Inv F s.toOrderBook)
    (h : F.foldlM activate s = some s') : Inv [] s'.toOrderBook := by
  obtain ⟨t, ht, hIt, -⟩ := foldlM_activate F s hI
  cases h.symm.trans ht
  exact hIt

theorem processStopOrders_backed : ∀ (fuel : Nat) (prices : List P) (s : MatchState P), Inv [] s.toOrderBook →
    ∀ e ∈ processStopOrdersExecutions fuel prices s, e.Backed
  | 0, _, s, _, e, he => by cases he
  | fuel + 1, prices, s, hI, e, he => by
    have hI' := (triggerStops_effect prices s).inv hI
    unfold processStopOrdersExecutions at he
    dsimp only at he
    rcases List.mem_append.1 he with he | he
    · exact activate_backed _ _ hI' e he
    · cases ht : (triggerStops prices s).1.foldlM activate (triggerStops prices s).2 with
      | none => rw [ht] at he; cases he
      | some t =>
        rw [ht] at he
        dsimp only at he
        split_ifs at he
        · exact processStopOrders_backed fuel _ t (foldlM_activate_inv hI' ht) e he
        · cases he

end MatchState

/-- A call that is given a live order in no queue, or refuses what it is given, makes backed executions only. -/
theorem addOrder_backed {b : OrderBook P} (hI : Inv [] b) {order : OrderPtr} (hfree : ¬ b.Held order) (halloc : order < b.nextPtr)
    (hf : (b.heap order).remainingQuantity = 0 ∨ (b.ordersById.find? (b.heap order).id).isSome = true ∨ (b.heap order).Fresh) :
    ∀ e ∈ addOrderExecutions (some order) b, e.Backed := by
  intro e he
  unfold addOrderExecutions at he
  dsimp only at he
  split_ifs at he with h0 hid
  · cases he
  · cases he
  · have ha : Admissible order b :=
      ⟨⟨(hf.resolve_left h0).resolve_left hid, UInt32.pos_iff_ne_zero.2 h0⟩, hfree, halloc⟩
    have hnone : b.ordersById.find? (b.heap order).id = none := by simpa using hid
    unfold insertOrderExecutions at he
    split_ifs at he with hs
    · cases he
    · have hE := entered_inv hI ha hnone (by simpa using hs)
      rcases List.mem_append.1 he with he | he
      · exact matchOrder_backed hE e he
      · cases hact : (entered order b).activate order with
        | none => rw [hact] at he; cases he
        | some t =>
          rw [hact] at he
          dsimp only at he
          split_ifs at he
          · cases he
          · exact processStopOrders_backed _ _ t (activate_inv hE hact) e he

/-! ## Runs over objects -/

/-- A call on one book, or the creation of an object that may be given to `addOrder`, more than once. -/
inductive ObjectOp (P : Type)
  | create (o : Order P)
  | addOrder (order : Option OrderPtr)
  | cancelOrder (orderId : String)

/-- The pointer is null or that of an object. -/
def OrderBook.Valid (b : OrderBook P) : Option OrderPtr → Prop
  | none => True
  | some order => order < b.nextPtr

instance (b : OrderBook P) : ∀ order, Decidable (b.Valid order)
  | none => isTrue trivial
  | some order => inferInstanceAs (Decidable (order < b.nextPtr))

/-- One step; only pointers to objects can be passed. -/
def objectStep (b : OrderBook P) : ObjectOp P → Option (OrderBook P)
  | .create o => some (b.alloc o).2
  | .addOrder order => if b.Valid order then (OrderBook.addOrder order b).map (·.state.toOrderBook) else some b
  | .cancelOrder id => some (b.cancelOrder id).2.1

/-- The best level of the opposite side is none, or not one the order accepts. -/
def Unmatched (b : OrderBook P) (o : Order P) : Bool :=
  match b.bestLevel o.side.opposite with
  | none => true
  | some (key, _) => decide (o.orderType ≠ .market) && !accepts o.side o.price key

/-- `addOrder` is given null, an object it refuses, one that can still be filled, or a finished one that is no stop order
and finds nothing to match. -/
def Harmless (b : OrderBook P) : ObjectOp P → Prop
  | .addOrder (some order) => (b.heap order).remainingQuantity = 0 ∨ (b.ordersById.find? (b.heap order).id).isSome = true ∨
      ((b.heap order).status = .pending ∨ (b.heap order).status = .partialFill) ∨
      (b.heap order).Finished ∧ (b.heap order).isStopOrder = false ∧ Unmatched b (b.heap order) = true
  | _ => True

instance (b : OrderBook P) : ∀ op, Decidable (Harmless b op)
  | .addOrder (some _) => inferInstanceAs (Decidable (_ ∨ _ ∨ _ ∨ _ ∧ _ ∧ _))
  | .addOrder none => isTrue trivial
  | .create _ => isTrue trivial
  | .cancelOrder _ => isTrue trivial

section Finished

variable {b : OrderBook P} {order : OrderPtr}

/-- An order that finds nothing to match leaves the outer loop at once. -/
theorem matchLoop_unmatched {s : MatchState P} (h : Unmatched s.toOrderBook (s.heap order) = true) (fuel : Nat) :
    matchLoop (s.heap order).side (decide ((s.heap order).orderType = .market)) order (fuel + 1) s = some s ∧
      matchLoopExecutions (s.heap order).side (decide ((s.heap order).orderType = .market)) order (fuel + 1) s = [] := by
  unfold matchLoop matchLoopExecutions
  unfold Unmatched at h
  by_cases hpos : 0 < (s.heap order).remainingQuantity
  · rw [if_pos hpos, if_pos hpos]
    cases hb : s.bestLevel (s.heap order).side.opposite with
    | none => exact ⟨rfl, rfl⟩
    | some l =>
      rw [hb] at h
      dsimp only at h ⊢
      have hno : (!decide ((s.heap order).orderType = .market) && !accepts (s.heap order).side (s.heap order).price l.1) = true := by
        simpa using h
      rw [if_pos hno, if_pos hno]
      exact ⟨rfl, rfl⟩
  · rw [if_neg hpos, if_neg hpos]
    exact ⟨rfl, rfl⟩

/-- A finished order that finds nothing to match is taken out of the index again. -/
theorem addOrder_unmatched (h0 : (b.heap order).remainingQuantity ≠ 0) (hid : b.ordersById.find? (b.heap order).id = none)
    (hf : (b.heap order).Finished) (hs : (b.heap order).isStopOrder = false) (hu : Unmatched b (b.heap order) = true) :
    (∃ out, addOrder (some order) b = some out ∧ out.state.toOrderBook = b) ∧ addOrderExecutions (some order) b = [] := by
  have hE : Unmatched ((entered order b).logMatch order).toOrderBook (((entered order b).logMatch order).heap order) = true := hu
  obtain ⟨hloop, hexec⟩ := matchLoop_unmatched hE ((((entered order b)).levels (b.heap order).side.opposite).entries.length)
  have hmatch : matchOrder order (entered order b) = some ((entered order b).logMatch order) := hloop
  have hnone : matchOrderExecutions order (entered order b) = [] := hexec
  have hplace : ((entered order b).logMatch order).placeRemainder order =
      ((entered order b).logMatch order).eraseId (b.heap order).id := by
    unfold placeRemainder
    dsimp only
    rw [if_neg]
    · rfl
    · show ¬ (decide (0 < (b.heap order).remainingQuantity) && decide ((b.heap order).status ≠ .filled) &&
        decide ((b.heap order).status ≠ .canceled)) = true
      rcases hf with hf | hf <;> simp [hf]
  have hact : (entered order b).activate order = some (((entered order b).logMatch order).eraseId (b.heap order).id) := by
    unfold activate
    rw [hmatch, Option.map_some, hplace]
  have hnoid : ¬ (b.ordersById.find? (b.heap order).id).isSome = true := by rw [hid]; nofun
  constructor
  · refine ⟨⟨true, ((entered order b).logMatch order).eraseId (b.heap order).id,
      fireCallbacks order (((entered order b).logMatch order).eraseId (b.heap order).id)⟩, ?_, ?_⟩
    · unfold addOrder
      dsimp only
      rw [if_neg h0, if_neg hnoid]
      unfold insertOrder
      dsimp only
      rw [if_neg (by rw [hs]; nofun)]
      show Option.map _ (((entered order b).activate order).bind _) = _
      rw [hact]
      rfl
    · have hindex : (b.ordersById.insert (b.heap order).id order).erase (b.heap order).id = b.ordersById :=
        SortedMap.ext_find? fun i => by
          rw [SortedMap.find?_erase, SortedMap.find?_insert]
          split_ifs with hi
          · rw [hi, hid]
          · rfl
      show { b with ordersById := (b.ordersById.insert (b.heap order).id order).erase (b.heap order).id } = b
      rw [hindex]
  · unfold addOrderExecutions
    dsimp only
    rw [if_neg h0, if_neg hnoid]
    unfold insertOrderExecutions
    rw [if_neg (by rw [hs]; nofun), hnone, hact]
    rfl

theorem fill_of_finished {Q : Type} {o : Order Q} (hf : o.Finished) (quantity : UInt32) : (o.fill quantity).1 = false := by
  unfold Order.fill
  rw [if_pos (by rcases hf with hf | hf <;> simp [hf])]

/-- A finished order that finds something to match makes an execution that its order does not fill. -/
theorem addOrder_unbacked (hI : Inv [] b) (hfree : ¬ b.Held order) (h0 : (b.heap order).remainingQuantity ≠ 0)
    (hid : b.ordersById.find? (b.heap order).id = none) (hf : (b.heap order).Finished)
    (hs : (b.heap order).isStopOrder = false) (hu : ¬ Unmatched b (b.heap order) = true) :
    ∃ e ∈ addOrderExecutions (some order) b, ¬ e.Backed := by
  have hpos : 0 < (b.heap order).remainingQuantity := UInt32.pos_iff_ne_zero.2 h0
  unfold Unmatched at hu
  cases hb : b.bestLevel (b.heap order).side.opposite with
  | none => rw [hb] at hu; exact absurd rfl hu
  | some l =>
    obtain ⟨key, queue⟩ := l
    rw [hb] at hu
    obtain ⟨maker, rest, rfl, hq⟩ := hI.find?_eq_queue (bestLevel_eq_some_iff.1 hb).1
    have hm : b.Held maker := .inl ⟨_, key, by rw [hq]; exact List.mem_cons_self ..⟩
    have hne : order ≠ maker := fun he => hfree (he ▸ hm)
    have hmpos := (hI.live hm).remaining
    -- the first execution is with the front of the best level
    let e : Execution P := ⟨(b.heap order).side, order, maker,
      min (b.heap order).remainingQuantity (b.heap maker).remainingQuantity, (entered order b).logMatch order⟩
    have hqpos : 0 < min (b.heap order).remainingQuantity (b.heap maker).remainingQuantity := by
      have := hitQuantity_toNat order maker (entered order b)
      rw [UInt32.lt_iff_toNat_lt] at hpos hmpos ⊢
      show (0 : UInt32).toNat < (hitQuantity order maker (entered order b)).toNat
      rw [this]
      exact lt_min hpos hmpos
    refine ⟨e, ?_, fun hback => ?_⟩
    · unfold addOrderExecutions
      dsimp only
      rw [if_neg h0, if_neg (by rw [hid]; nofun)]
      unfold insertOrderExecutions
      rw [if_neg (by rw [hs]; nofun)]
      refine List.mem_append_left _ ?_
      unfold matchOrderExecutions
      dsimp only
      unfold matchLoopExecutions
      rw [if_pos (show 0 < (((entered order b).logMatch order).heap order).remainingQuantity from hpos),
        show ((entered order b).logMatch order).bestLevel ((entered order b).heap order).side.opposite =
          some (key, maker :: rest) from hb]
      dsimp only
      rw [if_neg]
      · refine List.mem_append_left _ ?_
        unfold matchLevelExecutions
        rw [if_pos (show 0 < (((entered order b).logMatch order).heap order).remainingQuantity from hpos)]
        refine List.mem_append_left _ ?_
        show e ∈ (if 0 < min (b.heap order).remainingQuantity (b.heap maker).remainingQuantity then [e] else [])
        rw [if_pos hqpos]
        exact List.mem_singleton.2 rfl
      · show ¬ (!decide ((b.heap order).orderType = .market) && !accepts (b.heap order).side (b.heap order).price key) = true
        simpa using hu
    · have hrefused := fill_of_finished hf e.quantity
      cases hside : (b.heap order).side with
      | buy =>
        have hbuy : e.buyOrder = order := if_pos hside
        have := hback.buyFilled
        rw [hbuy] at this
        exact Bool.false_ne_true (hrefused.symm.trans this)
      | sell =>
        have hno : ¬ e.side = .buy := by show ¬ (b.heap order).side = .buy; rw [hside]; nofun
        have hbuy : e.buyOrder = maker := if_neg hno
        have hsell : e.sellOrder = order := if_neg hno
        have := hback.sellFilled
        rw [hbuy, hsell, modify_heap, Function.update_of_ne hne] at this
        exact Bool.false_ne_true (hrefused.symm.trans this)

end Finished

/-- A harmless call of `addOrder` returns, with the invariant, and makes backed executions only. -/
theorem addOrder_harmless {b : OrderBook P} (hI : Inv [] b) {order : OrderPtr} (hv : order < b.nextPtr)
    (hf : Harmless b (.addOrder (some order))) :
    (∃ out, addOrder (some order) b = some out ∧ Inv [] out.state.toOrderBook) ∧
      ∀ e ∈ addOrderExecutions (some order) b, e.Backed := by
  by_cases h0 : (b.heap order).remainingQuantity = 0
  · unfold addOrder addOrderExecutions
    dsimp only
    rw [if_pos h0, if_pos h0]
    exact ⟨⟨_, rfl, hI⟩, nofun⟩
  by_cases hid : (b.ordersById.find? (b.heap order).id).isSome = true
  · unfold addOrder addOrderExecutions
    dsimp only
    rw [if_neg h0, if_neg h0, if_pos hid, if_pos hid]
    exact ⟨⟨_, rfl, hI⟩, nofun⟩
  -- the id of a resting order is taken
  have hfree : ¬ b.Held order := fun hh => hid (by rw [hI.index.2 ⟨rfl, .inl hh⟩]; rfl)
  rcases (hf.resolve_left h0).resolve_left hid with hfresh | ⟨hfin, hs, hu⟩
  · obtain ⟨out, hout, he⟩ := addOrder_effect hI hfresh hfree hv
    exact ⟨⟨out, hout, he.inv hI⟩, addOrder_backed hI hfree hv (.inr (.inr hfresh))⟩
  · obtain ⟨⟨out, hout, hb⟩, hnone⟩ := addOrder_unmatched h0 (by simpa using hid) hfin hs hu
    rw [hnone]
    exact ⟨⟨out, hout, by rw [hb]; exact hI⟩, nofun⟩

theorem objectStep_inv {b : OrderBook P} (hI : Inv [] b) {op : ObjectOp P} (hf : Harmless b op) :
    ∃ b', objectStep b op = some b' ∧ Inv [] b' := by
  cases op with
  | create o => exact ⟨_, rfl, hI.toBookInv.allocate o, fun _ h => by cases h⟩
  | addOrder order =>
    unfold objectStep
    dsimp only
    by_cases hv : b.Valid order
    · rw [if_pos hv]
      cases order with
      | none => exact ⟨b, rfl, hI⟩
      | some order =>
        obtain ⟨⟨out, hout, hI'⟩, -⟩ := addOrder_harmless hI hv hf
        exact ⟨_, by rw [hout]; rfl, hI'⟩
    · rw [if_neg hv]
      exact ⟨b, rfl, hI⟩
  | cancelOrder id =>
    refine ⟨_, rfl, ?_⟩
    cases hid : b.ordersById.find? id with
    | none => rw [cancelOrder_none hid]; exact hI
    | some p =>
      obtain ⟨b', hb', he⟩ := cancelOrder_effect hI.toBookInv hid
      rw [hb']
      exact he.inv hI

/-- In every run of harmless calls, every call returns, and every trade it emits is backed by two accepted fills; and a
further call on an object that is no stop order makes backed executions only exactly when it is harmless, too. -/
theorem runObjects_backed (symbol : String) (tickSize : P) (ops : List (ObjectOp P))
    (hC : Machine.Along objectStep Harmless (OrderBook.empty symbol tickSize) ops) :
    (∀ pre order b, pre ++ [.addOrder order] <+: ops → pre.foldlM objectStep (OrderBook.empty symbol tickSize) = some b →
      b.Valid order → ∃ out, addOrder order b = some out ∧
        out.state.pendingTrades = (addOrderExecutions order b).map (·.trade) ∧ ∀ e ∈ addOrderExecutions order b, e.Backed) ∧
    ∃ b, ops.foldlM objectStep (OrderBook.empty symbol tickSize) = some b ∧
      ∀ order, b.Valid (some order) → (b.heap order).isStopOrder = false → (b.heap order).status ≠ .rejected →
        ((∀ e ∈ addOrderExecutions (some order) b, e.Backed) ↔ Harmless b (.addOrder (some order))) := by
  have hstep : ∀ (b : OrderBook P) op, Inv [] b → Harmless b op → ∃ b', objectStep b op = some b' ∧ Inv [] b' :=
    fun b op hI hf => objectStep_inv hI hf
  have hI := empty_inv symbol tickSize
  refine ⟨fun pre order b' hpre hb' hv => ?_, ?_⟩
  · obtain ⟨post, rfl⟩ := hpre
    rw [List.append_assoc] at hC
    obtain ⟨b'', h1, hI'⟩ := hC.left.run hstep hI
    cases hb'.symm.trans h1
    have hf : Harmless b' (.addOrder order) := (hC.append hb').1
    cases order with
    | none => exact ⟨_, rfl, rfl, nofun⟩
    | some order =>
      obtain ⟨⟨out, hout, -⟩, hback⟩ := addOrder_harmless hI' hv hf
      exact ⟨out, hout, addOrder_trades hout, hback⟩
  · obtain ⟨b, hb, hIb⟩ := hC.run hstep hI
    refine ⟨b, hb, fun order hv hs hrej => ⟨fun hback => ?_, fun hf => (addOrder_harmless hIb hv hf).2⟩⟩
    by_contra hno
    obtain ⟨h0, hno⟩ := not_or.1 hno
    obtain ⟨hid, hno⟩ := not_or.1 hno
    obtain ⟨hfresh, hno⟩ := not_or.1 hno
    have hfree : ¬ b.Held order := fun hh => hid (by rw [hIb.index.2 ⟨rfl, .inl hh⟩]; rfl)
    have hfin : (b.heap order).Finished := by
      unfold Order.Finished
      cases hst : (b.heap order).status <;> simp [hst] at hfresh hrej ⊢
    obtain ⟨e, he, hunbacked⟩ := addOrder_unbacked hIb hfree h0 (by simpa using hid) hfin hs fun hu => hno ⟨hfin, hs, hu⟩
    exact hunbacked (hback e he)

/-- A buyer who is cancelled, passed again while there is nobody to sell, and a seller who comes after that. -/
def cancelledBuyer : List (ObjectOp Nat) :=
  [.create (.new "c" .buy 100 5 "S" "m" .limit 0 0), .addOrder (some 0), .cancelOrder "c", .addOrder (some 0),
    .create (.new "a" .sell 100 3 "S" "n" .limit 0 1), .addOrder (some 1)]

theorem runObjects_backed_cancelledBuyer : ∃ b, cancelledBuyer.foldlM objectStep (OrderBook.empty "S" 1) = some b ∧
    b.asks.entries = [(100, [1])] ∧ b.Valid (some 1) ∧ ∀ e ∈ addOrderExecutions (some 1) b, e.Backed := by
  obtain ⟨-, b, hb, hiff⟩ := runObjects_backed "S" 1 cancelledBuyer (by decide +kernel)
  have hstate : (cancelledBuyer.foldlM objectStep (OrderBook.empty "S" 1)).map (fun b => (b.asks.entries, decide (b.Valid (some 1)),
      (b.heap 1).isStopOrder, (b.heap 1).status, decide (Harmless b (.addOrder (some 1))))) =
      some ([(100, [1])], true, false, .pending, true) := by decide +kernel
  rw [hb, Option.map_some, Option.some.injEq] at hstate
  simp only [Prod.mk.injEq, decide_eq_true_eq] at hstate
  obtain ⟨hasks, hv, hs, hst, hf⟩ := hstate
  exact ⟨b, hb, hasks, hv, (hiff 1 hv hs (by rw [hst]; nofun)).2 hf⟩

/-- When the cancelled buyer is passed once more, the book emits a trade of 3 units that its order never fills. -/
theorem cancelledBuyer_unbacked : ∃ b out, cancelledBuyer.foldlM objectStep (OrderBook.empty "S" 1) = some b ∧
    addOrder (some 0) b = some out ∧ out.accepted = true ∧
    out.state.pendingTrades = [{ buyOrderId := "c", sellOrderId := "a", symbol := "S", price := 100, quantity := 3 }] ∧
    (b.heap 0).remainingQuantity = 5 ∧ (out.state.heap 0).remainingQuantity = 5 ∧
    ¬ ∀ e ∈ addOrderExecutions (some 0) b, e.Backed := by
  have heval : (cancelledBuyer.foldlM objectStep (OrderBook.empty "S" 1)).bind (fun b => (addOrder (some 0) b).map fun out =>
      (out.accepted, out.state.pendingTrades, (b.heap 0).remainingQuantity, (out.state.heap 0).remainingQuantity,
        (addOrderExecutions (some 0) b).map fun e => ((e.before.heap e.buyOrder).fill e.quantity).1)) =
      some (true, [{ buyOrderId := "c", sellOrderId := "a", symbol := "S", price := 100, quantity := 3 }], 5, 5, [false]) := by
    decide +kernel
  obtain ⟨b, hb, heval⟩ := Option.bind_eq_some_iff.1 heval
  obtain ⟨out, hout, heval⟩ := Option.map_eq_some_iff.1 heval
  simp only [Prod.mk.injEq] at heval
  obtain ⟨hacc, htrades, hbefore, hafter, hfills⟩ := heval
  refine ⟨b, out, hb, hout, hacc, htrades, hbefore, hafter, fun h => ?_⟩
  have hfalse : false ∈ (addOrderExecutions (some 0) b).map fun e => ((e.before.heap e.buyOrder).fill e.quantity).1 := by
    rw [hfills]; exact List.mem_singleton.2 rfl
  obtain ⟨e, he, hfill⟩ := List.mem_map.1 hfalse
  rw [(h e he).buyFilled] at hfill
  cases hfill

end OrderbookGC
