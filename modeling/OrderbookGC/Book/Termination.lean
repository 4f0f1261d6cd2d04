/-
Termination of `addOrder`. The loops of the model run on fuel; here they are the source's own, as evaluation relations
that count what goes round: the orders the inner loop of `matchOrder` takes up, the passes of its outer loop, and the
calls `processStopOrders` makes of itself. A derivation is a finished run of the loop, so a call that has one returns;
it recurses no more often than there were stop orders, each invocation having taken one out of the maps.
-/
import OrderbookGC.Book.Run

namespace OrderbookGC

open Container OrderBook MatchState

variable {P : Type} [LinearOrder P]

namespace MatchState

section Loops

variable (side : OrderSide) (order : OrderPtr)

/-- The front of a level after the body of the inner loop has traded with it. -/
def tradeFront (matching : OrderPtr) (s : MatchState P) : MatchState P :=
  let quantity := min (s.heap order).remainingQuantity (s.heap matching).remainingQuantity
  if 0 < quantity then tradeWith side order matching quantity s else s

/-- The inner loop of `matchOrder` on a queue, with the number of times its body is entered. -/
inductive LevelRuns : Nat → List OrderPtr → MatchState P → List OrderPtr × MatchState P → Prop
  | empty {s : MatchState P} : LevelRuns 0 [] s ([], s)
  | exhausted {s : MatchState P} {matching : OrderPtr} {rest : List OrderPtr} :
      ¬ 0 < (s.heap order).remainingQuantity → LevelRuns 0 (matching :: rest) s (matching :: rest, s)
  | stays {s : MatchState P} {matching : OrderPtr} {rest : List OrderPtr} : 0 < (s.heap order).remainingQuantity →
      ((tradeFront side order matching s).heap matching).remainingQuantity ≠ 0 →
      LevelRuns 1 (matching :: rest) s (matching :: rest, tradeFront side order matching s)
  | filled {n : Nat} {s : MatchState P} {matching : OrderPtr} {rest : List OrderPtr} {r : List OrderPtr × MatchState P} :
      0 < (s.heap order).remainingQuantity → ((tradeFront side order matching s).heap matching).remainingQuantity = 0 →
      LevelRuns n rest ((tradeFront side order matching s).eraseId ((tradeFront side order matching s).heap matching).id) r →
      LevelRuns (n + 1) (matching :: rest) s r

/-- The outer loop of `matchOrder`, with the number of passes. -/
inductive LoopRuns (isMarket : Bool) : Nat → MatchState P → MatchState P → Prop
  | exhausted {s : MatchState P} : ¬ 0 < (s.heap order).remainingQuantity → LoopRuns isMarket 0 s s
  | drained {s : MatchState P} : 0 < (s.heap order).remainingQuantity → s.bestLevel side.opposite = none →
      LoopRuns isMarket 0 s s
  | refused {s : MatchState P} {key : P} {queue : List OrderPtr} : 0 < (s.heap order).remainingQuantity →
      s.bestLevel side.opposite = some (key, queue) → (!isMarket && !accepts side (s.heap order).price key) = true →
      LoopRuns isMarket 0 s s
  | pass {m n : Nat} {s s₁ s' : MatchState P} {key : P} {queue queue' : List OrderPtr} :
      0 < (s.heap order).remainingQuantity → s.bestLevel side.opposite = some (key, queue) →
      (!isMarket && !accepts side (s.heap order).price key) = false → LevelRuns side order m queue s (queue', s₁) →
      LoopRuns isMarket n (s₁.setQueue side.opposite key queue') s' → LoopRuns isMarket (n + 1) s s'

end Loops

/-- The body of the activation loop for each order in turn; each makes at most one pass a level. -/
inductive ActivationRuns : List OrderPtr → MatchState P → MatchState P → Prop
  | nil {s : MatchState P} : ActivationRuns [] s s
  | cons {n : Nat} {order : OrderPtr} {rest : List OrderPtr} {s s₁ s' : MatchState P} :
      n ≤ (s.levels (s.heap order).side.opposite).entries.length →
      LoopRuns (s.heap order).side order ((s.heap order).orderType = .market) n (s.logMatch order) s₁ →
      ActivationRuns rest (s₁.placeRemainder order) s' → ActivationRuns (order :: rest) s s'

/-- An invocation of `processStopOrders`, with the number of calls it makes of itself. -/
inductive StopRuns : Nat → List P → MatchState P → MatchState P → Prop
  | idle {prices : List P} {s : MatchState P} : (triggerStops prices s).1 = [] →
      StopRuns 0 prices s (triggerStops prices s).2
  | settled {prices : List P} {s s' : MatchState P} : (triggerStops prices s).1 ≠ [] →
      ActivationRuns (triggerStops prices s).1 (triggerStops prices s).2 s' →
      ¬ (triggerStops prices s).2.pendingTrades.length < s'.pendingTrades.length → StopRuns 0 prices s s'
  | again {n : Nat} {prices : List P} {s s₁ s' : MatchState P} : (triggerStops prices s).1 ≠ [] →
      ActivationRuns (triggerStops prices s).1 (triggerStops prices s).2 s₁ →
      (triggerStops prices s).2.pendingTrades.length < s₁.pendingTrades.length →
      StopRuns n (priceSet (s₁.pendingTrades.drop (triggerStops prices s).2.pendingTrades.length)) s₁ s' →
      StopRuns (n + 1) prices s s'

/-! ## The model's loops are the source's -/

theorem matchLevel_cons (side : OrderSide) (order matching : OrderPtr) (rest : List OrderPtr) (s : MatchState P) :
    matchLevel side order (matching :: rest) s =
      if 0 < (s.heap order).remainingQuantity then
        if ((tradeFront side order matching s).heap matching).remainingQuantity = 0 then
          matchLevel side order rest
            ((tradeFront side order matching s).eraseId ((tradeFront side order matching s).heap matching).id)
        else (matching :: rest, tradeFront side order matching s)
      else (matching :: rest, s) := rfl

theorem matchLevel_runs (side : OrderSide) (order : OrderPtr) :
    ∀ (queue : List OrderPtr) (s : MatchState P),
      ∃ n ≤ queue.length, LevelRuns side order n queue s (matchLevel side order queue s)
  | [], s => ⟨0, le_refl _, .empty⟩
  | matching :: rest, s => by
    rw [matchLevel_cons]
    by_cases hpos : 0 < (s.heap order).remainingQuantity
    · rw [if_pos hpos]
      by_cases h0 : ((tradeFront side order matching s).heap matching).remainingQuantity = 0
      · rw [if_pos h0]
        obtain ⟨n, hn, hr⟩ := matchLevel_runs side order rest
          ((tradeFront side order matching s).eraseId ((tradeFront side order matching s).heap matching).id)
        exact ⟨n + 1, Nat.succ_le_succ hn, .filled hpos h0 hr⟩
      · rw [if_neg h0]
        exact ⟨1, Nat.succ_le_succ (Nat.zero_le _), .stays hpos h0⟩
    · rw [if_neg hpos]
      exact ⟨0, Nat.zero_le _, .exhausted hpos⟩

theorem matchLoop_runs {side : OrderSide} {isMarket : Bool} {order : OrderPtr} {s' : MatchState P} :
    ∀ {fuel : Nat} {s : MatchState P}, matchLoop side isMarket order fuel s = some s' →
      ∃ n < fuel, LoopRuns side order isMarket n s s'
  | 0, s, h => by cases h
  | fuel + 1, s, h => by
    unfold matchLoop at h
    by_cases hpos : 0 < (s.heap order).remainingQuantity
    · rw [if_pos hpos] at h
      cases hb : s.bestLevel side.opposite with
      | none =>
        rw [hb] at h
        cases h
        exact ⟨0, Nat.succ_pos _, .drained hpos hb⟩
      | some e =>
        obtain ⟨key, queue⟩ := e
        rw [hb] at h
        simp only at h
        by_cases hacc : (!isMarket && !accepts side (s.heap order).price key) = true
        · rw [if_pos hacc] at h
          cases h
          exact ⟨0, Nat.succ_pos _, .refused hpos hb hacc⟩
        · rw [if_neg hacc] at h
          obtain ⟨m, -, hlevel⟩ := matchLevel_runs side order queue s
          obtain ⟨n, hn, hloop⟩ := matchLoop_runs h
          exact ⟨n + 1, Nat.succ_lt_succ hn, .pass hpos hb (Bool.not_eq_true _ ▸ hacc) hlevel hloop⟩
    · rw [if_neg hpos] at h
      cases h
      exact ⟨0, Nat.succ_pos _, .exhausted hpos⟩

theorem foldlM_activate_runs {s' : MatchState P} :
    ∀ {orders : List OrderPtr} {s : MatchState P}, orders.foldlM activate s = some s' → ActivationRuns orders s s'
  | [], s, h => by cases h; exact .nil
  | order :: rest, s, h => by
    rw [List.foldlM_cons] at h
    obtain ⟨t, ht, h⟩ := Option.bind_eq_some_iff.1 h
    obtain ⟨s₁, hs₁, rfl⟩ := Option.map_eq_some_iff.1 ht
    obtain ⟨n, hn, hloop⟩ := matchLoop_runs hs₁
    exact .cons (Nat.le_of_lt_succ hn) hloop (foldlM_activate_runs h)

theorem processStopOrders_runs {s' : MatchState P} :
    ∀ {fuel : Nat} {prices : List P} {s : MatchState P}, processStopOrders fuel prices s = some s' →
      ∃ n < fuel, StopRuns n prices s s'
  | 0, prices, s, h => by cases h
  | fuel + 1, prices, s, h => by
    unfold processStopOrders at h
    simp only at h
    by_cases hemp : (triggerStops prices s).1.isEmpty = true
    · rw [if_pos hemp] at h
      cases h
      exact ⟨0, Nat.succ_pos _, .idle (List.isEmpty_iff.1 hemp)⟩
    · rw [if_neg hemp] at h
      have hne : (triggerStops prices s).1 ≠ [] := fun he => hemp (List.isEmpty_iff.2 he)
      obtain ⟨s₁, hs₁, h⟩ := Option.bind_eq_some_iff.1 h
      have hact := foldlM_activate_runs hs₁
      by_cases hlt : (triggerStops prices s).2.pendingTrades.length < s₁.pendingTrades.length
      · rw [if_pos hlt] at h
        obtain ⟨n, hn, hr⟩ := processStopOrders_runs h
        exact ⟨n + 1, Nat.succ_lt_succ hn, .again hne hact hlt hr⟩
      · rw [if_neg hlt] at h
        cases h
        exact ⟨0, Nat.succ_pos _, .settled hne hact hlt⟩

end MatchState

namespace OrderBook

/-- A call of `addOrder`, with the number of calls `processStopOrders` makes of itself. -/
inductive AddRuns (order : OrderPtr) (b : OrderBook P) : Nat → AddOutcome P → Prop
  | refused (h : (b.heap order).remainingQuantity = 0 ∨ ∃ p, b.ordersById.find? (b.heap order).id = some p) :
      AddRuns order b 0 ⟨false, start b, []⟩
  | stopped (hs : (b.heap order).isStopOrder = true) :
      AddRuns order b 0 ⟨true, (entered order b).addStopOrder order,
        fireCallbacks order ((entered order b).addStopOrder order)⟩
  | quiet {s : MatchState P} (hs : (b.heap order).isStopOrder = false) (ha : ActivationRuns [order] (entered order b) s)
      (ht : s.pendingTrades = []) : AddRuns order b 0 ⟨true, s, fireCallbacks order s⟩
  | traded {n : Nat} {s s' : MatchState P} (hs : (b.heap order).isStopOrder = false)
      (ha : ActivationRuns [order] (entered order b) s) (ht : s.pendingTrades ≠ [])
      (hr : StopRuns n (priceSet s.pendingTrades) s s') : AddRuns order b n ⟨true, s', fireCallbacks order s'⟩

/-- Matching the incoming order moves no stop order, so the book's own are the bound. -/
theorem insertOrder_runs {order : OrderPtr} {b : OrderBook P} (hI : Inv [] b) (ha : Admissible order b)
    (hid : b.ordersById.find? (b.heap order).id = none) (hs : (b.heap order).isStopOrder = false) {s' : MatchState P}
    (h : insertOrder order b = some s') :
    ∃ n ≤ (start b).stopCount, AddRuns order b n ⟨true, s', fireCallbacks order s'⟩ := by
  unfold insertOrder at h
  simp only [hs, Bool.false_eq_true, if_false] at h
  obtain ⟨s, hact, h⟩ := Option.bind_eq_some_iff.1 h
  have hfold : [order].foldlM activate (entered order b) = some s := by
    rw [List.foldlM_cons]
    exact Option.bind_eq_some_iff.2 ⟨s, hact, rfl⟩
  obtain ⟨t, ht, -, hcount, -⟩ := foldlM_activate [order] (entered order b) (entered_inv hI ha hid hs)
  obtain rfl : s = t := Option.some.inj (hfold.symm.trans ht)
  have hruns := foldlM_activate_runs hfold
  by_cases hemp : s.pendingTrades.isEmpty = true
  · rw [if_pos hemp] at h
    cases h
    exact ⟨0, Nat.zero_le _, .quiet hs hruns (List.isEmpty_iff.1 hemp)⟩
  · rw [if_neg hemp] at h
    obtain ⟨n, hn, hr⟩ := processStopOrders_runs h
    exact ⟨n, hcount ▸ Nat.le_of_lt_succ hn, .traded hs hruns (fun he => hemp (List.isEmpty_iff.2 he)) hr⟩

theorem addOrder_runs {order : OrderPtr} {b : OrderBook P} (hI : Inv [] b) (hf : (b.heap order).Fresh)
    (hfree : ¬ b.Held order) (halloc : order < b.nextPtr) :
    ∃ out, addOrder (some order) b = some out ∧ ∃ n ≤ (start b).stopCount, AddRuns order b n out := by
  obtain ⟨out, hout, he⟩ := addOrder_effect hI hf hfree halloc
  refine ⟨out, hout, ?_⟩
  cases he with
  | refused h => exact ⟨0, Nat.zero_le _, .refused h⟩
  | stopped _ _ hs => exact ⟨0, Nat.zero_le _, .stopped hs⟩
  | @matched s' ha hid hs hc =>
    refine insertOrder_runs hI ha hid hs ?_
    unfold addOrder at hout
    simp only [if_neg (UInt32.pos_iff_ne_zero.1 ha.live.remaining), hid, Option.isSome_none, Bool.false_eq_true,
      if_false] at hout
    obtain ⟨s, hs', heq⟩ := Option.map_eq_some_iff.1 hout
    cases heq
    exact hs'

end OrderBook

/-- On every reachable book `addOrder` of a fresh or restored order returns: all its loops end, and `processStopOrders`
calls itself at most once for each stop order the book held. -/
theorem run_addOrder_terminates (symbol : String) (tickSize : P) (ops : List (BookOp P)) (hfresh : ∀ op ∈ ops, op.Fresh) :
    ∃ r, run symbol tickSize ops = some r ∧ ∀ o, o.Fresh →
      ∃ out, addOrder (some (r.book.alloc o).1) (r.book.alloc o).2 = some out ∧
        ∃ n ≤ (start r.book).stopCount, AddRuns (r.book.alloc o).1 (r.book.alloc o).2 n out := by
  obtain ⟨r, hr, hI⟩ := run_inv symbol tickSize hfresh
  refine ⟨r, hr, fun o hf => ?_⟩
  have hself : (r.book.alloc o).2.heap (r.book.alloc o).1 = o := Function.update_self ..
  have hI' : Inv [] (r.book.alloc o).2 := ⟨hI.toBookInv.allocate o, fun _ h => by cases h⟩
  have hfree : ¬ (r.book.alloc o).2.Held (r.book.alloc o).1 := fun hh =>
    absurd (hI.alloc (.inl (show r.book.Held r.book.nextPtr from hh))) (lt_irrefl _)
  exact addOrder_runs hI' (by rw [hself]; exact hf) hfree (Nat.lt_succ_self _)

theorem run_addOrder_terminates_cascadeOps : ∃ r, run "S" 1 cascadeOps = some r ∧ ∀ o, o.Fresh →
    ∃ out, addOrder (some (r.book.alloc o).1) (r.book.alloc o).2 = some out ∧
      ∃ n ≤ (start r.book).stopCount, AddRuns (r.book.alloc o).1 (r.book.alloc o).2 n out :=
  run_addOrder_terminates "S" 1 cascadeOps cascadeOps_fresh

end OrderbookGC
