/-
Whole runs of one book: any finite sequence of `addOrder` and `cancelOrder` calls from the empty
book. `AddEffect` says what one call of `addOrder` can do; every call of a run returns, and the
representation invariant holds after each; `run_induction` is the rule the properties of runs are
proved with.
-/
import OrderbookGC.Book.Cascade
import OrderbookGC.Book.Cancel
import OrderbookGC.Machine.Run

namespace OrderbookGC

open Container OrderBook MatchState

variable {P : Type} [LinearOrder P]

/-- A freshly constructed or restored order: status `PENDING` or `PARTIAL`. -/
def Order.Fresh {P : Type} (o : Order P) : Prop := o.status = .pending ∨ o.status = .partialFill

/-! ## One call of `addOrder` -/

/-- What a call of `addOrder` can do. -/
inductive AddEffect (order : OrderPtr) (b : OrderBook P) : AddOutcome P → Prop
  | refused (h : (b.heap order).remainingQuantity = 0 ∨ ∃ p, b.ordersById.find? (b.heap order).id = some p) :
      AddEffect order b ⟨false, start b, []⟩
  | stopped (ha : Admissible order b) (hid : b.ordersById.find? (b.heap order).id = none)
      (hs : (b.heap order).isStopOrder = true) :
      AddEffect order b ⟨true, (entered order b).addStopOrder order,
        fireCallbacks order ((entered order b).addStopOrder order)⟩
  | matched {s' : MatchState P} (ha : Admissible order b) (hid : b.ordersById.find? (b.heap order).id = none)
      (hs : (b.heap order).isStopOrder = false) (hc : Cascade 0 [order] (entered order b) s') :
      AddEffect order b ⟨true, s', fireCallbacks order s'⟩

/-- `addOrder` returns on every order that is fresh and in no queue. -/
theorem addOrder_effect {order : OrderPtr} {b : OrderBook P} (hI : Inv [] b) (hf : (b.heap order).Fresh)
    (hfree : ¬ b.Held order) (halloc : order < b.nextPtr) :
    ∃ out, addOrder (some order) b = some out ∧ AddEffect order b out := by
  unfold addOrder
  simp only
  by_cases h0 : (b.heap order).remainingQuantity = 0
  · rw [if_pos h0]; exact ⟨_, rfl, .refused (.inl h0)⟩
  · rw [if_neg h0]
    cases hid : b.ordersById.find? (b.heap order).id with
    | some p => exact ⟨_, rfl, .refused (.inr ⟨p, hid⟩)⟩
    | none =>
      have ha : Admissible order b := ⟨⟨hf, UInt32.pos_iff_ne_zero.2 h0⟩, hfree, halloc⟩
      simp only [Option.isSome_none, Bool.false_eq_true, if_false]
      cases hs : (b.heap order).isStopOrder with
      | true =>
        refine ⟨_, ?_, .stopped ha hid hs⟩
        unfold insertOrder
        simp only [hs, if_true]; rfl
      | false =>
        obtain ⟨s', hs', hc⟩ := insertOrder_cascade hI ha hid hs
        exact ⟨_, by rw [hs']; rfl, .matched ha hid hs hc⟩

/-- Every `Cascade` keeps the invariant. -/
theorem MatchState.Cascade.inv {n : Nat} {F : List OrderPtr} {s s' : MatchState P} (h : Cascade n F s s')
    (hI : Inv F s.toOrderBook) : Inv [] s'.toOrderBook :=
  (h.invariant (J := fun _ _ _ => True) (fun _ _ _ _ _ _ => trivial) (fun _ _ _ _ _ _ _ _ _ _ _ _ => trivial)
    (fun _ _ _ _ _ _ _ _ _ => trivial) (fun _ _ _ _ _ _ _ _ => trivial) hI trivial).1

section AddStop

variable (order : OrderPtr) (s : MatchState P)

@[simp] theorem MatchState.addStopOrder_heap : (s.addStopOrder order).heap = s.heap := setStops_heap ..
@[simp] theorem MatchState.addStopOrder_levels (d : OrderSide) : (s.addStopOrder order).levels d = s.levels d :=
  setStops_levels ..
@[simp] theorem MatchState.addStopOrder_ordersById : (s.addStopOrder order).ordersById = s.ordersById :=
  setStops_ordersById ..
@[simp] theorem MatchState.addStopOrder_nextPtr : (s.addStopOrder order).nextPtr = s.nextPtr := setStops_nextPtr ..
@[simp] theorem MatchState.addStopOrder_pendingTrades : (s.addStopOrder order).pendingTrades = s.pendingTrades :=
  setStops_pendingTrades ..
@[simp] theorem MatchState.addStopOrder_pendingOrderUpdates :
    (s.addStopOrder order).pendingOrderUpdates = s.pendingOrderUpdates := setStops_pendingOrderUpdates ..
@[simp] theorem MatchState.addStopOrder_matchCalls : (s.addStopOrder order).matchCalls = s.matchCalls :=
  setStops_matchCalls ..

theorem MatchState.addStopOrder_find? (d : OrderSide) (k : P) : ((s.addStopOrder order).stops d).find? k =
    if d = (s.heap order).side ∧ k = (s.heap order).stopPrice then some (s.stopQueue d k ++ [order])
    else (s.stops d).find? k := by
  unfold addStopOrder OrderBook.stopQueue
  simp only [setStops_stops]
  by_cases hd : d = (s.heap order).side
  · subst hd
    by_cases hk : k = (s.heap order).stopPrice
    · simp [hk]
    · simp [hk, SortedMap.find?_insert]
  · simp [hd]

theorem MatchState.addStopOrder_stopQueue (d : OrderSide) (k : P) : (s.addStopOrder order).stopQueue d k =
    if d = (s.heap order).side ∧ k = (s.heap order).stopPrice then s.stopQueue d k ++ [order]
    else s.stopQueue d k := by
  unfold OrderBook.stopQueue
  rw [addStopOrder_find?]
  split_ifs
  · rfl
  · rfl

end AddStop

theorem addStopOrder_inv {order : OrderPtr} {b : OrderBook P} (hI : Inv [] b) (ha : Admissible order b)
    (hid : b.ordersById.find? (b.heap order).id = none) (hs : (b.heap order).isStopOrder = true) :
    Inv [] ((entered order b).addStopOrder order).toOrderBook := by
  have hE := hI.toBookInv.enter ha.live ha.free ha.alloc hid
  refine ⟨BookInv.push (b := (entered order b).toOrderBook) hE ha.live ?_ ?_ ?_ (fun d k => .inl ?_) (fun d k => ?_)
    ?_ ?_ (fun d k => ?_), fun _ hp => by cases hp⟩
  · simp
  · simp
  · simp
  · unfold OrderBook.queue; rw [addStopOrder_levels]
  · rw [addStopOrder_stopQueue]
    split_ifs with hc
    · exact .inr ⟨rfl, hc.1.symm, hc.2.symm, hs⟩
    · exact .inl rfl
  · refine .inr ⟨(b.heap order).side, (b.heap order).stopPrice, ?_⟩
    rw [addStopOrder_stopQueue, if_pos ⟨rfl, rfl⟩]
    simp
  · intro d k; rw [addStopOrder_levels]; exact hE.full d k
  · rw [addStopOrder_find?]
    split_ifs
    · simp
    · exact hE.fullStop d k

theorem AddEffect.inv {order : OrderPtr} {b : OrderBook P} {out : AddOutcome P} (h : AddEffect order b out)
    (hI : Inv [] b) : Inv [] out.state.toOrderBook := by
  cases h with
  | refused _ => exact hI
  | stopped ha hid hs => exact addStopOrder_inv hI ha hid hs
  | matched ha hid hs hc => exact hc.inv (entered_inv hI ha hid hs)

/-! ## Runs -/

inductive BookOp (P : Type)
  | addOrder (o : Order P)
  | cancelOrder (orderId : String)

/-- The orders a call is given are fresh. -/
def BookOp.Fresh {P : Type} : BookOp P → Prop
  | .addOrder o => o.Fresh
  | .cancelOrder _ => True

/-- A book with the history of its calls: all trades emitted, and the accepted orders as submitted. -/
structure BookRun (P : Type) [LinearOrder P] where
  book : OrderBook P
  trades : List (Trade P)
  accepted : List (OrderPtr × Order P)

namespace BookRun

def init (symbol : String) (tickSize : P) : BookRun P := ⟨.empty symbol tickSize, [], []⟩

/-- One call: `addOrder` on a new object, or `cancelOrder`. -/
def exec (r : BookRun P) : BookOp P → Option (BookRun P)
  | .addOrder o =>
    let (p, b) := r.book.alloc o
    (OrderBook.addOrder (some p) b).map fun out =>
      { book := out.state.toOrderBook, trades := r.trades ++ out.state.pendingTrades,
        accepted := if out.accepted then r.accepted ++ [(p, o)] else r.accepted }
  | .cancelOrder id => some { r with book := (r.book.cancelOrder id).2.1 }

end BookRun

/-- The run of a list of calls on the empty book. -/
def run (symbol : String) (tickSize : P) (ops : List (BookOp P)) : Option (BookRun P) :=
  ops.foldlM BookRun.exec (.init symbol tickSize)

theorem empty_inv (symbol : String) (tickSize : P) : Inv [] (OrderBook.empty symbol tickSize) := by
  have hq : ∀ d k, (OrderBook.empty symbol tickSize).queue d k = [] := fun d k => by cases d <;> rfl
  have hs : ∀ d k, (OrderBook.empty symbol tickSize).stopQueue d k = [] := fun d k => by cases d <;> rfl
  have hh : ∀ p, ¬ (OrderBook.empty symbol tickSize).Held p := by
    intro p hp; unfold Held at hp; simp [hq, hs] at hp
  refine ⟨?_, fun _ h => by cases h⟩
  constructor
  · intro d k p hp; rw [hq] at hp; cases hp
  · intro d k p hp; rw [hs] at hp; cases hp
  · intro p hp; exact absurd hp (hh p)
  · intro d k; rw [hq]; exact List.nodup_nil
  · intro d k; rw [hs]; exact List.nodup_nil
  · intro d k h; cases d <;> cases h
  · intro d k h; cases d <;> cases h
  · intro id p
    constructor
    · intro h; cases h
    · rintro ⟨-, h | h⟩
      · exact absurd h (hh p)
      · cases h
  · intro p hp; cases hp
  · exact .nil
  · intro p hp; cases hp
  · intro p hp; cases hp
  · rintro p (hp | hp)
    · exact absurd hp (hh p)
    · cases hp

/-- A new object may be given to `addOrder`. -/
theorem alloc_addOrder {b : OrderBook P} (hI : Inv [] b) {o : Order P} (hf : o.Fresh) :
    Inv [] (b.alloc o).2 ∧ ∃ out, addOrder (some (b.alloc o).1) (b.alloc o).2 = some out ∧
      AddEffect (b.alloc o).1 (b.alloc o).2 out := by
  have hI' : Inv [] (b.alloc o).2 := ⟨hI.toBookInv.allocate o, fun _ h => by cases h⟩
  have hheap : (b.alloc o).2.heap (b.alloc o).1 = o := Function.update_self ..
  refine ⟨hI', addOrder_effect hI' (by rw [hheap]; exact hf) (fun hh => ?_) (Nat.lt_succ_self _)⟩
  exact absurd (hI.alloc (.inl (show b.Held b.nextPtr from hh))) (lt_irrefl _)

/-- The rule for whole runs: a property of the history that each call keeps, with the calls so
far at hand, holds after every run; and every run returns. -/
theorem run_induction (symbol : String) (tickSize : P) {K : List (BookOp P) → BookRun P → Prop}
    {ops : List (BookOp P)} (hfresh : ∀ op ∈ ops, op.Fresh) (h0 : K [] (.init symbol tickSize))
    (hadd : ∀ pre o r out, pre ++ [.addOrder o] <+: ops → Inv [] r.book → K pre r → o.Fresh →
      Inv [] (r.book.alloc o).2 → AddEffect (r.book.alloc o).1 (r.book.alloc o).2 out →
      K (pre ++ [.addOrder o]) ⟨out.state.toOrderBook, r.trades ++ out.state.pendingTrades,
        if out.accepted then r.accepted ++ [((r.book.alloc o).1, o)] else r.accepted⟩)
    (hcancel : ∀ pre id p r b', Inv [] r.book → K pre r → CancelEffect id p r.book b' →
      K (pre ++ [.cancelOrder id]) { r with book := b' })
    (hmiss : ∀ pre id r, Inv [] r.book → K pre r → r.book.ordersById.find? id = none → K (pre ++ [.cancelOrder id]) r) :
    ∃ r, run symbol tickSize ops = some r ∧ Inv [] r.book ∧ K ops r := by
  refine Machine.foldlM_prefix (I := fun pre r => Inv [] r.book ∧ K pre r) ?_ ⟨empty_inv symbol tickSize, h0⟩
  rintro pre op r hpre ⟨hI, hK⟩
  cases op with
  | addOrder o =>
    have hf : o.Fresh := hfresh (.addOrder o) (hpre.subset (by simp))
    obtain ⟨hI', out, hout, he⟩ := alloc_addOrder hI hf
    refine ⟨_, ?_, he.inv hI', hadd pre o r out hpre hI hK hf hI' he⟩
    show Option.map _ (addOrder (some (r.book.alloc o).1) (r.book.alloc o).2) = _
    rw [hout]; rfl
  | cancelOrder id =>
    cases hid : r.book.ordersById.find? id with
    | none =>
      refine ⟨r, ?_, hI, hmiss pre id r hI hK hid⟩
      show some { r with book := (r.book.cancelOrder id).2.1 } = some r
      rw [cancelOrder_none hid]
    | some p =>
      obtain ⟨b', hb', he⟩ := cancelOrder_effect hI.toBookInv hid
      refine ⟨{ r with book := b' }, ?_, he.inv hI, hcancel pre id p r b' hI hK he⟩
      show some { r with book := (r.book.cancelOrder id).2.1 } = _
      rw [hb']

/-- Every run returns, with the invariant. -/
theorem run_inv (symbol : String) (tickSize : P) {ops : List (BookOp P)} (hfresh : ∀ op ∈ ops, op.Fresh) :
    ∃ r, run symbol tickSize ops = some r ∧ Inv [] r.book := by
  obtain ⟨r, hr, hI, -⟩ := run_induction symbol tickSize (K := fun _ _ => True) hfresh trivial
    (fun _ _ _ _ _ _ _ _ _ _ => trivial) (fun _ _ _ _ _ _ _ _ => trivial) (fun _ _ _ _ _ _ => trivial)
  exact ⟨r, hr, hI⟩

/-- A run in which a trade triggers a stop order and a stop-limit order, one of which trades while
the other comes to rest, followed by a cancel. -/
def cascadeOps : List (BookOp Nat) :=
  [.addOrder (.new "a" .sell 100 5 "S" "m" .limit 0 0), .addOrder (.new "b" .sell 102 4 "S" "m" .limit 0 1),
    .addOrder (.new "s" .buy 0 3 "S" "n" .stop 100 2), .addOrder (.new "t" .buy 101 2 "S" "n" .stopLimit 100 3),
    .addOrder (.new "c" .buy 100 5 "S" "o" .limit 0 4), .cancelOrder "b"]

theorem cascadeOps_fresh : ∀ op ∈ cascadeOps, op.Fresh := by
  simp [cascadeOps, BookOp.Fresh, Order.Fresh, Order.new]

end OrderbookGC
