/-
Quantity conservation over whole runs. The ledger of a run ties every accepted order to the trades
that name its id: what was open at submission is what is open now plus what has been traded. Both
fills of a trade succeed because every order the matching loops can reach is live (the
representation invariant), so that the source may ignore their results. Ids are assumed pairwise
distinct over the run: an id can be used again once its order has left the book, and trades name
orders by id only.
-/
import OrderbookGC.Book.Run

namespace OrderbookGC

open Container OrderBook MatchState

variable {P : Type} [LinearOrder P]

/-! ## The quantity traded under an id -/

def Trade.Names {P : Type} (t : Trade P) (id : String) : Prop := t.buyOrderId = id ∨ t.sellOrderId = id

instance {P : Type} (t : Trade P) (id : String) : Decidable (t.Names id) := inferInstanceAs (Decidable (_ ∨ _))

/-- The sum of the quantities of the trades that name an id. -/
def traded {P : Type} (id : String) (trades : List (Trade P)) : Nat :=
  ((trades.filter (·.Names id)).map (·.quantity.toNat)).sum

@[simp] theorem traded_nil {P : Type} (id : String) : traded id ([] : List (Trade P)) = 0 := rfl

theorem traded_append {P : Type} (id : String) (l l' : List (Trade P)) :
    traded id (l ++ l') = traded id l + traded id l' := by
  simp [traded]

theorem traded_singleton {P : Type} (id : String) (t : Trade P) :
    traded id [t] = if t.Names id then t.quantity.toNat else 0 := by
  unfold traded
  by_cases h : t.Names id <;> simp [h]

theorem Order.Sound.filled_iff {P : Type} {o : Order P} (h : o.Sound) :
    o.status = .filled ↔ o.remainingQuantity = 0 := by
  rcases h with h | ⟨h1, h2⟩
  · have h0 := UInt32.pos_iff_ne_zero.1 h.remaining
    rcases h.status with hs | hs <;> simp [hs, h0]
  · simp [h1, h2]

/-- The subtraction of `fill` is reached only when it does not wrap. -/
theorem Order.fill_toNat {P : Type} {o : Order P} {q : UInt32} (h : (o.fill q).1 = true) :
    (o.fill q).2.remainingQuantity.toNat + q.toNat = o.remainingQuantity.toNat := by
  unfold Order.fill at h ⊢
  split_ifs at h ⊢ with hs hlt
  have hle := UInt32.not_lt.1 hlt
  have := UInt32.le_iff_toNat_le.1 hle
  simp only [UInt32.toNat_sub_of_le _ _ hle]
  omega

/-! ## The ledger -/

/-- The accepted orders, as submitted, against the trades so far and the objects as they are now;
`F` are the orders in flight. -/
structure Ledger (F : List OrderPtr) (accepted : List (OrderPtr × Order P)) (trades : List (Trade P))
    (b : OrderBook P) : Prop where
  distinct : ∀ e ∈ accepted, ∀ e' ∈ accepted, e.2.id = e'.2.id → e.1 = e'.1
  static : ∀ e ∈ accepted, e.2.SameStatic (b.heap e.1)
  balance : ∀ e ∈ accepted,
    e.2.remainingQuantity.toNat = (b.heap e.1).remainingQuantity.toNat + traded e.2.id trades
  filled : ∀ e ∈ accepted, (b.heap e.1).status = .filled ↔ (b.heap e.1).remainingQuantity = 0
  positive : ∀ t ∈ trades, 0 < t.quantity
  buyer : ∀ t ∈ trades, ∃ e ∈ accepted, e.2.id = t.buyOrderId ∧ e.2.side = .buy
  seller : ∀ t ∈ trades, ∃ e ∈ accepted, e.2.id = t.sellOrderId ∧ e.2.side = .sell
  known : ∀ p, b.Held p ∨ p ∈ F → ∃ o, (p, o) ∈ accepted
  alloc : ∀ e ∈ accepted, e.1 < b.nextPtr

namespace Ledger

variable {F F' : List OrderPtr} {accepted : List (OrderPtr × Order P)} {trades : List (Trade P)}
  {b b' : OrderBook P}

/-- A step without a trade: no remainder moves, and a status changes only by cancelling a live order. -/
theorem step (h : Ledger F accepted trades b) (hst : ∀ p, (b.heap p).SameStatic (b'.heap p))
    (hrem : ∀ p, (b'.heap p).remainingQuantity = (b.heap p).remainingQuantity)
    (hstatus : ∀ p, (b'.heap p).status = (b.heap p).status ∨
      (b.heap p).Live ∧ (b'.heap p).status = .canceled)
    (hknown : ∀ p, b'.Held p ∨ p ∈ F' → b.Held p ∨ p ∈ F) (hn : b'.nextPtr = b.nextPtr) :
    Ledger F' accepted trades b' := by
  refine ⟨h.distinct, fun e he => (h.static e he).trans (hst e.1), fun e he => ?_, fun e he => ?_, h.positive,
    h.buyer, h.seller, fun p hp => h.known p (hknown p hp), fun e he => hn ▸ h.alloc e he⟩
  · rw [hrem]; exact h.balance e he
  · rw [hrem]
    rcases hstatus e.1 with hs | ⟨hl, hs⟩
    · rw [hs]; exact h.filled e he
    · simp [hs, UInt32.pos_iff_ne_zero.1 hl.remaining]

/-- An accepted order is named by its id. -/
theorem heap_id (h : Ledger F accepted trades b) {p : OrderPtr} {o : Order P} (hp : (p, o) ∈ accepted) :
    (b.heap p).id = o.id := (h.static (p, o) hp).id

theorem hit {order maker : OrderPtr} {key : P} {rest : List OrderPtr} {s s' : MatchState P} {T : List (Trade P)}
    (h : Ledger (order :: F) accepted (T ++ s.pendingTrades) s.toOrderBook)
    (hI : Inv (order :: F) s.toOrderBook) (he : HitEffect order key maker rest s s') :
    Ledger (order :: F) accepted (T ++ s'.pendingTrades) s'.toOrderBook := by
  have hm : s.Held maker := .inl ⟨_, key, by rw [he.makerMem]; exact List.mem_cons_self ..⟩
  obtain ⟨ot, hot⟩ := h.known order (.inr (List.mem_cons_self ..))
  obtain ⟨om, hom⟩ := h.known maker (.inl hm)
  have hq : (hitQuantity order maker s).toNat = (tradeOf (s.heap order).side order maker (hitQuantity order maker s) s).quantity.toNat :=
    rfl
  -- the new trade names exactly the taker and the maker
  have hnames : ∀ e ∈ accepted, (tradeOf (s.heap order).side order maker (hitQuantity order maker s) s).Names e.2.id ↔
      e.1 = order ∨ e.1 = maker := by
    intro e hmem
    have ht : (s.heap order).id = e.2.id ↔ e.1 = order := by
      rw [h.heap_id hot]
      refine ⟨fun hid => h.distinct e hmem _ hot hid.symm, fun hp => ?_⟩
      rw [← h.heap_id hot, ← hp]; exact h.heap_id hmem
    have hk : (s.heap maker).id = e.2.id ↔ e.1 = maker := by
      rw [h.heap_id hom]
      refine ⟨fun hid => h.distinct e hmem _ hom hid.symm, fun hp => ?_⟩
      rw [← h.heap_id hom, ← hp]; exact h.heap_id hmem
    unfold Trade.Names tradeOf
    cases (s.heap order).side
    · simp only [if_true, ht, hk]
    · simp only [reduceCtorEq, if_false, ht, hk]; exact or_comm
  have hsides := And.intro (h.static _ hot).side (h.static _ hom).side
  simp only [he.makerSide] at hsides
  rw [he.trades, ← List.append_assoc]
  refine ⟨h.distinct, fun e hmem => (h.static e hmem).trans (he.static e.1), fun e hmem => ?_, fun e hmem => ?_,
    fun t ht => ?_, fun t ht => ?_, fun t ht => ?_, fun p hp => h.known p ?_, fun e hmem => he.nextPtr ▸ h.alloc e hmem⟩
  · have hb := h.balance e hmem
    rw [traded_append, traded_singleton, ← hq]
    by_cases h1 : e.1 = order
    · have h3 := he.taker_spec.2.2
      rw [if_pos ((hnames e hmem).2 (.inl h1))]
      rw [h1] at hb ⊢
      omega
    · by_cases h2 : e.1 = maker
      · have h3 := he.maker_spec.2.2
        rw [if_pos ((hnames e hmem).2 (.inr h2))]
        rw [h2] at hb ⊢
        omega
      · rw [if_neg (fun hn => ((hnames e hmem).1 hn).elim h1 h2), he.heapOther e.1 h1 h2]
        omega
  · by_cases h1 : e.1 = order
    · rw [h1]; exact he.taker_spec.2.1.filled_iff
    · by_cases h2 : e.1 = maker
      · rw [h2]; exact he.maker_spec.2.1.filled_iff
      · rw [he.heapOther e.1 h1 h2]; exact h.filled e hmem
  · rcases List.mem_append.1 ht with ht | ht
    · exact h.positive t ht
    · rw [List.mem_singleton.1 ht, UInt32.lt_iff_toNat_lt]; exact he.quantity_pos
  · rcases List.mem_append.1 ht with ht | ht
    · exact h.buyer t ht
    · rw [List.mem_singleton.1 ht]
      unfold tradeOf
      cases hs : (s.heap order).side <;> rw [hs] at hsides
      · exact ⟨_, hot, (h.heap_id hot).symm, hsides.1.symm⟩
      · exact ⟨_, hom, (h.heap_id hom).symm, hsides.2.symm⟩
  · rcases List.mem_append.1 ht with ht | ht
    · exact h.seller t ht
    · rw [List.mem_singleton.1 ht]
      unfold tradeOf
      cases hs : (s.heap order).side <;> rw [hs] at hsides
      · exact ⟨_, hom, (h.heap_id hom).symm, hsides.2.symm⟩
      · exact ⟨_, hot, (h.heap_id hot).symm, hsides.1.symm⟩
  · exact hp.imp_left fun hh => ((he.held_iff hI.toBookInv).1 hh).1

end Ledger

/-- A cascade keeps the ledger. -/
theorem MatchState.Cascade.ledger {n : Nat} {F : List OrderPtr} {s s' : MatchState P}
    {accepted : List (OrderPtr × Order P)} {T : List (Trade P)} (h : Cascade n F s s') (hI : Inv F s.toOrderBook)
    (hL : Ledger F accepted (T ++ s.pendingTrades) s.toOrderBook) :
    Ledger [] accepted (T ++ s'.pendingTrades) s'.toOrderBook := by
  refine (h.invariant (J := fun _ F t => Ledger F accepted (T ++ t.pendingTrades) t.toOrderBook)
    (fun _ _ _ _ _ hJ => hJ) (fun _ _ _ _ _ _ _ _ hI hJ _ he => hJ.hit hI he) ?_ ?_ hI hL).2
  · intro _ order F t t' hI hJ _ he
    obtain ⟨-, htr, -, -, hn, -⟩ := he.frame
    simp only [htr]
    refine hJ.step (fun p => ?_) (fun p => ?_) (fun p => ?_) (fun p hp => ?_) hn
    · rcases he.heap p with h1 | ⟨-, -, -, h1⟩
      · rw [h1]; exact .refl _
      · rw [h1]; exact ⟨rfl, rfl, rfl, rfl, rfl, rfl, rfl, rfl⟩
    · rcases he.heap p with h1 | ⟨-, -, -, h1⟩ <;> rw [h1]
    · rcases he.heap p with h1 | ⟨-, hl, -, h1⟩
      · rw [h1]; exact .inl rfl
      · exact .inr ⟨hl, by rw [h1]⟩
    · rcases hp with hp | hp
      · rcases he.held hp with hp | rfl
        · exact .inl hp
        · exact .inr (List.mem_cons_self ..)
      · exact .inr (List.mem_cons_of_mem _ hp)
  · intro _ triggered t t' hI hJ _ he
    simp only [he.trades]
    refine hJ.step he.static (fun p => ?_) (fun p => .inl ?_) (fun p hp => .inl ?_) he.nextPtr
    · rw [he.heap]; split_ifs
      · exact Order.trigger_remainingQuantity _
      · rfl
    · rw [he.heap]; split_ifs
      · exact Order.trigger_status _
      · rfl
    · rcases hp with hp | hp
      · exact ((he.held_iff hI.toBookInv).1 hp).1
      · obtain ⟨d, k, hk, -⟩ := (he.mem p).1 hp
        exact .inr ⟨d, k, hk⟩

/-! ## Whole runs -/

/-- The id a call submits. -/
def BookOp.submits {P : Type} : BookOp P → Option String
  | .addOrder o => some o.id
  | .cancelOrder _ => none

theorem Ledger.submit {b : OrderBook P} {accepted : List (OrderPtr × Order P)} {trades : List (Trade P)} {o : Order P}
    (h : Ledger [] accepted trades b) (hl : o.Live) (hnew : ∀ e ∈ accepted, e.2.id ≠ o.id)
    (hfree : traded o.id trades = 0) :
    Ledger [(b.alloc o).1] (accepted ++ [((b.alloc o).1, o)]) trades (entered (b.alloc o).1 (b.alloc o).2).toOrderBook := by
  have hself : (entered (b.alloc o).1 (b.alloc o).2).heap (b.alloc o).1 = o := Function.update_self ..
  have hold : ∀ e ∈ accepted, (entered (b.alloc o).1 (b.alloc o).2).heap e.1 = b.heap e.1 := fun e he =>
    Function.update_of_ne (ne_of_lt (h.alloc e he)) _ _
  have hcases : ∀ {Q : OrderPtr × Order P → Prop}, (∀ e ∈ accepted, Q e) → Q ((b.alloc o).1, o) →
      ∀ e ∈ accepted ++ [((b.alloc o).1, o)], Q e := by
    intro Q h1 h2 e he
    rcases List.mem_append.1 he with he | he
    · exact h1 e he
    · rw [List.mem_singleton.1 he]; exact h2
  refine ⟨hcases (fun e he => hcases (h.distinct e he) fun hid => absurd hid (hnew e he))
      (hcases (fun e he hid => absurd hid.symm (hnew e he)) fun _ => rfl),
    hcases (fun e he => ?_) ?_, hcases (fun e he => ?_) ?_, hcases (fun e he => ?_) ?_, h.positive, fun t ht => ?_,
    fun t ht => ?_, fun p hp => ?_, hcases (fun e he => ?_) ?_⟩
  · rw [hold e he]; exact h.static e he
  · simp only [hself]; exact .refl _
  · rw [hold e he]; exact h.balance e he
  · simp only [hself, hfree, Nat.add_zero]
  · rw [hold e he]; exact h.filled e he
  · simp only [hself]; exact hl.sound.filled_iff
  · obtain ⟨e, he, h1⟩ := h.buyer t ht
    exact ⟨e, List.mem_append_left _ he, h1⟩
  · obtain ⟨e, he, h1⟩ := h.seller t ht
    exact ⟨e, List.mem_append_left _ he, h1⟩
  · rcases hp with hp | hp
    · obtain ⟨o', ho'⟩ := h.known p (.inl hp)
      exact ⟨o', List.mem_append_left _ ho'⟩
    · rw [List.mem_singleton.1 hp]; exact ⟨o, by simp⟩
  · exact (h.alloc e he).trans (Nat.lt_succ_self _)
  · exact Nat.lt_succ_self _

/-- An id no accepted order has is named by no trade. -/
theorem Ledger.traded_eq_zero {F : List OrderPtr} {b : OrderBook P} {accepted : List (OrderPtr × Order P)}
    {trades : List (Trade P)} (h : Ledger F accepted trades b) {id : String} (hnew : ∀ e ∈ accepted, e.2.id ≠ id) :
    traded id trades = 0 := by
  have hnone : trades.filter (·.Names id) = [] := by
    rw [List.filter_eq_nil_iff]
    intro t ht hn
    rcases of_decide_eq_true hn with hn | hn
    · obtain ⟨e, he, h1, -⟩ := h.buyer t ht
      exact hnew e he (h1.trans hn)
    · obtain ⟨e, he, h1, -⟩ := h.seller t ht
      exact hnew e he (h1.trans hn)
  unfold traded
  rw [hnone]; rfl

/-- A new object that is not submitted, or is refused, changes nothing in the ledger. -/
theorem Ledger.allocate {b : OrderBook P} {accepted : List (OrderPtr × Order P)} {trades : List (Trade P)}
    (h : Ledger [] accepted trades b) (o : Order P) : Ledger [] accepted trades (b.alloc o).2 := by
  have hold : ∀ e ∈ accepted, (b.alloc o).2.heap e.1 = b.heap e.1 := fun e he =>
    Function.update_of_ne (ne_of_lt (h.alloc e he)) _ _
  refine ⟨h.distinct, fun e he => ?_, fun e he => ?_, fun e he => ?_, h.positive, h.buyer, h.seller, h.known,
    fun e he => (h.alloc e he).trans (Nat.lt_succ_self _)⟩
  · rw [hold e he]; exact h.static e he
  · rw [hold e he]; exact h.balance e he
  · rw [hold e he]; exact h.filled e he

theorem Ledger.addStopOrder {s : MatchState P} {order : OrderPtr} {accepted : List (OrderPtr × Order P)}
    {trades : List (Trade P)} (h : Ledger [order] accepted trades s.toOrderBook) :
    Ledger [] accepted trades (s.addStopOrder order).toOrderBook := by
  refine h.step (fun p => ?_) (fun p => ?_) (fun p => .inl ?_) ?_ (addStopOrder_nextPtr order s)
  · rw [addStopOrder_heap]; exact .refl _
  · rw [addStopOrder_heap]
  · rw [addStopOrder_heap]
  · rintro p ((⟨d, k, hk⟩ | ⟨d, k, hk⟩) | hp)
    · exact .inl (.inl ⟨d, k, by unfold OrderBook.queue at hk; rw [addStopOrder_levels] at hk; exact hk⟩)
    · rw [addStopOrder_stopQueue] at hk
      split_ifs at hk
      · rcases List.mem_append.1 hk with hk | hk
        · exact .inl (.inr ⟨d, k, hk⟩)
        · exact .inr hk
      · exact .inl (.inr ⟨d, k, hk⟩)
    · cases hp

theorem AddEffect.ledger {b : OrderBook P} {o : Order P} {out : AddOutcome P} {accepted : List (OrderPtr × Order P)}
    {trades : List (Trade P)} (he : AddEffect (b.alloc o).1 (b.alloc o).2 out) (hI : Inv [] (b.alloc o).2)
    (hL : Ledger [] accepted trades b) (hnew : ∀ e ∈ accepted, e.2.id ≠ o.id) :
    Ledger [] (if out.accepted then accepted ++ [((b.alloc o).1, o)] else accepted) (trades ++ out.state.pendingTrades)
      out.state.toOrderBook := by
  have hself : (b.alloc o).2.heap (b.alloc o).1 = o := Function.update_self ..
  have hsub : ∀ ha : Admissible (b.alloc o).1 (b.alloc o).2, _ := fun ha =>
    hL.submit (hself ▸ ha.live) hnew (hL.traded_eq_zero hnew)
  cases he with
  | refused _ =>
    show Ledger [] accepted (trades ++ []) (b.alloc o).2
    rw [List.append_nil]; exact hL.allocate o
  | stopped ha hid hs =>
    have hnil : ((entered (b.alloc o).1 (b.alloc o).2).addStopOrder (b.alloc o).1).pendingTrades = [] :=
      addStopOrder_pendingTrades ..
    simp only [if_true, hnil, List.append_nil]
    exact (hsub ha).addStopOrder
  | matched ha hid hs hc =>
    simp only [if_true]
    refine hc.ledger (entered_inv hI ha hid hs) ?_
    show Ledger _ _ (trades ++ []) _
    rw [List.append_nil]; exact hsub ha

theorem Ledger.empty (symbol : String) (tickSize : P) :
    Ledger [] [] [] (OrderBook.empty symbol tickSize) := by
  have hh : ∀ p, ¬ (OrderBook.empty symbol tickSize).Held p := by
    intro p
    unfold Held OrderBook.queue OrderBook.stopQueue
    rintro (⟨d, k, h⟩ | ⟨d, k, h⟩) <;> cases d <;> cases h
  constructor
  case known =>
    rintro p (hp | hp)
    · exact absurd hp (hh p)
    · cases hp
  all_goals intro _ h; cases h

/-- The ledger of a whole run, with the ids of its accepted orders among the submitted ones. -/
theorem run_ledger (symbol : String) (tickSize : P) {ops : List (BookOp P)} (hfresh : ∀ op ∈ ops, op.Fresh)
    (hids : (ops.filterMap BookOp.submits).Nodup) :
    ∃ r, run symbol tickSize ops = some r ∧ Inv [] r.book ∧ Ledger [] r.accepted r.trades r.book ∧
      ∀ e ∈ r.accepted, e.2.id ∈ ops.filterMap BookOp.submits := by
  refine run_induction symbol tickSize
    (K := fun pre r => Ledger [] r.accepted r.trades r.book ∧
      ∀ e ∈ r.accepted, e.2.id ∈ pre.filterMap BookOp.submits) hfresh ⟨.empty symbol tickSize, ?_⟩ ?_ ?_ ?_
  · intro e he; cases he
  · rintro pre o r out hpre - ⟨hL, hsub⟩ - hI' he
    have hnd : ((pre ++ [BookOp.addOrder o]).filterMap BookOp.submits).Nodup := hids.sublist (hpre.sublist.filterMap _)
    have hnew : ∀ e ∈ r.accepted, e.2.id ≠ o.id := by
      intro e hmem hid
      rw [List.filterMap_append, List.nodup_append] at hnd
      exact hnd.2.2 _ (hsub e hmem) o.id (by simp [BookOp.submits]) hid
    refine ⟨he.ledger hI' hL hnew, fun e hmem => ?_⟩
    rw [List.filterMap_append, List.mem_append]
    by_cases hacc : out.accepted = true
    · rw [if_pos hacc] at hmem
      rcases List.mem_append.1 hmem with hmem | hmem
      · exact .inl (hsub e hmem)
      · rw [List.mem_singleton.1 hmem]; exact .inr (by simp [BookOp.submits])
    · rw [if_neg hacc] at hmem
      exact .inl (hsub e hmem)
  · rintro pre id p r b' hI ⟨hL, hsub⟩ he
    refine ⟨hL.step he.static (fun x => ?_) (fun x => ?_) (fun x hx => ?_) he.nextPtr, fun e hmem => ?_⟩
    · by_cases hx : x = p
      · rw [hx, he.heap, Function.update_self]
      · rw [he.heapOther hx]
    · by_cases hx : x = p
      · subst hx
        exact .inr ⟨hI.live he.held, by rw [he.heap, Function.update_self]⟩
      · exact .inl (by rw [he.heapOther hx])
    · exact hx.imp_left fun hh => ((he.held_iff hI.toBookInv).1 hh).1
    · rw [List.filterMap_append]; exact List.mem_append_left _ (hsub e hmem)
  · rintro pre id r - ⟨hL, hsub⟩ -
    exact ⟨hL, fun e hmem => by rw [List.filterMap_append]; exact List.mem_append_left _ (hsub e hmem)⟩

/-- Conservation: after every run with pairwise distinct ids, what an accepted order came with (for
a new or restored order, its quantity) is what remains of it and what was traded under its id; every
trade has a positive quantity and names a buy and a sell order of the run; an order is `FILLED`
exactly when nothing remains; and the subtraction of `fill`, where it is reached, does not wrap. -/
theorem run_conservation (symbol : String) (tickSize : P) (ops : List (BookOp P)) (hfresh : ∀ op ∈ ops, op.Fresh)
    (hids : (ops.filterMap BookOp.submits).Nodup) :
    ∃ r, run symbol tickSize ops = some r ∧
      (∀ p o, (p, o) ∈ r.accepted →
        o.remainingQuantity.toNat = (r.book.heap p).remainingQuantity.toNat + traded o.id r.trades ∧
        (o.quantity = o.remainingQuantity →
          o.quantity.toNat - (r.book.heap p).remainingQuantity.toNat = traded o.id r.trades) ∧
        ((r.book.heap p).status = .filled ↔ (r.book.heap p).remainingQuantity = 0)) ∧
      (∀ t ∈ r.trades, 0 < t.quantity ∧ (∃ p o, (p, o) ∈ r.accepted ∧ o.id = t.buyOrderId ∧ o.side = .buy) ∧
        ∃ p o, (p, o) ∈ r.accepted ∧ o.id = t.sellOrderId ∧ o.side = .sell) ∧
      ∀ (o : Order P) (q : UInt32), (o.fill q).1 = true →
        (o.fill q).2.remainingQuantity.toNat + q.toNat = o.remainingQuantity.toNat := by
  obtain ⟨r, hr, -, hL, -⟩ := run_ledger symbol tickSize hfresh hids
  refine ⟨r, hr, fun p o hp => ?_, fun t ht => ?_, fun o q hq => Order.fill_toNat hq⟩
  · have hb := hL.balance (p, o) hp
    refine ⟨hb, fun hw => ?_, hL.filled (p, o) hp⟩
    rw [hw]; simp only at hb; omega
  · obtain ⟨e, he, hb⟩ := hL.buyer t ht
    obtain ⟨e', he', hs⟩ := hL.seller t ht
    exact ⟨hL.positive t ht, ⟨e.1, e.2, he, hb⟩, e'.1, e'.2, he', hs⟩

theorem run_conservation_cascadeOps : ∃ r, run "S" 1 cascadeOps = some r ∧
    ∀ p o, (p, o) ∈ r.accepted →
      o.remainingQuantity.toNat = (r.book.heap p).remainingQuantity.toNat + traded o.id r.trades := by
  obtain ⟨r, hr, h, -⟩ := run_conservation "S" 1 cascadeOps cascadeOps_fresh (by decide)
  exact ⟨r, hr, fun p o hp => (h p o hp).1⟩

end OrderbookGC
