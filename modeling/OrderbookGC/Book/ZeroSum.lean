/-
The book is a closed market: over every run the buyers have bought what the sellers have sold, and at every price at
which the positions are valued the gains of the clients are the losses of the others. A trade counts once for the buy
order it names and once for the sell order, so a sum over the orders of a side is the sum over the trades.
-/
import OrderbookGC.Book.Conservation
import OrderbookGC.Book.Execution
import OrderbookGC.Container.Grouped

namespace OrderbookGC

open Container OrderBook MatchState

/-! ## Accounts -/

/-- What the fills of an order are worth at a price, less the money paid for them. -/
def Order.gain (mark : ℚ) (trades : List (Trade ℚ)) (o : Order ℚ) : ℚ :=
  let fills := trades.filter (·.Names o.id)
  match o.side with
  | .buy => (fills.map fun t => (t.quantity.toNat : ℚ) * (mark - t.price)).sum
  | .sell => -(fills.map fun t => (t.quantity.toNat : ℚ) * (mark - t.price)).sum

/-- The clients of a run. -/
def clients (accepted : List (OrderPtr × Order ℚ)) : Finset String := (accepted.map (·.2.clientId)).toFinset

/-- The gain of a client, over all its orders. -/
def clientGain (accepted : List (OrderPtr × Order ℚ)) (mark : ℚ) (trades : List (Trade ℚ)) (client : String) : ℚ :=
  ((accepted.filter (·.2.clientId = client)).map fun e => e.2.gain mark trades).sum

/-- The units the orders of a side have traded. -/
def sideVolume (accepted : List (OrderPtr × Order ℚ)) (d : OrderSide) (trades : List (Trade ℚ)) : ℕ :=
  ((accepted.filter (·.2.side = d)).map fun e => traded e.2.id trades).sum

/-! ## A trade counts once on each side -/

section Ledger

variable {F : List OrderPtr} {accepted : List (OrderPtr × Order ℚ)} {trades : List (Trade ℚ)} {b : OrderBook ℚ}

theorem Ledger.side_of_id (h : Ledger F accepted trades b) {e e' : OrderPtr × Order ℚ} (he : e ∈ accepted)
    (he' : e' ∈ accepted) (hid : e.2.id = e'.2.id) : e.2.side = e'.2.side := by
  rw [← (h.static e he).side, ← (h.static e' he').side, h.distinct e he e' he' hid]

/-- The trades that name an order of a side are those that name it on that side. -/
theorem Ledger.names_iff (h : Ledger F accepted trades b) {e : OrderPtr × Order ℚ} (he : e ∈ accepted) {t : Trade ℚ}
    (ht : t ∈ trades) : t.Names e.2.id ↔ t.party e.2.side = e.2.id := by
  obtain ⟨buy, hbuy, hbid, hbside⟩ := h.buyer t ht
  obtain ⟨sell, hsell, hsid, hsside⟩ := h.seller t ht
  constructor
  · rintro (hn | hn)
    · have := h.side_of_id hbuy he (hbid.trans hn)
      rw [← this, hbside]
      exact hn
    · have := h.side_of_id hsell he (hsid.trans hn)
      rw [← this, hsside]
      exact hn
  · intro hp
    cases hs : e.2.side <;> rw [hs] at hp
    · exact .inl hp
    · exact .inr hp

/-- A sum over the orders of a side, of what is counted under each in the trades, is a sum over the trades. -/
theorem Ledger.sum_side {M : Type} [AddCommMonoid M] (h : Ledger F accepted trades b)
    (hnd : (accepted.map (·.2.id)).Nodup) (f : Trade ℚ → M) (d : OrderSide) :
    ((accepted.filter (·.2.side = d)).map fun e => ((trades.filter (·.Names e.2.id)).map f).sum).sum =
      (trades.map f).sum := by
  have hids : ((accepted.filter (·.2.side = d)).map (·.2.id)).Nodup :=
    hnd.sublist (List.filter_sublist.map _)
  have hkeys : ∀ t ∈ trades, t.party d ∈ ((accepted.filter (·.2.side = d)).map (·.2.id)).toFinset := by
    intro t ht
    obtain ⟨e, he, hid, hside⟩ : ∃ e ∈ accepted, e.2.id = t.party d ∧ e.2.side = d := by
      cases d
      · exact h.buyer t ht
      · exact h.seller t ht
    rw [List.mem_toFinset, ← hid]
    exact List.mem_map_of_mem (List.mem_filter.2 ⟨he, decide_eq_true hside⟩)
  rw [sum_map_eq_sum_keys (fun t : Trade ℚ => t.party d) f _ trades hkeys, List.sum_toFinset _ hids, List.map_map]
  congr 1
  refine List.map_congr_left fun e he => ?_
  obtain ⟨he, hside⟩ := List.mem_filter.1 he
  show _ = ((trades.filter fun t => t.party d = e.2.id).map f).sum
  congr 2
  refine List.filter_congr fun t ht => decide_eq_decide.2 ?_
  rw [← of_decide_eq_true hside]
  exact h.names_iff he ht

/-- The gains of the orders add up to nothing. -/
theorem Ledger.sum_gain (h : Ledger F accepted trades b) (hnd : (accepted.map (·.2.id)).Nodup) (mark : ℚ) :
    (accepted.map fun e => e.2.gain mark trades).sum = 0 := by
  have hbuy := h.sum_side hnd (fun t => (t.quantity.toNat : ℚ) * (mark - t.price)) .buy
  have hsell := h.sum_side hnd (fun t => (t.quantity.toNat : ℚ) * (mark - t.price)) .sell
  have hsides : ∀ l : List (OrderPtr × Order ℚ), (l.map fun e => e.2.gain mark trades).sum =
      ((l.filter (·.2.side = .buy)).map fun e =>
        ((trades.filter (·.Names e.2.id)).map fun t => (t.quantity.toNat : ℚ) * (mark - t.price)).sum).sum -
      ((l.filter (·.2.side = .sell)).map fun e =>
        ((trades.filter (·.Names e.2.id)).map fun t => (t.quantity.toNat : ℚ) * (mark - t.price)).sum).sum := by
    intro l
    induction l with
    | nil => simp
    | cons e l ih =>
      rw [List.map_cons, List.sum_cons, ih]
      cases hs : e.2.side
      · rw [List.filter_cons_of_pos (by simp [hs]), List.filter_cons_of_neg (by simp [hs]), List.map_cons, List.sum_cons]
        unfold Order.gain
        simp only [hs]
        ring
      · rw [List.filter_cons_of_neg (by simp [hs]), List.filter_cons_of_pos (by simp [hs]), List.map_cons, List.sum_cons]
        unfold Order.gain
        simp only [hs]
        ring
  rw [hsides, hbuy, hsell, sub_self]

end Ledger

/-! ## Runs -/

/-- The ids of the accepted orders are among the submitted ones, in order. -/
theorem run_accepted_ids (symbol : String) (tickSize : ℚ) {ops : List (BookOp ℚ)} (hfresh : ∀ op ∈ ops, op.Fresh) :
    ∃ r, run symbol tickSize ops = some r ∧ (r.accepted.map (·.2.id)).Sublist (ops.filterMap BookOp.submits) := by
  obtain ⟨r, hr, -, h⟩ := run_induction symbol tickSize
    (K := fun pre r => (r.accepted.map (·.2.id)).Sublist (pre.filterMap BookOp.submits)) hfresh (List.Sublist.refl _)
    (fun pre o r out _ _ hK _ _ _ => by
      rw [List.filterMap_append]
      show ((if out.accepted then r.accepted ++ [((r.book.alloc o).1, o)] else r.accepted).map _).Sublist (_ ++ [o.id])
      split_ifs
      · rw [List.map_append]
        exact hK.append (List.Sublist.refl _)
      · exact hK.trans (List.sublist_append_left _ _))
    (fun pre id p r b' _ hK _ => by rw [List.filterMap_append]; exact hK.trans (List.sublist_append_left _ _))
    (fun pre id r _ hK _ => by rw [List.filterMap_append]; exact hK.trans (List.sublist_append_left _ _))
  exact ⟨r, hr, h⟩

/-- Over every run with pairwise distinct ids, the buy orders and the sell orders have each traded the volume of the
trades, and the gains of all clients, valued at any price, add up to nothing. -/
theorem run_zeroSum (symbol : String) (tickSize : ℚ) (ops : List (BookOp ℚ)) (hfresh : ∀ op ∈ ops, op.Fresh)
    (hids : (ops.filterMap BookOp.submits).Nodup) :
    ∃ r, run symbol tickSize ops = some r ∧ (∀ d, sideVolume r.accepted d r.trades = volume r.trades) ∧
      ∀ mark : ℚ, ∑ c ∈ clients r.accepted, clientGain r.accepted mark r.trades c = 0 := by
  obtain ⟨r, hr, -, hL, -⟩ := run_ledger symbol tickSize hfresh hids
  obtain ⟨r', hr', hsub⟩ := run_accepted_ids symbol tickSize hfresh
  cases hr.symm.trans hr'
  have hnd := hids.sublist hsub
  refine ⟨r, hr, fun d => hL.sum_side hnd (fun t => t.quantity.toNat) d, fun mark => ?_⟩
  unfold clients clientGain
  rw [← hL.sum_gain hnd mark]
  refine (sum_map_eq_sum_keys (fun e : OrderPtr × Order ℚ => e.2.clientId) (fun e => e.2.gain mark r.trades) _ r.accepted
    fun e he => ?_).symm
  rw [List.mem_toFinset]
  exact List.mem_map_of_mem he

/-- Two sellers and a buyer who trades with both. -/
def tradedOps : List (BookOp ℚ) := offerOps ++ [.addOrder (.new "c" .buy 101 6 "S" "o" .limit 0 3)]

theorem run_zeroSum_tradedOps : ∃ r, run "S" 1 tradedOps = some r ∧
    (∀ d, sideVolume r.accepted d r.trades = volume r.trades) ∧
      ∀ mark : ℚ, ∑ c ∈ clients r.accepted, clientGain r.accepted mark r.trades c = 0 :=
  run_zeroSum "S" 1 tradedOps (by simp [tradedOps, offerOps, BookOp.Fresh, Order.Fresh, Order.new]) (by decide)

end OrderbookGC
