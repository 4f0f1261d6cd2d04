/-
Stop triggering over a whole call of `addOrder`: it is exact and it reaches a fixed point. At any
moment of a cascade the trigger loop has looked at the first `n` trades of the call; the stop maps
are those before the call without the levels these trades reach, and every order taken out is in
flight or has been matched, after a trade that reached it. At the end `n` counts all trades.
-/
import OrderbookGC.Book.Run

namespace OrderbookGC

open Container OrderBook MatchState

variable {P : Type} [LinearOrder P]

/-- The stop orders of side `d` at `k` are reached by one of the trades. -/
def reachedBy (d : OrderSide) (trades : List (Trade P)) (k : P) : Bool := trades.any (triggeredBy d ·.price k)

theorem reachedBy_iff {d : OrderSide} {trades : List (Trade P)} {k : P} :
    reachedBy d trades k = true ↔ ∃ t ∈ trades, triggeredBy d t.price k = true := by
  simp [reachedBy]

theorem reached_newPrices {d : OrderSide} {n : Nat} {s : MatchState P} {k : P} :
    reached d (newPrices n s) k = reachedBy d (s.pendingTrades.drop n) k := by
  rw [Bool.eq_iff_iff, reached_iff, reachedBy_iff]
  constructor
  · rintro ⟨x, hx, ht⟩
    obtain ⟨t, htm, rfl⟩ := mem_newPrices.1 hx
    exact ⟨t, htm, ht⟩
  · rintro ⟨t, htm, ht⟩
    exact ⟨t.price, mem_newPrices.2 ⟨t, htm, rfl⟩, ht⟩

/-- The stop order `p` was passed to `matchOrder` after a trade that reached it. -/
def MatchedAfter (d : OrderSide) (k : P) (p : OrderPtr) (s : MatchState P) : Prop :=
  ∃ m, (p, m) ∈ s.matchCalls ∧ reachedBy d (s.pendingTrades.take m) k = true

theorem MatchedAfter.mono {d : OrderSide} {k : P} {p : OrderPtr} {s s' : MatchState P} (h : MatchedAfter d k p s)
    (hc : s.matchCalls ⊆ s'.matchCalls) (ht : s.pendingTrades <+: s'.pendingTrades) : MatchedAfter d k p s' := by
  obtain ⟨m, hm, hr⟩ := h
  obtain ⟨t, htm, htr⟩ := reachedBy_iff.1 hr
  obtain ⟨l, hl⟩ := ht
  refine ⟨m, hc hm, reachedBy_iff.2 ⟨t, ?_, htr⟩⟩
  rw [← hl, List.take_append]
  exact List.mem_append_left _ htm

/-- The stop maps in the middle of a call that began in `s₀`, with `F` waiting to be matched and
the first `n` trades looked at. -/
structure StopInv (s₀ : MatchState P) (n : Nat) (F : List OrderPtr) (s : MatchState P) : Prop where
  le : n ≤ s.pendingTrades.length
  stops : ∀ d k, (s.stops d).find? k =
    if reachedBy d (s.pendingTrades.take n) k = true then none else (s₀.stops d).find? k
  heap : ∀ d k p, p ∈ s.stopQueue d k → s.heap p = s₀.heap p
  left : ∀ d k p, p ∈ s₀.stopQueue d k → reachedBy d (s.pendingTrades.take n) k = true →
    p ∈ F ∨ MatchedAfter d k p s

namespace StopInv

variable {s₀ s s' : MatchState P} {n : Nat} {F F' : List OrderPtr}

/-- A step that leaves the stop maps and the trades looked at alone. -/
theorem step (h : StopInv s₀ n F s) (hst : ∀ d, s'.stops d = s.stops d)
    (hh : ∀ d k p, p ∈ s.stopQueue d k → s'.heap p = s.heap p) (ht : s.pendingTrades <+: s'.pendingTrades)
    (hleft : ∀ d k p, p ∈ s₀.stopQueue d k → reachedBy d (s.pendingTrades.take n) k = true →
      p ∈ F ∨ MatchedAfter d k p s → p ∈ F' ∨ MatchedAfter d k p s') : StopInv s₀ n F' s' := by
  have htake : s'.pendingTrades.take n = s.pendingTrades.take n := by
    obtain ⟨l, hl⟩ := ht
    rw [← hl, List.take_append_of_le_length h.le]
  have hq : ∀ d k, s'.stopQueue d k = s.stopQueue d k := fun d k => by unfold OrderBook.stopQueue; rw [hst]
  refine ⟨h.le.trans ht.length_le, fun d k => ?_, fun d k p hp => ?_, fun d k p hp hr => ?_⟩
  · rw [hst, htake]; exact h.stops d k
  · rw [hq] at hp
    rw [hh d k p hp]; exact h.heap d k p hp
  · rw [htake] at hr
    exact hleft d k p hp hr (h.left d k p hp hr)

/-- The order about to be matched is logged after the trades that triggered it. -/
theorem log {order : OrderPtr} (h : StopInv s₀ n (order :: F) s) : StopInv s₀ n F (s.logMatch order) := by
  refine h.step (logMatch_stops s · order) (fun _ _ _ _ => rfl) (List.prefix_refl _) fun d k p hp hr hF => ?_
  have hmono : MatchedAfter d k p s → MatchedAfter d k p (s.logMatch order) := fun hm =>
    hm.mono (List.subset_append_left ..) (List.prefix_refl _)
  rcases hF with hF | hm
  · rcases List.mem_cons.1 hF with rfl | hF
    · refine .inr ⟨s.pendingTrades.length, List.mem_append_right _ (List.mem_singleton.2 rfl), ?_⟩
      obtain ⟨t, ht, htr⟩ := reachedBy_iff.1 hr
      have hall : (s.logMatch p).pendingTrades.take s.pendingTrades.length = s.pendingTrades := List.take_length
      rw [hall]
      exact reachedBy_iff.2 ⟨t, List.mem_of_mem_take ht, htr⟩
    · exact .inl hF
  · exact .inr (hmono hm)

theorem hit {order maker : OrderPtr} {key : P} {rest : List OrderPtr} (h : StopInv s₀ n F s)
    (hI : Inv (order :: F) s.toOrderBook) (he : HitEffect order key maker rest s s') : StopInv s₀ n F s' := by
  have ht : s.pendingTrades <+: s'.pendingTrades := by rw [he.trades]; exact List.prefix_append ..
  refine h.step he.stops (fun d k p hp => ?_) ht fun d k p _ _ hF => hF.imp_right fun hm =>
    hm.mono (by rw [he.calls]; exact fun _ hx => hx) ht
  apply he.heapOther
  · rintro rfl; exact hI.flight p (List.mem_cons_self ..) (.inr ⟨d, k, hp⟩)
  · rintro rfl
    exact hI.toBookInv.not_mem_stopQueue (show p ∈ s.queue _ key by rw [he.makerMem]; exact List.mem_cons_self ..) hp

theorem place {order : OrderPtr} (h : StopInv s₀ n F s) (hI : Inv (order :: F) s.toOrderBook)
    (he : PlaceEffect order s s') : StopInv s₀ n F s' := by
  obtain ⟨hst, ht, -, hc, -⟩ := he.frame
  refine h.step hst (fun d k p hp => ?_) (ht ▸ List.prefix_refl _) fun d k p _ _ hF => hF.imp_right fun hm =>
    hm.mono (by rw [hc]; exact fun _ hx => hx) (ht ▸ List.prefix_refl _)
  rcases he.heap p with heq | ⟨rfl, -⟩
  · exact heq
  · exact absurd (.inr ⟨d, k, hp⟩) (hI.flight p (List.mem_cons_self ..))

/-- The trigger step looks at all new trades. -/
theorem trigger {triggered : List OrderPtr} (h : StopInv s₀ n [] s) (hI : Inv [] s.toOrderBook)
    (he : TriggerEffect (newPrices n s) triggered s s') : StopInv s₀ s.pendingTrades.length triggered s' := by
  have htake : s'.pendingTrades.take s.pendingTrades.length = s.pendingTrades := by rw [he.trades, List.take_length]
  have hsplit : ∀ d k, reachedBy d s.pendingTrades k =
      (reachedBy d (s.pendingTrades.take n) k || reachedBy d (s.pendingTrades.drop n) k) := fun d k => by
    unfold reachedBy
    rw [← List.any_append, List.take_append_drop]
  have hmono : ∀ d k p, MatchedAfter d k p s → MatchedAfter d k p s' := fun d k p hm =>
    hm.mono (by rw [he.calls]; exact fun _ hx => hx) (he.trades ▸ List.prefix_refl _)
  refine ⟨by rw [he.trades], fun d k => ?_, fun d k p hp => ?_, fun d k p hp hr => ?_⟩
  · rw [he.stops, h.stops, htake, hsplit, reached_newPrices]
    cases reachedBy d (s.pendingTrades.take n) k <;> cases reachedBy d (s.pendingTrades.drop n) k <;> rfl
  · have hheld := (he.held_iff hI.toBookInv).1 (.inr ⟨d, k, hp⟩)
    rw [he.heap, if_neg hheld.2]
    rw [he.stopQueue] at hp
    split_ifs at hp
    · cases hp
    · exact h.heap d k p hp
  · rw [htake, hsplit, Bool.or_eq_true] at hr
    by_cases hold : reachedBy d (s.pendingTrades.take n) k = true
    · rcases h.left d k p hp hold with hF | hm
      · cases hF
      · exact .inr (hmono d k p hm)
    · refine .inl ((he.mem p).2 ⟨d, k, ?_, by rw [reached_newPrices]; exact hr.resolve_left hold⟩)
      unfold OrderBook.stopQueue at hp ⊢
      rw [h.stops, if_neg hold]; exact hp

end StopInv

theorem MatchState.Cascade.stopInv {s₀ s s' : MatchState P} {n : Nat} {F : List OrderPtr} (h : Cascade n F s s')
    (hI : Inv F s.toOrderBook) (hS : StopInv s₀ n F s) : StopInv s₀ s'.pendingTrades.length [] s' :=
  (h.rule (J := fun n F t => StopInv s₀ n F t) (M := fun n _ F t => StopInv s₀ n F t)
    (fun _ _ _ _ _ hJ => hJ.log) (fun _ _ _ _ _ _ _ _ hI hJ _ he => hJ.hit hI he)
    (fun _ _ _ _ _ hI hJ _ he => hJ.place hI he) (fun _ _ _ _ hI hJ _ he => hJ.trigger hI he) hI hS).2

/-! ## One call -/

/-- What one call of `addOrder` does to the stop maps, from the book `b` with the incoming order at
`order` to the state `s`; `T` are the trades of the call. -/
structure StopsExact (order : OrderPtr) (b : OrderBook P) (T : List (Trade P)) (s : MatchState P) : Prop where
  /-- No stop order reached by a trade of the call is left. -/
  fixedPoint : ∀ d k p t, p ∈ s.stopQueue d k → t ∈ T → triggeredBy d t.price (s.heap p).stopPrice = false
  /-- An order that left a stop map was matched after a trade that reached it. -/
  triggered : ∀ d k p, p ∈ b.stopQueue d k → (∀ e l, p ∉ s.stopQueue e l) →
    ∃ m, (p, m) ∈ s.matchCalls ∧ ∃ t ∈ T.take m, triggeredBy (b.heap p).side t.price (b.heap p).stopPrice = true
  /-- Every other stop order keeps its place and all its fields; only the incoming order can join. -/
  kept : ∀ d k, (∀ t ∈ T, triggeredBy d t.price k = false) → s.stopQueue d k = b.stopQueue d k ∨
    s.stopQueue d k = b.stopQueue d k ++ [order] ∧ (b.heap order).isStopOrder = true ∧
      (b.heap order).side = d ∧ (b.heap order).stopPrice = k
  fields : ∀ d k p, p ∈ s.stopQueue d k → s.heap p = b.heap p
  /-- Without a trade the stop maps change at most by the insertion of the incoming order. -/
  idle : T = [] → ∀ d, s.stops d = b.stops d ∨ (b.heap order).isStopOrder = true ∧ (b.heap order).side = d ∧
    s.stops d = (b.stops d).insert (b.heap order).stopPrice (b.stopQueue d (b.heap order).stopPrice ++ [order])

theorem StopInv.exact {order : OrderPtr} {b : OrderBook P} {s : MatchState P}
    (h : StopInv (entered order b) s.pendingTrades.length [] s) (hI : Inv [] b) (hI' : Inv [] s.toOrderBook) :
    StopsExact order b s.pendingTrades s := by
  have hstops : ∀ d k, (s.stops d).find? k =
      if reachedBy d s.pendingTrades k = true then none else (b.stops d).find? k := fun d k => by
    rw [h.stops, List.take_length]
    cases d <;> rfl
  have hheap : ∀ d k p, p ∈ s.stopQueue d k → s.heap p = b.heap p := fun d k p hp => h.heap d k p hp
  refine ⟨fun d k p t hp ht => ?_, fun d k p hp hno => ?_, fun d k hk => .inl ?_, hheap, fun hT d => .inl ?_⟩
  · rw [(hI'.toBookInv.stop hp).2.1]
    by_contra hc
    have hr : reachedBy d s.pendingTrades k = true := reachedBy_iff.2 ⟨t, ht, Bool.eq_true_of_not_eq_false hc⟩
    unfold OrderBook.stopQueue at hp
    rw [hstops, if_pos hr] at hp
    cases hp
  · obtain ⟨h1, h2, -⟩ := hI.toBookInv.stop hp
    have hr : reachedBy d s.pendingTrades k = true := by
      by_contra hr
      refine hno d k ?_
      unfold OrderBook.stopQueue at hp ⊢
      rw [hstops, if_neg hr]; exact hp
    rcases h.left d k p (by cases d <;> exact hp) (by rw [List.take_length]; exact hr) with hF | ⟨m, hm, hrm⟩
    · cases hF
    · rw [h1, h2]
      exact ⟨m, hm, reachedBy_iff.1 hrm⟩
  · have hr : ¬ reachedBy d s.pendingTrades k = true := fun hr => by
      obtain ⟨t, ht, htr⟩ := reachedBy_iff.1 hr
      rw [hk t ht] at htr; cases htr
    unfold OrderBook.stopQueue
    rw [hstops, if_neg hr]
  · apply SortedMap.ext_find?
    intro k
    rw [hstops, hT]; rfl

theorem AddEffect.stopsExact {order : OrderPtr} {b : OrderBook P} {out : AddOutcome P} (he : AddEffect order b out)
    (hI : Inv [] b) : StopsExact order b out.state.pendingTrades out.state := by
  have hI' := he.inv hI
  cases he with
  | refused _ =>
    refine ⟨fun _ _ _ t _ ht => ?_, fun d k p hp hno => absurd hp (hno d k), fun d k _ => .inl ?_, fun _ _ _ _ => rfl,
      fun _ d => .inl ?_⟩
    · cases ht
    · rfl
    · cases d <;> rfl
  | stopped ha hid hs =>
    have hT : ((entered order b).addStopOrder order).pendingTrades = [] := addStopOrder_pendingTrades ..
    have hq : ∀ d k, ((entered order b).addStopOrder order).stopQueue d k =
        if d = (b.heap order).side ∧ k = (b.heap order).stopPrice then b.stopQueue d k ++ [order] else b.stopQueue d k :=
      fun d k => addStopOrder_stopQueue order (entered order b) d k
    refine ⟨fun _ _ _ t _ ht => ?_, fun d k p hp hno => absurd ?_ (hno d k), fun d k _ => ?_, fun _ _ _ _ => ?_,
      fun _ d => ?_⟩
    · simp only [hT] at ht; cases ht
    · show p ∈ ((entered order b).addStopOrder order).stopQueue d k
      rw [hq]
      split_ifs
      · exact List.mem_append_left _ hp
      · exact hp
    · show ((entered order b).addStopOrder order).stopQueue d k = _ ∨ _
      rw [hq]
      split_ifs with hc
      · exact .inr ⟨rfl, hs, hc.1.symm, hc.2.symm⟩
      · exact .inl rfl
    · exact congrFun (addStopOrder_heap order (entered order b)) _
    · show ((entered order b).addStopOrder order).stops d = _ ∨ _
      have hst : ∀ e, (entered order b).stops e = b.stops e := fun e => by cases e <;> rfl
      unfold MatchState.addStopOrder
      simp only [setStops_stops, hst]
      by_cases hd : d = ((entered order b).heap order).side
      · right
        refine ⟨hs, hd.symm, ?_⟩
        rw [if_pos hd, hd]; rfl
      · left
        rw [if_neg hd]
  | matched ha hid hs hc =>
    have hE := entered_inv hI ha hid hs
    refine (hc.stopInv hE ⟨Nat.zero_le _, fun d k => ?_, fun _ _ _ _ => rfl, fun d k p hp hr => ?_⟩).exact hI hI'
    · rfl
    · cases hr

/-- Stop triggering is exact and cascades to a fixed point, for every call on every reachable book. -/
theorem run_stopsExact (symbol : String) (tickSize : P) (ops : List (BookOp P)) (hfresh : ∀ op ∈ ops, op.Fresh)
    (o : Order P) (ho : o.Fresh) :
    ∃ r out, run symbol tickSize ops = some r ∧
      addOrder (some (r.book.alloc o).1) (r.book.alloc o).2 = some out ∧
      StopsExact (r.book.alloc o).1 (r.book.alloc o).2 out.state.pendingTrades out.state := by
  obtain ⟨r, hr, hI⟩ := run_inv symbol tickSize hfresh
  obtain ⟨hI', out, hout, he⟩ := alloc_addOrder hI ho
  exact ⟨r, out, hr, hout, he.stopsExact hI'⟩

theorem run_stopsExact_cascadeOps : ∃ r out, run "S" 1 cascadeOps = some r ∧
    addOrder (some (r.book.alloc (.new "d" .sell 99 1 "S" "m" .limit 0 7)).1)
      (r.book.alloc (.new "d" .sell 99 1 "S" "m" .limit 0 7)).2 = some out ∧
    StopsExact (r.book.alloc (.new "d" .sell 99 1 "S" "m" .limit 0 7)).1
      (r.book.alloc (.new "d" .sell 99 1 "S" "m" .limit 0 7)).2 out.state.pendingTrades out.state :=
  run_stopsExact "S" 1 cascadeOps cascadeOps_fresh _ (.inl rfl)

end OrderbookGC
