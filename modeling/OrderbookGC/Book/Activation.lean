/-
The order in which `processStopOrders` activates the stop orders of a batch. The prices of the batch are looked at in
ascending order, so the lowest one drains every sell stop the batch reaches, from the highest down, after the buy stops
at or below it; the other buy stops follow, from the lowest up (`Before`). On one side that is the order in which the
trades reached the stop prices. Across the sides it is not: a buy stop above the lowest price of the batch waits for the
sell stops, whichever of them the trades reached first.
-/
import OrderbookGC.Book.Stops
import OrderbookGC.Book.Call

namespace OrderbookGC

open Container OrderBook MatchState

variable {P : Type} [LinearOrder P]

namespace MatchState

/-! ## The trigger loop -/

section Drain

variable {β : Type} (side : β → OrderSide) (stop : β → P) (r : β → β → Prop)

/-- The queues of a stop map of side `d` hold the orders their keys name, in the order `r`. -/
def Keyed (d : OrderSide) (m : SortedMap P (List β)) : Prop :=
  ∀ e ∈ m.entries, (∀ p ∈ e.2, side p = d ∧ stop p = e.1) ∧ e.2.Pairwise r

/-- `p` is activated before `q` when both are triggered by a batch with lowest price `low`. -/
def Before (low : P) (p q : β) : Prop :=
  match side p, side q with
  | .buy, .buy => stop p < stop q ∨ stop p = stop q ∧ r p q
  | .sell, .sell => stop q < stop p ∨ stop p = stop q ∧ r p q
  | .buy, .sell => stop p ≤ low
  | .sell, .buy => low < stop q

variable {side stop r}

theorem Keyed.pairwise_buys {m : SortedMap P (List β)} (h : Keyed side stop r .buy m) (low : P) :
    (contents m).Pairwise (Before side stop r low) := by
  refine List.pairwise_flatMap.2 ⟨fun e he => ?_, m.sorted.imp_of_mem fun {e e'} he he' hlt p hp q hq => ?_⟩
  · obtain ⟨hk, hr⟩ := h e he
    refine hr.imp_of_mem fun {p q} hp hq hpq => ?_
    simp only [Before, (hk p hp).1, (hk q hq).1]
    exact .inr ⟨(hk p hp).2.trans (hk q hq).2.symm, hpq⟩
  · obtain ⟨h1, h2⟩ := (h e he).1 p hp
    obtain ⟨h3, h4⟩ := (h e' he').1 q hq
    simp only [Before, h1, h3]
    exact .inl (by rw [h2, h4]; exact hlt)

theorem Keyed.pairwise_sells {m : SortedMap P (List β)} (h : Keyed side stop r .sell m) (low : P) (t : P → Bool) :
    ((m.popMaxWhile t).1.flatMap (·.2)).Pairwise (Before side stop r low) := by
  have hsub : (m.popMaxWhile t).1.Sublist m.entries.reverse := (List.takeWhile_prefix _).sublist
  have hmem : ∀ e ∈ (m.popMaxWhile t).1, e ∈ m.entries := fun e he => List.mem_reverse.1 (hsub.subset he)
  have hsorted : (m.popMaxWhile t).1.Pairwise fun e e' => e'.1 < e.1 := (List.pairwise_reverse.2 m.sorted).sublist hsub
  refine List.pairwise_flatMap.2 ⟨fun e he => ?_, hsorted.imp_of_mem fun {e e'} he he' hlt p hp q hq => ?_⟩
  · obtain ⟨hk, hr⟩ := h e (hmem e he)
    refine hr.imp_of_mem fun {p q} hp hq hpq => ?_
    simp only [Before, (hk p hp).1, (hk q hq).1]
    exact .inr ⟨(hk p hp).2.trans (hk q hq).2.symm, hpq⟩
  · obtain ⟨h1, h2⟩ := (h e (hmem e he)).1 p hp
    obtain ⟨h3, h4⟩ := (h e' (hmem e' he')).1 q hq
    simp only [Before, h1, h3]
    exact .inl (by rw [h2, h4]; exact hlt)

/-- Once the sell stops left are below all prices to come, the loop drains buy stops only, from the lowest up. -/
theorem takeAllTriggered_buys : ∀ (prices : List P) (sb ss : SortedMap P (List β)),
    (∀ price ∈ prices, ∀ e ∈ ss.entries, e.1 < price) →
      ∃ rest, (takeAllTriggered prices (sb, ss)).1 ++ rest = contents sb
  | [], sb, ss, _ => ⟨contents sb, rfl⟩
  | price :: prices, sb, ss, h => by
    have hss : (ss.popMaxWhile fun k => !decide (k < price)) = ([], ss) :=
      SortedMap.popMaxWhile_eq_self fun e he => by simp [h price (List.mem_cons_self ..) e he]
    obtain ⟨rest, hrest⟩ := takeAllTriggered_buys prices (sb.popMinWhile fun k => decide (k ≤ price)).2 ss
      fun x hx => h x (List.mem_cons_of_mem _ hx)
    refine ⟨rest, ?_⟩
    rw [takeAllTriggered, takeTriggered]
    simp only [hss, List.flatMap_nil, List.append_nil]
    rw [List.append_assoc, hrest, popMinWhile_contents]

/-- The order in which the trigger loop takes the orders out. -/
theorem takeAllTriggered_order {low : P} {prices : List P} {sb ss : SortedMap P (List β)}
    (hlow : ∀ price ∈ prices, low < price) (hb : Keyed side stop r .buy sb) (hs : Keyed side stop r .sell ss) :
    (takeAllTriggered (low :: prices) (sb, ss)).1.Pairwise (Before side stop r low) := by
  have hmin : ∀ a c, a ≤ c → decide (c ≤ low) = true → decide (a ≤ low) = true := fun a c hac h => by
    simp only [decide_eq_true_eq] at h ⊢; exact hac.trans h
  have hbuys : ∀ e ∈ (sb.popMinWhile fun k => decide (k ≤ low)).1, e ∈ sb.entries ∧ e.1 ≤ low := fun e he =>
    by
    rw [(SortedMap.popMinWhile_eq hmin).1, List.mem_filter, decide_eq_true_eq] at he
    exact he
  have hsells : ∀ e ∈ (ss.popMaxWhile fun k => !decide (k < low)).1, e ∈ ss.entries := fun e he =>
    List.mem_reverse.1 ((List.takeWhile_prefix _).sublist.subset he)
  have hleft : ∀ price ∈ prices, ∀ e ∈ (ss.popMaxWhile fun k => !decide (k < low)).2.entries, e.1 < price := by
    intro price hp e he
    have hf := SortedMap.find?_eq_some_iff.2 he
    rw [(SortedMap.popMaxWhile_eq fun a c hac h => by
      simp only [Bool.not_eq_true', decide_eq_false_iff_not, not_lt] at h ⊢; exact h.trans hac).2] at hf
    split_ifs at hf with hk
    simp only [Bool.not_eq_true', decide_eq_false_iff_not, not_not] at hk
    exact hk.trans (hlow price hp)
  have hlater : ∀ e ∈ (sb.popMinWhile fun k => decide (k ≤ low)).2.entries, e ∈ sb.entries ∧ low < e.1 := by
    intro e he
    have hf := SortedMap.find?_eq_some_iff.2 he
    rw [(SortedMap.popMinWhile_eq hmin).2] at hf
    split_ifs at hf with hk
    exact ⟨SortedMap.find?_eq_some_iff.1 hf, by simpa using hk⟩
  obtain ⟨rest, hrest⟩ := takeAllTriggered_buys prices (sb.popMinWhile fun k => decide (k ≤ low)).2
    (ss.popMaxWhile fun k => !decide (k < low)).2 hleft
  have hasc := hb.pairwise_buys low
  rw [← popMinWhile_contents sb fun k => decide (k ≤ low), ← hrest, ← List.append_assoc] at hasc
  obtain ⟨hfirst, hsecond, hcross⟩ := List.pairwise_append.1 (List.pairwise_append.1 hasc).1
  rw [takeAllTriggered, takeTriggered]
  refine List.pairwise_append.2 ⟨List.pairwise_append.2 ⟨hfirst, hs.pairwise_sells low _, fun p hp q hq => ?_⟩,
    hsecond, fun p hp q hq => ?_⟩
  · obtain ⟨e, he, hp⟩ := List.mem_flatMap.1 hp
    obtain ⟨e', he', hq⟩ := List.mem_flatMap.1 hq
    obtain ⟨h1, h2⟩ := (hb e (hbuys e he).1).1 p hp
    simp only [Before, h1, ((hs e' (hsells e' he')).1 q hq).1]
    exact h2 ▸ (hbuys e he).2
  · rcases List.mem_append.1 hp with hp | hp
    · exact hcross p hp q hq
    · obtain ⟨e, he, hp⟩ := List.mem_flatMap.1 hp
      have hq' : q ∈ contents (sb.popMinWhile fun k => decide (k ≤ low)).2 := by
        rw [← hrest]; exact List.mem_append_left _ hq
      obtain ⟨e', he', hq'⟩ := List.mem_flatMap.1 hq'
      obtain ⟨h1, h2⟩ := (hb e' (hlater e' he').1).1 q hq'
      simp only [Before, ((hs e (hsells e he)).1 p hp).1, h1]
      exact h2 ▸ (hlater e' he').2

end Drain

/-! ## The invocations of a call -/

theorem Sweep.calls {F : List OrderPtr} {order : OrderPtr} {s s' : MatchState P} (h : Sweep order s s')
    (hI : Inv (order :: F) s.toOrderBook) : s'.matchCalls = s.matchCalls := by
  have : ∀ t, Relation.ReflTransGen (HitStep order) s t → t.matchCalls = s.matchCalls := by
    intro t ht
    induction ht with
    | refl => rfl
    | tail h1 hs ih =>
      obtain ⟨key, maker, rest, hta, rfl⟩ := hs
      exact (hit_effect (hits_inv h1 hI).toBookInv hta).calls.trans ih
  exact this s' h.hits

/-- The activation loop matches its orders in turn, and leaves the stop maps alone. -/
theorem foldlM_activate_frame {s₁ : MatchState P} : ∀ (F : List OrderPtr) (s : MatchState P), Inv F s.toOrderBook →
    F.foldlM activate s = some s₁ →
      (∀ d, s₁.stops d = s.stops d) ∧ s₁.matchCalls.map (·.1) = s.matchCalls.map (·.1) ++ F
  | [], s, _, h => by
    cases h
    exact ⟨fun _ => rfl, by simp⟩
  | order :: F, s, hI, h => by
    obtain ⟨t, ht, hsw⟩ := matchOrder_sweep hI
    have hlog : Inv (order :: F) (s.logMatch order).toOrderBook := hI
    have hp := placeRemainder_effect (hsw.inv hlog)
    obtain ⟨pst, -, -, pcalls, -⟩ := hp.frame
    rw [List.foldlM_cons, activate, ht] at h
    obtain ⟨h1, h2⟩ := foldlM_activate_frame F (t.placeRemainder order) (hp.inv (hsw.inv hlog)) h
    refine ⟨fun d => ((h1 d).trans (pst d)).trans (((hsw.frame hlog).1 d).trans (logMatch_stops s d order)), ?_⟩
    rw [h2, pcalls, hsw.calls hlog]
    simp [logMatch]

end MatchState

/-- The invocations of `processStopOrders` in a call of `addOrder`, with the batch of trades whose prices each is handed
and the state it finds. -/
inductive StopInvocation (order : OrderPtr) (b : OrderBook P) : List (Trade P) → MatchState P → Prop
  | first {s : MatchState P} (hr : (b.heap order).remainingQuantity ≠ 0)
      (hid : b.ordersById.find? (b.heap order).id = none) (hs : (b.heap order).isStopOrder = false)
      (ha : activate (entered order b) order = some s) (ht : s.pendingTrades ≠ []) :
      StopInvocation order b s.pendingTrades s
  | next {batch : List (Trade P)} {s s₁ : MatchState P} (h : StopInvocation order b batch s)
      (hne : (triggerStops (priceSet batch) s).1 ≠ [])
      (ha : (triggerStops (priceSet batch) s).1.foldlM activate (triggerStops (priceSet batch) s).2 = some s₁)
      (hlt : (triggerStops (priceSet batch) s).2.pendingTrades.length < s₁.pendingTrades.length) :
      StopInvocation order b (s₁.pendingTrades.drop (triggerStops (priceSet batch) s).2.pendingTrades.length) s₁

/-- An invocation finds each stop queue as it was before the call, or emptied. -/
theorem StopInvocation.inv {order : OrderPtr} {b : OrderBook P} {batch : List (Trade P)} {s : MatchState P}
    (h : StopInvocation order b batch s) (hI : Inv [] b) (hf : (b.heap order).Fresh) (hfree : ¬ b.Held order)
    (halloc : order < b.nextPtr) :
    Inv [] s.toOrderBook ∧ ∀ d k, s.stopQueue d k = b.stopQueue d k ∨ s.stopQueue d k = [] := by
  induction h with
  | @first s hr hid hs ha ht =>
    have hE := entered_inv hI ⟨⟨hf, UInt32.pos_iff_ne_zero.2 hr⟩, hfree, halloc⟩ hid hs
    have hfold : [order].foldlM activate (entered order b) = some s := by
      rw [List.foldlM_cons]
      exact Option.bind_eq_some_iff.2 ⟨s, ha, rfl⟩
    obtain ⟨s', hs', hI', -⟩ := foldlM_activate [order] (entered order b) hE
    obtain rfl : s = s' := Option.some.inj (hfold.symm.trans hs')
    refine ⟨hI', fun d k => .inl ?_⟩
    unfold OrderBook.stopQueue
    rw [(foldlM_activate_frame [order] (entered order b) hE hfold).1 d]
    cases d <;> rfl
  | @next batch s s₁ _ hne ha hlt ih =>
    obtain ⟨hIs, hq⟩ := ih
    have he := triggerStops_effect (priceSet batch) s
    obtain ⟨s', hs', hI', -⟩ := foldlM_activate _ _ (he.inv hIs)
    obtain rfl : s₁ = s' := Option.some.inj (ha.symm.trans hs')
    refine ⟨hI', fun d k => ?_⟩
    have hst : s₁.stopQueue d k = (triggerStops (priceSet batch) s).2.stopQueue d k := by
      unfold OrderBook.stopQueue
      rw [(foldlM_activate_frame _ _ (he.inv hIs) ha).1 d]
    rw [hst, he.stopQueue]
    split_ifs
    · exact .inr rfl
    · exact hq d k

/-! ## The order of a batch -/

/-- The place of the first trade of the batch that reaches the order's stop price. -/
def firstTrade (batch : List (Trade P)) (o : Order P) : Nat :=
  batch.findIdx fun t => triggeredBy o.side t.price o.stopPrice

/-- A buy stop above some price of the batch, and a sell stop: these two are matched in this order never. -/
def Overtaken (batch : List (Trade P)) (o o' : Order P) : Prop :=
  o.side = .buy ∧ o'.side = .sell ∧ ∃ t ∈ batch, t.price < o.stopPrice

/-- The order in which an invocation of `processStopOrders` matches what its batch triggers. -/
structure ActivationOrder (submitted : List OrderPtr) (batch : List (Trade P)) (s : MatchState P) : Prop where
  triggered : ∀ p, p ∈ (triggerStops (priceSet batch) s).1 ↔
    ∃ d k, p ∈ s.stopQueue d k ∧ reachedBy d batch k = true
  matched : ∃ s₁, (triggerStops (priceSet batch) s).1.foldlM activate (triggerStops (priceSet batch) s).2 = some s₁ ∧
    s₁.matchCalls.map (·.1) = s.matchCalls.map (·.1) ++ (triggerStops (priceSet batch) s).1
  inTime : ∀ p ∈ (triggerStops (priceSet batch) s).1, ∀ q ∈ (triggerStops (priceSet batch) s).1,
    firstTrade batch (s.heap p) < firstTrade batch (s.heap q) → ¬ Overtaken batch (s.heap p) (s.heap q) →
      (triggerStops (priceSet batch) s).1.idxOf p < (triggerStops (priceSet batch) s).1.idxOf q
  overtaken : ∀ p ∈ (triggerStops (priceSet batch) s).1, ∀ q ∈ (triggerStops (priceSet batch) s).1,
    Overtaken batch (s.heap p) (s.heap q) →
      (triggerStops (priceSet batch) s).1.idxOf q < (triggerStops (priceSet batch) s).1.idxOf p
  inTurn : ∀ p ∈ (triggerStops (priceSet batch) s).1, ∀ q ∈ (triggerStops (priceSet batch) s).1,
    (s.heap p).side = (s.heap q).side → (s.heap p).stopPrice = (s.heap q).stopPrice → [p, q].Sublist submitted →
      (triggerStops (priceSet batch) s).1.idxOf p < (triggerStops (priceSet batch) s).1.idxOf q

theorem priceSet_cons {batch : List (Trade P)} {low : P} {prices : List P} (h : priceSet batch = low :: prices) :
    (∀ price ∈ prices, low < price) ∧ (∀ t ∈ batch, low ≤ t.price) ∧ ∃ t ∈ batch, t.price = low := by
  have hsorted : (low :: prices).Pairwise (· < ·) := h ▸ List.pairwise_map.2 (SortedMap.ofKeys _).sorted
  have hmem : ∀ x, x ∈ low :: prices ↔ ∃ t ∈ batch, t.price = x := fun x => by
    rw [← h, priceSet, SortedMap.mem_keys_ofKeys, List.mem_map]
  refine ⟨(List.pairwise_cons.1 hsorted).1, fun t ht => ?_, (hmem low).1 (List.mem_cons_self ..)⟩
  rcases List.mem_cons.1 ((hmem t.price).2 ⟨t, ht, rfl⟩) with heq | hin
  · exact heq.ge
  · exact ((List.pairwise_cons.1 hsorted).1 _ hin).le

theorem idxOf_lt_of_pairwise {α : Type} [DecidableEq α] {R : α → α → Prop} {l : List α} (hR : l.Pairwise R) {p q : α}
    (hp : p ∈ l) (hq : q ∈ l) (hne : p ≠ q) (h : ¬ R q p) : l.idxOf p < l.idxOf q := by
  have hp' := List.idxOf_lt_length_iff.2 hp
  have hq' := List.idxOf_lt_length_iff.2 hq
  by_contra hle
  rcases Nat.lt_or_eq_of_le (Nat.le_of_not_lt hle) with hlt | heq
  · have := List.pairwise_iff_getElem.1 hR _ _ hq' hp' hlt
    rw [List.getElem_idxOf, List.getElem_idxOf] at this
    exact h this
  · exact hne ((List.idxOf_inj hp).1 heq.symm)

/-- Of two orders in activation order, the later one was not reached first, unless it was overtaken. -/
theorem MatchState.Before.firstTrade_le {batch : List (Trade P)} {low : P} (hlow : ∀ t ∈ batch, low ≤ t.price)
    (hin : ∃ t ∈ batch, t.price = low) {heap : OrderPtr → Order P} {r : OrderPtr → OrderPtr → Prop} {p q : OrderPtr}
    (h : Before (fun x => (heap x).side) (fun x => (heap x).stopPrice) r low q p) :
    firstTrade batch (heap q) ≤ firstTrade batch (heap p) ∨ Overtaken batch (heap p) (heap q) := by
  unfold firstTrade Overtaken
  unfold Before at h
  cases hp : (heap p).side <;> cases hq : (heap q).side <;> simp only [hp, hq] at h
  · have hle : (heap q).stopPrice ≤ (heap p).stopPrice := h.elim le_of_lt fun h => h.1.le
    refine .inl (List.findIdx_le_findIdx fun t _ ht => ?_)
    simp only [triggeredBy, decide_eq_true_eq] at ht ⊢
    exact hle.trans ht
  · obtain ⟨t, ht, rfl⟩ := hin
    exact .inr ⟨rfl, rfl, t, ht, h⟩
  · refine .inl (List.findIdx_le_findIdx fun t ht _ => ?_)
    simp only [triggeredBy, decide_eq_true_eq]
    exact h.trans (hlow t ht)
  · have hle : (heap p).stopPrice ≤ (heap q).stopPrice := h.elim le_of_lt fun h => h.1.ge
    refine .inl (List.findIdx_le_findIdx fun t _ ht => ?_)
    simp only [triggeredBy, decide_eq_true_eq] at ht ⊢
    exact ht.trans hle

theorem activationOrder {s : MatchState P} (hI : Inv [] s.toOrderBook)
    (hq : ∀ d k, (s.stopQueue d k).Pairwise (· < ·)) {submitted : List OrderPtr} (hsub : submitted.Pairwise (· < ·))
    (batch : List (Trade P)) : ActivationOrder submitted batch s := by
  have he := triggerStops_effect (priceSet batch) s
  have hkeyed : ∀ d, Keyed (fun x => (s.heap x).side) (fun x => (s.heap x).stopPrice) (· < ·) d (s.stops d) := by
    intro d e hmem
    have hqueue : s.stopQueue d e.1 = e.2 := by
      unfold OrderBook.stopQueue
      rw [SortedMap.find?_eq_some_iff.2 (show (e.1, e.2) ∈ (s.stops d).entries from hmem)]
      rfl
    refine ⟨fun p hp => ?_, hqueue ▸ hq d e.1⟩
    obtain ⟨h1, h2, -⟩ := hI.stop (hqueue ▸ hp)
    exact ⟨h1, h2⟩
  -- the order of the drained list, with the lowest price of the batch
  have horder : ∀ {p q : OrderPtr}, p ∈ (triggerStops (priceSet batch) s).1 → q ∈ (triggerStops (priceSet batch) s).1 →
      p ≠ q → (∀ low, (∀ t ∈ batch, low ≤ t.price) → (∃ t ∈ batch, t.price = low) →
        ¬ Before (fun x => (s.heap x).side) (fun x => (s.heap x).stopPrice) (· < ·) low q p) →
      (triggerStops (priceSet batch) s).1.idxOf p < (triggerStops (priceSet batch) s).1.idxOf q := by
    intro p q hp hq hne hno
    cases hprices : priceSet batch with
    | nil =>
      rw [hprices] at hp
      exact absurd hp List.not_mem_nil
    | cons low prices =>
      obtain ⟨hlt, hlow, hin⟩ := priceSet_cons hprices
      rw [hprices] at hp hq
      exact idxOf_lt_of_pairwise (takeAllTriggered_order hlt (hkeyed .buy) (hkeyed .sell)) hp hq hne (hno low hlow hin)
  refine ⟨fun p => ?_, ?_, fun p hp q hq hlt hno => ?_, fun p hp q hq hov => ?_, fun p hp q hq hside hstop hturn => ?_⟩
  · rw [he.mem]
    have hr : ∀ d k, reached d (priceSet batch) k = reachedBy d batch k := fun d k => by
      rw [Bool.eq_iff_iff, reached_iff, reachedBy_iff]
      simp [priceSet, SortedMap.mem_keys_ofKeys]
    simp only [hr]
  · obtain ⟨s₁, hs₁, -⟩ := foldlM_activate _ _ (he.inv hI)
    refine ⟨s₁, hs₁, ?_⟩
    rw [(foldlM_activate_frame _ _ (he.inv hI) hs₁).2, he.calls]
  · refine horder hp hq (fun h => by rw [h] at hlt; exact lt_irrefl _ hlt) fun low hlow hin hb => ?_
    exact (MatchState.Before.firstTrade_le hlow hin hb).elim (fun hle => absurd hlt (not_lt.2 hle)) hno
  · obtain ⟨hbuy, hsell, t, ht, hprice⟩ := hov
    refine horder hq hp (fun h => by rw [← h, hsell] at hbuy; cases hbuy) fun low hlow hin hb => ?_
    simp only [Before, hbuy, hsell] at hb
    exact absurd (hb.trans (hlow t ht)) (not_le.2 hprice)
  · have hpq : p < q := by
      have := hsub.sublist hturn
      simpa using this
    refine horder hp hq hpq.ne fun low _ _ hb => ?_
    unfold Before at hb
    cases hd : (s.heap q).side <;> simp only [hside, hd, hstop, lt_irrefl, false_or, true_and] at hb <;>
      exact absurd hb (not_lt.2 hpq.le)

/-! ## Whole runs -/

/-- The stop queues of a call: those it found, or emptied. -/
theorem MatchState.Cascade.stopQueues {n : Nat} {F : List OrderPtr} {s s' : MatchState P} (h : Cascade n F s s')
    (hI : Inv F s.toOrderBook) (d : OrderSide) (k : P) : s'.stopQueue d k = s.stopQueue d k ∨ s'.stopQueue d k = [] := by
  have hcongr : ∀ {t t' : MatchState P}, t'.stops d = t.stops d → t'.stopQueue d k = t.stopQueue d k := fun h => by
    unfold OrderBook.stopQueue; rw [h]
  refine (h.invariant (J := fun _ _ t => t.stopQueue d k = s.stopQueue d k ∨ t.stopQueue d k = [])
    (fun _ _ _ _ _ hJ => by rw [hcongr (logMatch_stops ..)]; exact hJ)
    (fun _ _ _ _ _ _ _ _ _ hJ _ he => by rw [hcongr (he.stops d)]; exact hJ)
    (fun _ _ _ _ _ _ hJ _ he => by rw [hcongr (he.frame.1 d)]; exact hJ) (fun _ _ _ _ _ hJ _ he => ?_) hI (.inl rfl)).2
  rw [he.stopQueue]
  split_ifs
  · exact .inr rfl
  · exact hJ

/-- Addresses rise with submission: in the history of the accepted orders, and in every stop queue. -/
structure Rising (r : BookRun P) : Prop where
  accepted : (r.accepted.map (·.1)).Pairwise (· < ·)
  alloc : ∀ e ∈ r.accepted, e.1 < r.book.nextPtr
  queue : ∀ d k, (r.book.stopQueue d k).Pairwise (· < ·)

theorem Rising.addOrder {r : BookRun P} (h : Rising r) (hI : Inv [] r.book) {o : Order P} {out : AddOutcome P}
    (hI' : Inv [] (r.book.alloc o).2) (he : AddEffect (r.book.alloc o).1 (r.book.alloc o).2 out) :
    Rising ⟨out.state.toOrderBook, r.trades ++ out.state.pendingTrades,
      if out.accepted then r.accepted ++ [((r.book.alloc o).1, o)] else r.accepted⟩ := by
  have hcall := he.call hI'
  have hsame : ∀ d k, (r.book.alloc o).2.stopQueue d k = r.book.stopQueue d k := fun d k => by cases d <;> rfl
  refine ⟨?_, fun e hmem => ?_, fun d k => ?_⟩
  · split_ifs
    · rw [List.map_append]
      refine List.pairwise_append.2 ⟨h.accepted, List.pairwise_singleton _ _, fun p hp q hq => ?_⟩
      obtain ⟨e, hmem, rfl⟩ := List.mem_map.1 hp
      rw [List.mem_singleton.1 hq]
      exact h.alloc e hmem
    · exact h.accepted
  · rw [hcall.nextPtr]
    split_ifs at hmem
    · rcases List.mem_append.1 hmem with hmem | hmem
      · exact Nat.lt_succ_of_lt (h.alloc e hmem)
      · rw [List.mem_singleton.1 hmem]
        exact Nat.lt_succ_self _
    · exact Nat.lt_succ_of_lt (h.alloc e hmem)
  · cases he with
    | refused _ => exact hsame d k ▸ h.queue d k
    | stopped ha hid hs =>
      show (((entered _ _).addStopOrder _).stopQueue d k).Pairwise _
      rw [addStopOrder_stopQueue]
      have hq : (entered (r.book.alloc o).1 (r.book.alloc o).2).stopQueue d k = r.book.stopQueue d k := by
        cases d <;> rfl
      rw [hq]
      split_ifs
      · refine List.pairwise_append.2 ⟨h.queue d k, List.pairwise_singleton _ _, fun p hp q hq => ?_⟩
        rw [List.mem_singleton.1 hq]
        exact hI.alloc (.inl (.inr ⟨d, k, hp⟩))
      · exact h.queue d k
    | matched ha hid hs hc =>
      have hq : (entered (r.book.alloc o).1 (r.book.alloc o).2).stopQueue d k = r.book.stopQueue d k := by
        cases d <;> rfl
      rcases hc.stopQueues (entered_inv hI' ha hid hs) d k with heq | heq
      · exact (heq.trans hq) ▸ h.queue d k
      · exact heq ▸ .nil

theorem run_rising (symbol : String) (tickSize : P) {ops : List (BookOp P)} (hfresh : ∀ op ∈ ops, op.Fresh) :
    ∃ r, run symbol tickSize ops = some r ∧ Inv [] r.book ∧ Rising r := by
  refine run_induction symbol tickSize (K := fun _ r => Rising r) hfresh ?_
    (fun _ _ _ _ _ hI hK _ hI' he => hK.addOrder hI hI' he) (fun _ id p r b' hI hK he => ?_) (fun _ _ _ _ hK _ => hK)
  · refine ⟨.nil, fun e he => (by cases he), fun d k => ?_⟩
    cases d <;> exact .nil
  · refine ⟨hK.accepted, fun e hmem => by rw [he.nextPtr]; exact hK.alloc e hmem, fun d k => ?_⟩
    rw [he.stopQueue]
    exact (hK.queue d k).sublist List.erase_sublist

/-- In every call of every run each invocation of `processStopOrders` matches the stops its batch triggers in the order in
which the trades of the batch reached them, but for a buy stop above the lowest of these prices, which comes after the
sell stops; stops of one side and one stop price are matched in the order of their submission. -/
theorem run_activationOrder (symbol : String) (tickSize : P) (ops : List (BookOp P)) (hfresh : ∀ op ∈ ops, op.Fresh) :
    ∃ r, run symbol tickSize ops = some r ∧ ∀ o, o.Fresh → ∀ batch s,
      StopInvocation (r.book.alloc o).1 (r.book.alloc o).2 batch s →
        ActivationOrder (r.accepted.map (·.1)) batch s := by
  obtain ⟨r, hr, hI, hR⟩ := run_rising symbol tickSize hfresh
  refine ⟨r, hr, fun o hf batch s hinv => ?_⟩
  have hself : (r.book.alloc o).2.heap (r.book.alloc o).1 = o := Function.update_self ..
  have hI' : Inv [] (r.book.alloc o).2 := ⟨hI.toBookInv.allocate o, fun _ h => by cases h⟩
  have hfree : ¬ (r.book.alloc o).2.Held (r.book.alloc o).1 := fun hh =>
    absurd (hI.alloc (.inl (show r.book.Held r.book.nextPtr from hh))) (lt_irrefl _)
  obtain ⟨hIs, hq⟩ := hinv.inv hI' (by rw [hself]; exact hf) hfree (Nat.lt_succ_self _)
  refine activationOrder hIs (fun d k => ?_) hR.accepted batch
  rcases hq d k with heq | heq
  · rw [heq]
    cases d
    · exact hR.queue .buy k
    · exact hR.queue .sell k
  · rw [heq]
    exact .nil

theorem run_activationOrder_cascadeOps : ∃ r, run "S" 1 cascadeOps = some r ∧ ∀ o, o.Fresh → ∀ batch s,
    StopInvocation (r.book.alloc o).1 (r.book.alloc o).2 batch s → ActivationOrder (r.accepted.map (·.1)) batch s :=
  run_activationOrder "S" 1 cascadeOps cascadeOps_fresh

/-- Bids at 100 and 98, a buy stop at 99 and a sell stop at 98. -/
def sweptOps : List (BookOp Nat) :=
  [.addOrder (.new "a" .buy 100 1 "S" "m" .limit 0 0), .addOrder (.new "b" .buy 98 1 "S" "m" .limit 0 1),
    .addOrder (.new "s" .buy 0 1 "S" "n" .stop 99 2), .addOrder (.new "t" .sell 0 1 "S" "n" .stop 98 3)]

theorem sweptOps_fresh : ∀ op ∈ sweptOps, op.Fresh := by
  simp [sweptOps, BookOp.Fresh, Order.Fresh, Order.new]

/-- A sell order that takes both bids: its first trade, at 100, reaches the buy stop and its second, at 98, the sell
stop; but the price 98 is looked at first, and the sell stop is matched first. -/
theorem run_activation_overtakes : ∃ r s, run "S" 1 sweptOps = some r ∧
    StopInvocation (r.book.alloc (.new "c" .sell 98 2 "S" "o" .limit 0 4)).1
      (r.book.alloc (.new "c" .sell 98 2 "S" "o" .limit 0 4)).2 s.pendingTrades s ∧
    s.pendingTrades.map (·.price) = [100, 98] ∧
    2 ∈ (triggerStops (priceSet s.pendingTrades) s).1 ∧ 3 ∈ (triggerStops (priceSet s.pendingTrades) s).1 ∧
    firstTrade s.pendingTrades (s.heap 2) < firstTrade s.pendingTrades (s.heap 3) ∧
    (triggerStops (priceSet s.pendingTrades) s).1.idxOf 3 < (triggerStops (priceSet s.pendingTrades) s).1.idxOf 2 := by
  refine ⟨_, _, rfl, .first (by decide) (by decide) (by decide) rfl (by decide), ?_, ?_, ?_, ?_, ?_⟩ <;> decide

end OrderbookGC
