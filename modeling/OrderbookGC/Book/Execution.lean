/-
What a taker gets. The trades of one call of `matchOrder` fill as much of the taker as the opposite side offers at
prices it accepts, go through these prices from the best on, and no other choice of resting orders of the same total
would have been better for it. The choice is the one that takes from the best lots first (`CheapestFirst`), which the
loops reach one trade at a time (`Swept`).
-/
import OrderbookGC.Book.Plain
import OrderbookGC.Book.Depth
import OrderbookGC.Container.Allocation

namespace OrderbookGC

open Container OrderBook MatchState

/-! ## The first sweep of a call -/

/-- The trades of the first call of `matchOrder`, which is the incoming order's: those before the second call. -/
def MatchState.firstSweep {P : Type} [LinearOrder P] (s : MatchState P) : List (Trade P) :=
  match s.matchCalls with
  | _ :: (_, n) :: _ => s.pendingTrades.take n
  | _ => s.pendingTrades

section Calls

variable {P : Type} [LinearOrder P]

theorem hits_calls {F : List OrderPtr} {order : OrderPtr} {s s' : MatchState P}
    (h : Relation.ReflTransGen (HitStep order) s s') (hI : Inv (order :: F) s.toOrderBook) :
    s'.matchCalls = s.matchCalls ∧ s.pendingTrades <+: s'.pendingTrades := by
  induction h with
  | refl => exact ⟨rfl, List.prefix_refl _⟩
  | tail h1 hs ih =>
    obtain ⟨key, maker, rest, ht, rfl⟩ := hs
    have he := hit_effect (hits_inv h1 hI).toBookInv ht
    refine ⟨he.calls.trans ih.1, ih.2.trans ?_⟩
    rw [he.trades]
    exact List.prefix_append _ _

/-- What the rest of a call logs begins where the trades are now, and without a further call there is no further trade. -/
theorem MatchState.Cascade.calls {n : Nat} {F : List OrderPtr} {s s' : MatchState P} (h : Cascade n F s s')
    (hI : Inv F s.toOrderBook) : ∃ calls trades, s'.matchCalls = s.matchCalls ++ calls ∧
      s'.pendingTrades = s.pendingTrades ++ trades ∧ (calls = [] → trades = []) ∧
      ∀ c ∈ calls.head?, c.2 = s.pendingTrades.length := by
  induction h with
  | done _ => exact ⟨[], [], (List.append_nil _).symm, (List.append_nil _).symm, fun _ => rfl, by simp⟩
  | @trigger n s s' _ _ ih =>
    have he := triggerStops_effect (MatchState.newPrices n s) s
    obtain ⟨calls, trades, h1, h2, h3, h4⟩ := ih (he.inv hI)
    rw [he.calls] at h1
    rw [he.trades] at h2 h4
    exact ⟨calls, trades, h1, h2, h3, h4⟩
  | @activate n order F s s₁ s' hsw _ ih =>
    have hI₁ := hsw.inv (s := s.logMatch order) hI
    have hp := placeRemainder_effect hI₁
    obtain ⟨calls, trades, h1, h2, -, -⟩ := ih (hp.inv hI₁)
    obtain ⟨hc, hpre⟩ := hits_calls hsw.hits (s := s.logMatch order) hI
    obtain ⟨-, hpt, -, hpc, -⟩ := hp.frame
    obtain ⟨new, hnew⟩ := hpre
    refine ⟨(order, s.pendingTrades.length) :: calls, new ++ trades, ?_, ?_, by simp, by simp⟩
    · rw [h1, hpc, hc]
      show (s.matchCalls ++ [(order, s.pendingTrades.length)]) ++ calls = _
      rw [List.append_assoc]; rfl
    · rw [h2, hpt, ← hnew, List.append_assoc]; rfl

/-- The first sweep of a call that matches is the sweep of its incoming order. -/
theorem MatchState.Cascade.firstSweep {order : OrderPtr} {b : OrderBook P} {s' : MatchState P}
    (h : Cascade 0 [order] (entered order b) s') (hI : Inv [order] (entered order b).toOrderBook) :
    ∃ s₁, Sweep order ((entered order b).logMatch order) s₁ ∧ s'.firstSweep = s₁.pendingTrades := by
  cases h with
  | @activate _ _ _ _ s₁ _ hsw hrest =>
    have hI₁ := hsw.inv (s := (entered order b).logMatch order) hI
    have hp := placeRemainder_effect hI₁
    obtain ⟨calls, trades, h1, h2, h3, h4⟩ := hrest.calls (hp.inv hI₁)
    obtain ⟨hc, -⟩ := hits_calls hsw.hits (s := (entered order b).logMatch order) hI
    obtain ⟨-, hpt, -, hpc, -⟩ := hp.frame
    refine ⟨s₁, hsw, ?_⟩
    rw [hpc, hc] at h1
    rw [hpt] at h2 h4
    have h1' : s'.matchCalls = (order, 0) :: calls := h1
    unfold MatchState.firstSweep
    rw [h1']
    cases calls with
    | nil => rw [h2, h3 rfl, List.append_nil]
    | cons c calls =>
      have hc : c.2 = s₁.pendingTrades.length := h4 c (by simp)
      show s'.pendingTrades.take c.2 = _
      rw [hc, h2, List.take_left]

end Calls

/-! ## The best execution -/

/-- The taker accepts a price: any price, or one within its limit. -/
def Order.Accepts (o : Order ℚ) (price : ℚ) : Prop := o.orderType = .market ∨ accepts o.side o.price price = true

instance (o : Order ℚ) (price : ℚ) : Decidable (o.Accepts price) := inferInstanceAs (Decidable (_ ∨ _))

/-- The id of the taker's side in a trade. -/
def Trade.party {P : Type} (t : Trade P) : OrderSide → String
  | .buy => t.buyOrderId
  | .sell => t.sellOrderId

/-- The units traded. -/
def volume (trades : List (Trade ℚ)) : ℕ := (trades.map (·.quantity.toNat)).sum

/-- The money that changes hands. -/
def turnover (trades : List (Trade ℚ)) : ℚ := (trades.map fun t => (t.quantity.toNat : ℚ) * t.price).sum

theorem volume_append (l : List (Trade ℚ)) (t : Trade ℚ) : volume (l ++ [t]) = volume l + t.quantity.toNat := by
  simp [volume]

theorem turnover_append (l : List (Trade ℚ)) (t : Trade ℚ) :
    turnover (l ++ [t]) = turnover l + t.quantity.toNat * t.price := by
  simp [turnover]

/-- The first amount of money is no worse than the second for the taker of a side, who pays it or gets it. -/
def NoWorse : OrderSide → ℚ → ℚ → Prop
  | .buy, x, y => x ≤ y
  | .sell, x, y => y ≤ x

namespace OrderBook

/-- What rests on the opposite side, as lots. -/
def lots (b : OrderBook ℚ) (d : OrderSide) : Finset OrderPtr := (b.limitOrders d).toFinset

def size (b : OrderBook ℚ) (p : OrderPtr) : ℕ := (b.heap p).remainingQuantity.toNat

def lotPrice (b : OrderBook ℚ) (p : OrderPtr) : ℚ := (b.heap p).price

/-- What rests on the opposite side at prices an order accepts. -/
def reach (b : OrderBook ℚ) (o : Order ℚ) : ℕ :=
  Allocation.total ((b.lots o.side.opposite).filter fun p => o.Accepts (b.lotPrice p)) b.size

end OrderBook

/-- The trades of a taker against a book are the best it could have. -/
structure BestExecution (b : OrderBook ℚ) (o : Order ℚ) (trades : List (Trade ℚ)) : Prop where
  taker : ∀ t ∈ trades, t.party o.side = o.id
  within : ∀ t ∈ trades, o.Accepts t.price
  volume : volume trades = min o.remainingQuantity.toNat (b.reach o)
  /-- The prices never get better. -/
  ordered : trades.Pairwise fun t t' => ¬ Better o.side.opposite t'.price t.price
  /-- No way to take as much from the resting orders, whatever the taker accepts, is better. -/
  best : ∀ other : OrderPtr → ℕ, (∀ p ∈ b.lots o.side.opposite, other p ≤ b.size p) →
    Allocation.total (b.lots o.side.opposite) other = OrderbookGC.volume trades →
    NoWorse o.side (turnover trades) (Allocation.cost (b.lots o.side.opposite) b.lotPrice other)

/-! ## The middle of a sweep -/

/-- What a sweep has taken of a resting order. -/
def MatchState.taken (s₀ s : MatchState ℚ) (p : OrderPtr) : ℕ :=
  (s₀.heap p).remainingQuantity.toNat - (s.heap p).remainingQuantity.toNat

/-- A sweep of `order` that began in `s₀`, with `lots` on the opposite side, and has made `trades`. -/
structure Swept (order : OrderPtr) (lots : Finset OrderPtr) (s₀ s : MatchState ℚ) (trades : List (Trade ℚ)) : Prop where
  pending : s.pendingTrades = s₀.pendingTrades ++ trades
  static : ∀ p, (s₀.heap p).SameStatic (s.heap p)
  orderType : (s.heap order).orderType = (s₀.heap order).orderType
  left : ∀ p ∈ lots, (s.heap p).remainingQuantity.toNat ≤ (s₀.heap p).remainingQuantity.toNat
  queue : ∀ k, s.queue (s₀.heap order).side.opposite k = remaining s.heap (s₀.queue (s₀.heap order).side.opposite k)
  taker : ∀ t ∈ trades, t.party (s₀.heap order).side = (s₀.heap order).id
  within : ∀ t ∈ trades, (s₀.heap order).Accepts t.price
  total : volume trades = Allocation.total lots (taken s₀ s)
  cost : turnover trades = Allocation.cost lots s₀.lotPrice (taken s₀ s)
  rest : (s₀.heap order).remainingQuantity.toNat = (s.heap order).remainingQuantity.toNat + volume trades
  ordered : trades.Pairwise fun t t' => ¬ Better (s₀.heap order).side.opposite t'.price t.price
  /-- What is better than a price traded at is used up. -/
  exhausted : ∀ t ∈ trades, ∀ p ∈ lots, Better (s₀.heap order).side.opposite (s₀.lotPrice p) t.price →
    (s.heap p).remainingQuantity = 0
  source : ∀ p ∈ lots, taken s₀ s p ≠ 0 → ∃ t ∈ trades, t.price = s₀.lotPrice p

namespace Swept

variable {order maker : OrderPtr} {lots : Finset OrderPtr} {s₀ s s' : MatchState ℚ} {trades : List (Trade ℚ)} {key : ℚ}
  {rest F : List OrderPtr}

theorem start (order : OrderPtr) (lots : Finset OrderPtr) {s₀ : MatchState ℚ} {F : List OrderPtr}
    (hI : Inv (order :: F) s₀.toOrderBook) : Swept order lots s₀ s₀ [] := by
  have hzero : ∀ p, taken s₀ s₀ p = 0 := fun p => Nat.sub_self _
  refine ⟨(List.append_nil _).symm, fun p => .refl _, rfl, fun p _ => le_rfl, fun k => (remaining_queue hI.toBookInv _ k).symm,
    by simp, by simp, ?_, ?_, rfl, .nil, by simp, fun p _ h => absurd (hzero p) h⟩
  · show 0 = ∑ p ∈ lots, taken s₀ s₀ p
    rw [Finset.sum_eq_zero fun p _ => hzero p]
  · show 0 = ∑ p ∈ lots, ((taken s₀ s₀ p : ℕ) : ℚ) * s₀.lotPrice p
    rw [Finset.sum_eq_zero fun p _ => by rw [hzero p, Nat.cast_zero, zero_mul]]

/-- One more trade of the taker. -/
theorem hit (h : Swept order lots s₀ s trades) (hI₀ : Inv (order :: F) s₀.toOrderBook) (hI : Inv (order :: F) s.toOrderBook)
    (hlots : ∀ p, p ∈ lots ↔ ∃ k, p ∈ s₀.queue (s₀.heap order).side.opposite k) (ht : Target order s key maker rest)
    (he : HitEffect order key maker rest s s') :
    Swept order lots s₀ s' (trades ++ [MatchState.tradeOf (s.heap order).side order maker (hitQuantity order maker s) s]) := by
  have hside : (s.heap order).side = (s₀.heap order).side := (h.static order).side
  have hmaker : maker ∈ s₀.queue (s₀.heap order).side.opposite key := by
    have hm : maker ∈ s.queue (s₀.heap order).side.opposite key := by
      rw [← hside, he.makerMem]; exact List.mem_cons_self
    rw [h.queue] at hm
    exact (mem_remaining.1 hm).1
  have hmlot : maker ∈ lots := (hlots maker).2 ⟨key, hmaker⟩
  have hkey : s₀.lotPrice maker = key := (h.static maker).price.symm.trans he.makerPrice
  have hlot : ∀ p ∈ lots, p ≠ order := fun p hp heq => by
    obtain ⟨k, hk⟩ := (hlots p).1 hp
    exact hI₀.flight order List.mem_cons_self (.inl ⟨_, k, heq ▸ hk⟩)
  have htm := he.maker_spec.2.2
  -- only the maker among the lots has less left than before
  have hrem : ∀ p ∈ lots, p ≠ maker → s'.heap p = s.heap p := fun p hp hne => he.heapOther p (hlot p hp) hne
  have hle : ∀ p ∈ lots, (s'.heap p).remainingQuantity.toNat ≤ (s.heap p).remainingQuantity.toNat := fun p hp => by
    by_cases hm : p = maker
    · rw [hm]; omega
    · rw [hrem p hp hm]
  have htaken : ∀ p ∈ lots, taken s₀ s' p = taken s₀ s p + if p = maker then (hitQuantity order maker s).toNat else 0 := by
    intro p hp
    unfold taken
    have h1 := h.left p hp
    by_cases hm : p = maker
    · rw [if_pos hm]
      rw [hm] at h1 ⊢
      omega
    · rw [if_neg hm, hrem p hp hm, Nat.add_zero]
  -- a lot at a better price than the maker's is used up, the maker being on the best level
  have hbest : ∀ p ∈ lots, Better (s₀.heap order).side.opposite (s₀.lotPrice p) key → (s.heap p).remainingQuantity = 0 := by
    intro p hp hb
    by_contra hne
    obtain ⟨k, hk⟩ := (hlots p).1 hp
    have hkp : s₀.lotPrice p = k := (hI₀.rest hk).2.1
    have hq : p ∈ s.queue (s.heap order).side.opposite k := by
      rw [hside, h.queue]
      exact mem_remaining.2 ⟨hk, hne⟩
    have hat := (bestLevel_eq_some_iff.1 ht.best).2 k _ (find?_of_mem_queue hq)
    rw [hkp] at hb
    rw [hside] at hat
    cases hd : (s₀.heap order).side <;> rw [hd] at hb hat
    · exact absurd hb (not_lt.2 (show key ≤ k from hat))
    · exact absurd hb (not_lt.2 (show k ≤ key from hat))
  have hprice : (MatchState.tradeOf (s.heap order).side order maker (hitQuantity order maker s) s).price = key := he.makerPrice
  have hmpos : (s.heap maker).remainingQuantity ≠ 0 := UInt32.pos_iff_ne_zero.1 he.makerLive.remaining
  have hmem : ∀ {Q : Trade ℚ → Prop}, (∀ t ∈ trades, Q t) →
      Q (MatchState.tradeOf (s.heap order).side order maker (hitQuantity order maker s) s) →
      ∀ t ∈ trades ++ [MatchState.tradeOf (s.heap order).side order maker (hitQuantity order maker s) s], Q t := by
    intro Q h1 h2 t hm
    rcases List.mem_append.1 hm with hm | hm
    · exact h1 t hm
    · rw [List.mem_singleton.1 hm]; exact h2
  refine ⟨?_, fun p => (h.static p).trans (he.static p), (he.orderType order).trans h.orderType,
    fun p hp => (hle p hp).trans (h.left p hp), fun k => ?_, hmem h.taker ?_, hmem h.within ?_, ?_, ?_, ?_, ?_,
    hmem (fun t hm p hp hb => ?_) (fun p hp hb => ?_), fun p hp hne => ?_⟩
  · rw [he.trades, h.pending, List.append_assoc]
  · rw [he.remaining hI, h.queue]
    refine remaining_remaining fun p h0 => ?_
    by_cases hm : p = maker
    · exact absurd (hm ▸ h0) hmpos
    · by_cases ho : p = order
      · have := he.taker_spec.2.2
        rw [ho] at h0
        exact absurd h0 (UInt32.pos_iff_ne_zero.1 he.takerLive.remaining)
      · rw [he.heapOther p ho hm, h0]
  · rw [← (h.static order).id, ← hside]
    unfold MatchState.tradeOf Trade.party
    cases (s.heap order).side <;> simp
  · rw [hprice]
    unfold Order.Accepts
    rw [← h.orderType, ← hside, ← (h.static order).price]
    exact ht.accepted
  · rw [volume_append, h.total]
    exact (Allocation.total_add maker _ hmlot htaken).symm
  · rw [turnover_append, h.cost, Allocation.cost_add maker _ hmlot htaken, hprice, hkey]
    rfl
  · have := he.taker_spec.2.2
    rw [volume_append, h.rest]
    show _ = _ + (_ + (hitQuantity order maker s).toNat)
    omega
  · refine List.pairwise_append.2 ⟨h.ordered, List.pairwise_singleton _ _, fun t hm t' hm' hb => ?_⟩
    rw [List.mem_singleton.1 hm', hprice, ← hkey] at hb
    exact hmpos (h.exhausted t hm maker hmlot hb)
  · have h0 := h.exhausted t hm p hp hb
    have := hle p hp
    rw [h0] at this
    rw [← UInt32.toNat_inj]
    simpa using this
  · rw [hprice] at hb
    have h0 := hbest p hp hb
    have := hle p hp
    rw [h0] at this
    rw [← UInt32.toNat_inj]
    simpa using this
  · by_cases hm : p = maker
    · exact ⟨_, List.mem_append_right _ (List.mem_singleton_self _), by rw [hprice, hm, hkey]⟩
    · rw [htaken p hp, if_neg hm, Nat.add_zero] at hne
      obtain ⟨t, h1, h2⟩ := h.source p hp hne
      exact ⟨t, List.mem_append_left _ h1, h2⟩

end Swept

/-- A whole sweep. -/
theorem hits_swept {order : OrderPtr} {F : List OrderPtr} {lots : Finset OrderPtr} {s₀ s : MatchState ℚ}
    (h : Relation.ReflTransGen (HitStep order) s₀ s) (hI : Inv (order :: F) s₀.toOrderBook)
    (hlots : ∀ p, p ∈ lots ↔ ∃ k, p ∈ s₀.queue (s₀.heap order).side.opposite k) :
    ∃ trades, Swept order lots s₀ s trades := by
  induction h with
  | refl => exact ⟨[], .start order lots hI⟩
  | tail h1 hs ih =>
    obtain ⟨trades, hS⟩ := ih
    obtain ⟨key, maker, rest, ht, rfl⟩ := hs
    have hI₁ := hits_inv h1 hI
    exact ⟨_, hS.hit hI hI₁ hlots ht (hit_effect hI₁.toBookInv ht)⟩

/-! ## The end of a sweep -/

/-- A price of the opposite side as a cost: what a seller gets counts negatively. -/
def costOf : OrderSide → ℚ → ℚ
  | .buy, x => -x
  | .sell, x => x

theorem better_iff (d : OrderSide) (k l : ℚ) : Better d k l ↔ costOf d k < costOf d l := by
  cases d
  · exact neg_lt_neg_iff.symm
  · exact Iff.rfl

namespace Swept

variable {order : OrderPtr} {lots : Finset OrderPtr} {s₀ s : MatchState ℚ} {trades : List (Trade ℚ)} {F : List OrderPtr}

/-- A sweep takes from the best lots first. -/
theorem cheapestFirst (h : Swept order lots s₀ s trades) :
    ∃ cut, Allocation.CheapestFirst lots (fun p => costOf (s₀.heap order).side.opposite (s₀.lotPrice p)) s₀.size
      (taken s₀ s) cut := by
  rcases List.eq_nil_or_concat trades with rfl | ⟨init, last, rfl⟩
  · have hzero : ∀ p ∈ lots, taken s₀ s p = 0 := fun p hp => by
      by_contra hne
      obtain ⟨t, ht, -⟩ := h.source p hp hne
      cases ht
    exact Allocation.CheapestFirst.of_none hzero
  · rw [List.concat_eq_append] at h
    refine ⟨costOf (s₀.heap order).side.opposite last.price, fun p hp hlt => ?_, fun p hp hlt => ?_⟩
    · have h0 := h.exhausted last (List.mem_append_right _ (List.mem_singleton_self _)) p hp ((better_iff ..).2 hlt)
      unfold taken size
      rw [h0]; rfl
    · by_contra hne
      obtain ⟨t, ht, hp'⟩ := h.source p hp hne
      rw [← hp', ← better_iff] at hlt
      rcases List.mem_append.1 ht with ht | ht
      · exact (List.pairwise_append.1 h.ordered).2.2 t ht last (List.mem_singleton_self _) hlt
      · rw [List.mem_singleton.1 ht] at hlt
        exact better_irrefl _ _ hlt

/-- A finished sweep has used up its taker, or all that the taker accepts. -/
theorem volume_eq (h : Swept order lots s₀ s trades) (hI₀ : Inv (order :: F) s₀.toOrderBook)
    (hI : Inv (order :: F) s.toOrderBook) (hlots : ∀ p, p ∈ lots ↔ ∃ k, p ∈ s₀.queue (s₀.heap order).side.opposite k)
    (hdone : ∀ key maker rest, ¬ Target order s key maker rest) :
    volume trades = min (s₀.heap order).remainingQuantity.toNat
      (Allocation.total (lots.filter fun p => (s₀.heap order).Accepts (s₀.lotPrice p)) s₀.size) := by
  have hnone : ∀ p ∈ lots, ¬ (s₀.heap order).Accepts (s₀.lotPrice p) → taken s₀ s p = 0 := fun p hp hno => by
    by_contra hne
    obtain ⟨t, ht, hprice⟩ := h.source p hp hne
    exact hno (hprice ▸ h.within t ht)
  have hrest := h.rest
  by_cases h0 : (s.heap order).remainingQuantity = 0
  · have hle : Allocation.total lots (taken s₀ s) ≤ Allocation.total
        (lots.filter fun p => (s₀.heap order).Accepts (s₀.lotPrice p)) s₀.size :=
      Allocation.total_le_of_part _ (fun p _ => Nat.sub_le _ _) hnone
    rw [← h.total] at hle
    rw [h0] at hrest
    have hrest : (s₀.heap order).remainingQuantity.toNat = volume trades := by simpa using hrest
    rw [hrest]
    exact (Nat.min_eq_left hle).symm
  · -- what is left of the taker finds nothing it accepts
    have hwhole : ∀ p ∈ lots, (s₀.heap order).Accepts (s₀.lotPrice p) → taken s₀ s p = s₀.size p := fun p hp hacc => by
      have hzero : (s.heap p).remainingQuantity = 0 := by
        by_contra hne
        obtain ⟨k, hk⟩ := (hlots p).1 hp
        have hq : p ∈ s.queue (s.heap order).side.opposite k := by
          rw [(h.static order).side, h.queue]
          exact mem_remaining.2 ⟨hk, hne⟩
        obtain ⟨key, maker, rest, ht⟩ := exists_target hI.toBookInv (UInt32.pos_iff_ne_zero.2 h0)
          (List.ne_nil_of_mem hq) (by
            unfold Order.Accepts lotPrice at hacc
            rw [h.orderType, (h.static order).side, (h.static order).price, ← (hI₀.rest hk).2.1]
            exact hacc)
        exact hdone key maker rest ht
      unfold taken size
      rw [hzero]; rfl
    rw [← Allocation.total_eq_of_whole _ hwhole hnone, ← h.total]
    omega

/-- A finished sweep is the best execution of its taker. -/
theorem noWorse (h : Swept order lots s₀ s trades) (other : OrderPtr → ℕ) (hsize : ∀ p ∈ lots, other p ≤ s₀.size p)
    (htotal : Allocation.total lots other = volume trades) :
    NoWorse (s₀.heap order).side (turnover trades) (Allocation.cost lots s₀.lotPrice other) := by
  obtain ⟨cut, hcut⟩ := h.cheapestFirst
  rw [h.cost]
  rw [h.total] at htotal
  cases hd : (s₀.heap order).side
  · rw [hd] at hcut
    exact hcut.cost_le hsize htotal
  · rw [hd] at hcut
    exact hcut.le_cost hsize htotal

end Swept

/-! ## Runs -/

theorem AddEffect.bestExecution {b : OrderBook ℚ} {o : Order ℚ} {out : AddOutcome ℚ}
    (he : AddEffect (b.alloc o).1 (b.alloc o).2 out) (hI : Inv [] b) (hI' : Inv [] (b.alloc o).2)
    (hacc : out.accepted = true) (hstop : o.isStopOrder = false) : BestExecution b o out.state.firstSweep := by
  have hself : (b.alloc o).2.heap (b.alloc o).1 = o := Function.update_self ..
  cases he with
  | refused _ => cases hacc
  | stopped _ _ hs => rw [hself, hstop] at hs; cases hs
  | @matched s' ha hid hs hc =>
    have hE := entered_inv hI' ha hid hs
    obtain ⟨s₁, hsw, hfirst⟩ := hc.firstSweep hE
    -- the lots are those of the book before the object was made
    have hlots : ∀ p, p ∈ b.lots o.side.opposite ↔ ∃ k, p ∈ ((entered (b.alloc o).1 (b.alloc o).2).logMatch
        (b.alloc o).1).queue (((entered (b.alloc o).1 (b.alloc o).2).logMatch (b.alloc o).1).heap
          (b.alloc o).1).side.opposite k := fun p => by
      have hside : (((entered (b.alloc o).1 (b.alloc o).2).logMatch (b.alloc o).1).heap (b.alloc o).1).side = o.side :=
        congrArg Order.side hself
      unfold OrderBook.lots
      rw [List.mem_toFinset, mem_limitOrders hI, hside]
      exact exists_congr fun k => by cases o.side <;> rfl
    have hheap : ∀ p ∈ b.lots o.side.opposite,
        ((entered (b.alloc o).1 (b.alloc o).2).logMatch (b.alloc o).1).heap p = b.heap p := fun p hp => by
      unfold OrderBook.lots at hp
      rw [List.mem_toFinset, mem_limitOrders hI] at hp
      obtain ⟨k, hk⟩ := hp
      exact Function.update_of_ne (ne_of_lt (hI.alloc (.inl (.inl ⟨_, k, hk⟩)))) _ _
    have htaker : ((entered (b.alloc o).1 (b.alloc o).2).logMatch (b.alloc o).1).heap (b.alloc o).1 = o := hself
    obtain ⟨trades, hS⟩ := hits_swept hsw.hits (F := []) hE hlots
    have hpending : s₁.pendingTrades = trades := hS.pending
    have hvolume := hS.volume_eq (F := []) hE (hsw.inv hE) hlots hsw.done
    have hbest := hS.noWorse
    have h1 := hS.taker
    have h2 := hS.within
    have h3 := hS.ordered
    rw [htaker] at h1 h2 h3 hvolume
    simp only [htaker] at hbest
    rw [hfirst, hpending]
    refine ⟨h1, h2, hvolume.trans ?_, h3, fun other hsize htotal => ?_⟩
    · unfold OrderBook.reach Allocation.total size lotPrice
      rw [Finset.filter_congr fun p hp => by rw [hheap p hp]]
      exact congrArg _ (Finset.sum_congr rfl fun p hp => by rw [hheap p (Finset.mem_filter.1 hp).1])
    · have := hbest other (fun p hp => by unfold size; rw [hheap p hp]; exact hsize p hp) htotal
      unfold Allocation.cost lotPrice at this ⊢
      rwa [Finset.sum_congr rfl fun p hp => by rw [hheap p hp]] at this

/-- After every run, an order that is accepted and is no stop order is executed at once as well as it can be. -/
theorem addOrder_bestExecution (symbol : String) (tickSize : ℚ) (ops : List (BookOp ℚ)) (hfresh : ∀ op ∈ ops, op.Fresh)
    (o : Order ℚ) (ho : o.Fresh) :
    ∃ r out, run symbol tickSize ops = some r ∧ addOrder (some (r.book.alloc o).1) (r.book.alloc o).2 = some out ∧
      (out.accepted = true → o.isStopOrder = false → BestExecution r.book o out.state.firstSweep) := by
  obtain ⟨r, hr, hI⟩ := run_inv symbol tickSize hfresh
  obtain ⟨hI', out, hout, he⟩ := alloc_addOrder hI ho
  exact ⟨r, out, hr, hout, fun hacc hstop => he.bestExecution hI hI' hacc hstop⟩

/-- Two sell orders at 100 and 101 and an untriggered stop. -/
def offerOps : List (BookOp ℚ) :=
  [.addOrder (.new "a" .sell 101 5 "S" "m" .limit 0 0), .addOrder (.new "b" .sell 100 4 "S" "m" .limit 0 1),
    .addOrder (.new "s" .buy 0 3 "S" "n" .stop 101 2)]

/-- A buyer of 6 up to 101 takes 4 units at 100 and 2 at 101, and no way to buy 6 units is cheaper. -/
theorem addOrder_bestExecution_offerOps : ∃ r out, run "S" 1 offerOps = some r ∧
    addOrder (some (r.book.alloc (.new "c" .buy 101 6 "S" "o" .limit 0 3)).1)
      (r.book.alloc (.new "c" .buy 101 6 "S" "o" .limit 0 3)).2 = some out ∧
    BestExecution r.book (.new "c" .buy 101 6 "S" "o" .limit 0 3) out.state.firstSweep := by
  obtain ⟨r, out, hr, hout, h⟩ := addOrder_bestExecution "S" 1 offerOps
    (by simp [offerOps, BookOp.Fresh, Order.Fresh, Order.new]) (.new "c" .buy 101 6 "S" "o" .limit 0 3) (.inl rfl)
  have hacc : ((run "S" 1 offerOps).bind fun r => (addOrder (some (r.book.alloc (.new "c" .buy 101 6 "S" "o" .limit 0 3)).1)
      (r.book.alloc (.new "c" .buy 101 6 "S" "o" .limit 0 3)).2).map (·.accepted)) = some true := by decide +kernel
  rw [hr, Option.bind_some, hout, Option.map_some, Option.some.injEq] at hacc
  exact ⟨r, out, hr, hout, h hacc rfl⟩

end OrderbookGC
