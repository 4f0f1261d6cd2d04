/-
The depth queries. A level of a side is a price at which live limit orders rest; a query lists the
best of them, each with the sum and the number of its orders. The sum is a `uint32_t`, so what is
listed is the true sum modulo 2^32: a query is exact when none of the levels it lists holds more.
-/
import OrderbookGC.Book.Quotes
import OrderbookGC.Book.Safety
import Mathlib.Data.Finset.Dedup
import Mathlib.Data.Finset.Card

namespace OrderbookGC

open Container OrderBook

namespace OrderBook

variable (b : OrderBook ℚ)

/-! ## The queries -/

/-- The loops of `calculatePriceLevels`, over the levels from the best on. -/
def levelLoop (depth : Int) : Int → List (ℚ × List OrderPtr) → List PriceLevel
  | _, [] => []
  | count, e :: rest => if count < depth then b.priceLevel e :: levelLoop depth (count + 1) rest else []

/-- The levels of a side from the best on: the bids downwards, the asks upwards. -/
def ladder : OrderSide → List (ℚ × List OrderPtr)
  | .buy => b.bids.entries.reverse
  | .sell => b.asks.entries

/-- `getBidLevels` and `getAskLevels` for an `int`. -/
def calculatePriceLevels (d : OrderSide) (depth : Int) : List PriceLevel := b.levelLoop depth 0 (b.ladder d)

def getBestPrice (d : OrderSide) : ℚ :=
  match b.bestLevel d with
  | some (k, _) => k
  | none => 0

/-- The volume of the best level, summed in a `uint32_t`. -/
def getBestVolume (d : OrderSide) : ℚ :=
  match b.bestLevel d with
  | some (_, q) => ((q.map fun p => (b.heap p).remainingQuantity).sum.toNat : ℚ)
  | none => 0

def getBestBidPrice : ℚ := b.getBestPrice .buy

def getBestAskPrice : ℚ := b.getBestPrice .sell

def getBestBidVolume : ℚ := b.getBestVolume .buy

def getBestAskVolume : ℚ := b.getBestVolume .sell

theorem levelLoop_eq (depth : Int) : ∀ (l : List (ℚ × List OrderPtr)) (count : Int),
    b.levelLoop depth count l = (l.take (depth - count).toNat).map b.priceLevel
  | [], count => by rw [List.take_nil]; rfl
  | e :: rest, count => by
    unfold levelLoop
    by_cases h : count < depth
    · obtain ⟨n, hn⟩ : ∃ n : Nat, (depth - count).toNat = n + 1 := ⟨(depth - count).toNat - 1, by omega⟩
      rw [if_pos h, levelLoop_eq depth rest, hn, List.take_succ_cons, List.map_cons]
      congr 3
      omega
    · rw [if_neg h, show (depth - count).toNat = 0 by omega]
      rfl

theorem calculatePriceLevels_eq (d : OrderSide) (depth : Int) :
    b.calculatePriceLevels d depth = ((b.ladder d).take depth.toNat).map b.priceLevel := by
  unfold calculatePriceLevels
  rw [levelLoop_eq, sub_zero]

/-- The snapshots of the server ask for a positive depth. -/
theorem getLevels_eq (depth : Nat) : b.getBidLevels depth = b.calculatePriceLevels .buy depth ∧
    b.getAskLevels depth = b.calculatePriceLevels .sell depth := by
  rw [calculatePriceLevels_eq, calculatePriceLevels_eq]
  exact ⟨rfl, rfl⟩

/-! ## What they should list -/

/-- The live limit orders of a side. -/
def limitOrders (d : OrderSide) : List OrderPtr :=
  b.heldOrders.filter fun p => (b.heap p).orderType = .limit ∧ (b.heap p).side = d

def limitOrdersAt (d : OrderSide) (k : ℚ) : List OrderPtr := (b.limitOrders d).filter fun p => (b.heap p).price = k

/-- The prices at which live limit orders rest. -/
def limitPrices (d : OrderSide) : Finset ℚ := ((b.limitOrders d).map fun p => (b.heap p).price).toFinset

/-- What rests at a price, as a number. -/
def volumeAt (d : OrderSide) (k : ℚ) : Nat := ((b.limitOrdersAt d k).map fun p => (b.heap p).remainingQuantity.toNat).sum

/-- The first price is the better one for a taker. -/
def Better : OrderSide → ℚ → ℚ → Prop
  | .buy, k, l => l < k
  | .sell, k, l => k < l

instance (d : OrderSide) : DecidableRel (Better d) := fun k l =>
  match d with
  | .buy => inferInstanceAs (Decidable (l < k))
  | .sell => inferInstanceAs (Decidable (k < l))

/-- The list a query of a side returns is exact. -/
structure DepthExact (d : OrderSide) (depth : Int) (levels : List PriceLevel) : Prop where
  length : levels.length = min (max depth 0).toNat (b.limitPrices d).card
  sorted : (levels.map (·.price)).Pairwise (Better d)
  best : ∀ l ∈ levels, l.price ∈ b.limitPrices d ∧ ∀ k ∈ b.limitPrices d, k ∉ levels.map (·.price) → Better d l.price k
  quantity : ∀ l ∈ levels, l.quantity.toNat = b.volumeAt d l.price
  orderCount : ∀ l ∈ levels, l.orderCount = (b.limitOrdersAt d l.price).length

/-- The best price and volume of a side agree with the first level of every list of a positive depth. -/
def BestAgrees (d : OrderSide) (price volume : ℚ) : Prop :=
  ∀ depth : Int, 0 < depth →
    match (b.calculatePriceLevels d depth).head? with
    | some l => price = l.price ∧ volume = (l.quantity.toNat : ℚ)
    | none => price = 0 ∧ volume = 0

/-- The price is among the `depth` best ones of the side. -/
def Listed (d : OrderSide) (depth : Int) (k : ℚ) : Prop :=
  k ∈ b.limitPrices d ∧ (((b.limitPrices d).filter fun l => Better d l k).card : Int) < depth

end OrderBook

/-! ## Lists in order -/

theorem toNat_sum (l : List UInt32) : l.sum.toNat = (l.map UInt32.toNat).sum % 2 ^ 32 := by
  induction l with
  | nil => rfl
  | cons q l ih =>
    rw [List.sum_cons, List.map_cons, List.sum_cons, UInt32.toNat_add, ih]
    omega

/-- In a list in order, the elements before one are those that come before it in the order. -/
theorem mem_take_iff {α : Type} {R : α → α → Prop} [DecidableRel R] (hirr : ∀ a, ¬ R a a) (hasymm : ∀ a b, R a b → ¬ R b a)
    {a : α} : ∀ {l : List α}, l.Pairwise R → ∀ n : Nat, a ∈ l.take n ↔ a ∈ l ∧ (l.filter fun x => R x a).length < n
  | [], _, n => by simp
  | x :: l, h, 0 => by simp
  | x :: l, h, n + 1 => by
    obtain ⟨hx, hl⟩ := List.pairwise_cons.1 h
    rw [List.take_succ_cons, List.mem_cons, List.mem_cons, mem_take_iff hirr hasymm hl]
    by_cases hax : a = x
    · subst hax
      have hnone : l.filter (fun y => R y a) = [] :=
        List.filter_eq_nil_iff.2 fun y hy => by simpa using hasymm a y (hx y hy)
      simp [hirr, hnone]
    · simp only [hax, false_or]
      refine and_congr_right fun ha => ?_
      rw [List.filter_cons_of_pos (by simpa using hx a ha), List.length_cons]
      omega

theorem better_irrefl (d : OrderSide) (k : ℚ) : ¬ Better d k k := by cases d <;> exact lt_irrefl k

theorem better_asymm (d : OrderSide) (k l : ℚ) (h : Better d k l) : ¬ Better d l k := by
  cases d
  · exact lt_asymm (show l < k from h)
  · exact lt_asymm (show k < l from h)

/-! ## The levels of a book at rest -/

namespace OrderBook

variable {b : OrderBook ℚ} {d : OrderSide}

theorem ladder_sorted (b : OrderBook ℚ) (d : OrderSide) : (b.ladder d).Pairwise fun e f => Better d e.1 f.1 := by
  cases d
  · exact List.pairwise_reverse.2 b.bids.sorted
  · exact b.asks.sorted

theorem prices_sorted (b : OrderBook ℚ) (d : OrderSide) : ((b.ladder d).map (·.1)).Pairwise (Better d) :=
  List.pairwise_map.2 (b.ladder_sorted d)

theorem prices_nodup (b : OrderBook ℚ) (d : OrderSide) : ((b.ladder d).map (·.1)).Nodup := by
  refine (b.prices_sorted d).imp fun {k l} h => ?_
  rintro rfl
  exact better_irrefl d k h

theorem mem_ladder {e : ℚ × List OrderPtr} : e ∈ b.ladder d ↔ (b.levels d).find? e.1 = some e.2 := by
  rw [SortedMap.find?_eq_some_iff]
  cases d
  · exact List.mem_reverse
  · exact Iff.rfl

/-- The limit orders of a side are those in its price levels. -/
theorem mem_limitOrders (hI : Inv [] b) {p : OrderPtr} : p ∈ b.limitOrders d ↔ ∃ k, p ∈ b.queue d k := by
  unfold limitOrders
  rw [List.mem_filter, mem_heldOrders, decide_eq_true_iff]
  constructor
  · rintro ⟨⟨e, k, hp⟩ | ⟨e, k, hp⟩, hty, hside⟩
    · obtain ⟨he, -, -⟩ := hI.rest hp
      rw [← hside, he]
      exact ⟨k, hp⟩
    · obtain ⟨-, -, hstop⟩ := hI.stop hp
      rw [Order.isStopOrder, hty] at hstop
      cases hstop
  · rintro ⟨k, hp⟩
    obtain ⟨hside, -, hty⟩ := hI.rest hp
    exact ⟨.inl ⟨d, k, hp⟩, hty, hside⟩

/-- The limit orders at a price are those of its level, in some order. -/
theorem limitOrdersAt_perm (hI : Inv [] b) (k : ℚ) : (b.limitOrdersAt d k).Perm (b.queue d k) := by
  have hnodup : (b.limitOrdersAt d k).Nodup := (hI.nodup_heldOrders.filter _).filter _
  refine (List.perm_ext_iff_of_nodup hnodup (hI.nodup d k)).2 fun p => ?_
  unfold limitOrdersAt
  rw [List.mem_filter, mem_limitOrders hI, decide_eq_true_iff]
  constructor
  · rintro ⟨⟨l, hp⟩, hk⟩
    rw [← hk, (hI.rest hp).2.1]
    exact hp
  · intro hp
    exact ⟨⟨k, hp⟩, (hI.rest hp).2.1⟩

theorem limitPrices_eq (hI : Inv [] b) : b.limitPrices d = ((b.ladder d).map (·.1)).toFinset := by
  ext k
  unfold limitPrices
  rw [List.mem_toFinset, List.mem_toFinset, List.mem_map, List.mem_map]
  constructor
  · rintro ⟨p, hp, rfl⟩
    obtain ⟨l, hl⟩ := (mem_limitOrders hI).1 hp
    rw [(hI.rest hl).2.1]
    exact ⟨(l, b.queue d l), mem_ladder.2 (find?_of_mem_queue hl), rfl⟩
  · rintro ⟨e, he, rfl⟩
    obtain ⟨p, rest, -, hq⟩ := hI.find?_eq_queue (mem_ladder.1 he)
    have hp : p ∈ b.queue d e.1 := by rw [hq]; exact List.mem_cons_self ..
    exact ⟨p, (mem_limitOrders hI).2 ⟨_, hp⟩, (hI.rest hp).2.1⟩

theorem card_limitPrices (hI : Inv [] b) : (b.limitPrices d).card = (b.ladder d).length := by
  rw [limitPrices_eq hI, List.toFinset_card_of_nodup (b.prices_nodup d), List.length_map]

/-- The listed prices are those with fewer than `depth` better ones. -/
theorem listed_iff (hI : Inv [] b) {depth : Int} {k : ℚ} :
    b.Listed d depth k ↔ k ∈ ((b.ladder d).map (·.1)).take depth.toNat := by
  rw [mem_take_iff (better_irrefl d) (better_asymm d) (b.prices_sorted d)]
  have hcard : ((b.limitPrices d).filter fun l => Better d l k).card =
      (((b.ladder d).map (·.1)).filter fun l => Better d l k).length := by
    rw [← List.toFinset_card_of_nodup ((b.prices_nodup d).filter _), limitPrices_eq hI]
    congr 1
    ext l
    simp only [Finset.mem_filter, List.mem_toFinset, List.mem_filter, decide_eq_true_eq]
  unfold Listed
  rw [hcard, limitPrices_eq hI, List.mem_toFinset]
  exact and_congr_right fun _ => by omega

theorem volumeAt_eq (hI : Inv [] b) (k : ℚ) :
    b.volumeAt d k = ((b.queue d k).map fun p => (b.heap p).remainingQuantity.toNat).sum :=
  ((limitOrdersAt_perm hI k).map _).sum_eq

/-- A listed quantity is the volume at its price modulo 2^32. -/
theorem priceLevel_quantity (hI : Inv [] b) {e : ℚ × List OrderPtr} (he : e ∈ b.ladder d) :
    (b.priceLevel e).quantity.toNat = b.volumeAt d e.1 % 2 ^ 32 := by
  rw [volumeAt_eq hI, queue_eq_of_find? (mem_ladder.1 he)]
  unfold priceLevel
  rw [toNat_sum, List.map_map]
  rfl

/-! ## Queries of a book at rest -/

theorem map_price_priceLevel (b : OrderBook ℚ) (l : List (ℚ × List OrderPtr)) :
    (l.map b.priceLevel).map (·.price) = l.map (·.1) := by
  rw [List.map_map]
  rfl

/-- Everything about a list but its quantities is exact, and these are when none of the volumes it lists reaches 2^32. -/
theorem depthExact_iff (hI : Inv [] b) {depth : Int} :
    b.DepthExact d depth (b.calculatePriceLevels d depth) ↔ ∀ k, b.Listed d depth k → b.volumeAt d k < 2 ^ 32 := by
  have hmem : ∀ l ∈ b.calculatePriceLevels d depth, ∃ e ∈ b.ladder d, b.Listed d depth e.1 ∧ b.priceLevel e = l := by
    intro l hl
    rw [calculatePriceLevels_eq, List.mem_map] at hl
    obtain ⟨e, he, rfl⟩ := hl
    refine ⟨e, List.mem_of_mem_take he, ?_, rfl⟩
    rw [listed_iff hI, ← List.map_take]
    exact List.mem_map_of_mem he
  have hprices : (b.calculatePriceLevels d depth).map (·.price) = ((b.ladder d).map (·.1)).take depth.toNat := by
    rw [calculatePriceLevels_eq, map_price_priceLevel, List.map_take]
  constructor
  · intro h k hk
    have hk' := hk
    rw [listed_iff hI, ← hprices, List.mem_map] at hk'
    obtain ⟨l, hl, rfl⟩ := hk'
    rw [← h.quantity l hl]
    exact UInt32.toNat_lt_size _
  · intro h
    refine ⟨?_, ?_, fun l hl => ?_, fun l hl => ?_, fun l hl => ?_⟩
    · rw [calculatePriceLevels_eq, List.length_map, List.length_take, card_limitPrices hI]
      omega
    · rw [hprices]
      exact (b.prices_sorted d).take
    · obtain ⟨e, he, hlisted, rfl⟩ := hmem l hl
      refine ⟨hlisted.1, fun k hk hno => ?_⟩
      -- a price that is not listed comes after the listed ones
      rw [hprices] at hno
      rw [limitPrices_eq hI, List.mem_toFinset, ← List.take_append_drop depth.toNat ((b.ladder d).map (·.1)),
        List.mem_append] at hk
      have hsorted := b.prices_sorted d
      rw [← List.take_append_drop depth.toNat ((b.ladder d).map (·.1)), List.pairwise_append] at hsorted
      exact hsorted.2.2 _ ((listed_iff hI).1 hlisted) k (hk.resolve_left hno)
    · obtain ⟨e, he, hlisted, rfl⟩ := hmem l hl
      rw [priceLevel_quantity hI he]
      exact Nat.mod_eq_of_lt (h _ hlisted)
    · obtain ⟨e, he, -, rfl⟩ := hmem l hl
      show e.2.length = (b.limitOrdersAt d e.1).length
      rw [(limitOrdersAt_perm hI e.1).length_eq, queue_eq_of_find? (mem_ladder.1 he)]

/-- The best level of a side is the first of its ladder. -/
theorem bestLevel_eq_head? (b : OrderBook ℚ) (d : OrderSide) : b.bestLevel d = (b.ladder d).head? := by
  cases d
  · exact (List.head?_reverse ..).symm
  · rfl

theorem bestAgrees (b : OrderBook ℚ) (d : OrderSide) : b.BestAgrees d (b.getBestPrice d) (b.getBestVolume d) := by
  intro depth hdepth
  unfold getBestPrice getBestVolume
  obtain ⟨n, hn⟩ : ∃ n : Nat, depth.toNat = n + 1 := ⟨depth.toNat - 1, by omega⟩
  rw [calculatePriceLevels_eq, bestLevel_eq_head?, hn]
  cases b.ladder d with
  | nil => exact ⟨rfl, rfl⟩
  | cons e rest => exact ⟨rfl, rfl⟩

/-- What the depth queries of a book should return, for a depth. -/
structure QueriesExact (b : OrderBook ℚ) (depth : Int) : Prop where
  bids : b.DepthExact .buy depth (b.calculatePriceLevels .buy depth)
  asks : b.DepthExact .sell depth (b.calculatePriceLevels .sell depth)
  bestBid : b.BestAgrees .buy b.getBestBidPrice b.getBestBidVolume
  bestAsk : b.BestAgrees .sell b.getBestAskPrice b.getBestAskVolume

theorem queriesExact_iff (hI : Inv [] b) {depth : Int} :
    b.QueriesExact depth ↔ ∀ d k, b.Listed d depth k → b.volumeAt d k < 2 ^ 32 := by
  constructor
  · rintro h (_ | _)
    · exact (depthExact_iff hI).1 h.bids
    · exact (depthExact_iff hI).1 h.asks
  · intro h
    exact ⟨(depthExact_iff hI).2 (h .buy), (depthExact_iff hI).2 (h .sell), b.bestAgrees .buy, b.bestAgrees .sell⟩

end OrderBook

/-! ## Runs -/

/-- Two buyers at 100 who together want 2^32 units, and a seller at 101. -/
def wrapOps : List (BookOp ℚ) :=
  [.addOrder (.new "a" .buy 100 4294967295 "S" "m" .limit 0 0), .addOrder (.new "b" .buy 100 1 "S" "n" .limit 0 1),
    .addOrder (.new "c" .sell 101 7 "S" "m" .limit 0 2)]

end OrderbookGC
