/-
Prices on the tick. The price of a submitted order is the multiple of the tick size nearest to the price in the message
when that is a multiple already, or far enough from one for `isValidPrice` to tell; a price within the epsilon of a
multiple is booked as it came (`Canonical`). On a side filled with canonical prices under one tick size, across restarts,
two levels are at least a tick apart.
-/
import OrderbookGC.Server.Limit

namespace OrderbookGC

open Container OrderBook MatchState

namespace Server

theorem submittedOrder_price (env : Env) {m : OrderSubmitMessage} (hpr : m.orderType.Priced) (tickSize : ℚ) :
    (submittedOrder env m tickSize).price = adjustPrice tickSize m.price := by
  have hpr : m.orderType = .limit ∨ m.orderType = .stopLimit := hpr
  unfold submittedOrder
  rcases hpr with hpr | hpr <;> simp [hpr, Order.new]

/-- The orders on a side of a book were submitted with canonical prices under the tick size. -/
def FilledUnder (sv : Server) (b : OrderBook ℚ) (d : OrderSide) (tickSize : ℚ) : Prop :=
  ∀ k, ∀ p ∈ b.queue d k, ∃ x ∈ sv.submissions, x.orderId = (b.heap p).id ∧ x.message.orderType.Priced ∧
    x.tickSize = tickSize ∧ Canonical tickSize x.message.price

/-- A level of such a side is at a multiple of the tick size. -/
theorem LimitInv.level_multiple {sv : Server} (h : LimitInv sv) {symbol : String} {b : OrderBook ℚ}
    (hb : sv.orderbooks.find? symbol = some b) (hI : Inv [] b) {d : OrderSide} {tickSize : ℚ}
    (hf : sv.FilledUnder b d tickSize) {k : ℚ} (hk : k ∈ (b.levels d).keys) : 0 < tickSize ∧ ∃ n : ℤ, k = n * tickSize := by
  obtain ⟨q, hq⟩ := SortedMap.mem_keys_iff.1 hk
  obtain ⟨p, rest, -, hqueue⟩ := hI.find?_eq_queue hq
  have hp : p ∈ b.queue d k := by rw [hqueue]; exact List.mem_cons_self ..
  obtain ⟨x, hx, hid, hpr, htick, hcan⟩ := hf k p hp
  have ht : 0 < tickSize := htick ▸ h.submission x hx
  have hindex : b.getOrder x.orderId = some p := hI.index.2 ⟨hid.symm, .inl (.inl ⟨d, k, hp⟩)⟩
  have hprice := (h.book x hx hb hindex).price hpr
  obtain ⟨n, hn, -⟩ := (adjustPrice_nearest_iff ht x.message.price).2 hcan
  refine ⟨ht, n, ?_⟩
  rw [← (hI.rest hp).2.1, hprice, Submission.bookedPrice, htick, hn]

/-- Two buyers, at 100 and at 10⁻¹¹ above it. -/
def splitLevel : List (Env × Event) :=
  [(sampleEnv false 1, .connect), (sampleEnv false 2, .message 0 (sampleSubmit .buy .limit 100 0 5)),
    (sampleEnv false 3, .message 0 (sampleSubmit .buy .limit (100 + 1 / 10 ^ 11) 0 5))]

end Server

end OrderbookGC
