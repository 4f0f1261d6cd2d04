/-
What the server asks a book for besides trading: the tick adjustment of a price, over exact
rationals, and the depth levels of a snapshot. `llround` and `fmod` are those of the C library;
`long long` is unbounded here.
-/
import OrderbookGC.Book.OrderBook
import Mathlib.Algebra.Order.Floor.Ring
import Mathlib.Data.Rat.Floor
import Mathlib.Tactic.Linarith

namespace OrderbookGC

open Container

/-- `std::llround`: to the nearest integer, ties away from zero. -/
def llround (q : ℚ) : Int := if 0 ≤ q then ⌊q + 1 / 2⌋ else -⌊-q + 1 / 2⌋

/-- `std::fmod`: the remainder of the division truncated towards zero. -/
def fmod (x y : ℚ) : ℚ := x - y * (if 0 ≤ x / y then ⌊x / y⌋ else ⌈x / y⌉)

structure PriceLevel where
  price : ℚ
  quantity : UInt32
  orderCount : Nat
deriving DecidableEq

/-! ## Ticks -/

def roundToTickSize (tickSize price : ℚ) : ℚ := if tickSize ≤ 0 then price else llround (price / tickSize) * tickSize

/-- A multiple of the tick size, within the source's epsilon. -/
def isValidPrice (tickSize price : ℚ) : Bool :=
  tickSize ≤ 0 || |fmod price tickSize| < 1 / 10 ^ 10 || |fmod price tickSize - tickSize| < 1 / 10 ^ 10

/-- The price `handleOrderSubmit` books for a submitted price. -/
def adjustPrice (tickSize price : ℚ) : ℚ := if isValidPrice tickSize price then price else roundToTickSize tickSize price

/-- Rounding moves a value by at most one half. -/
theorem abs_llround_sub_le (q : ℚ) : |(llround q : ℚ) - q| ≤ 1 / 2 := by
  unfold llround
  split_ifs with hq
  · have h1 := Int.floor_le (q + 1 / 2)
    have h2 := Int.lt_floor_add_one (q + 1 / 2)
    rw [abs_le]
    constructor <;> linarith
  · have h1 := Int.floor_le (-q + 1 / 2)
    have h2 := Int.lt_floor_add_one (-q + 1 / 2)
    rw [abs_le]
    push_cast
    constructor <;> linarith

theorem llround_intCast (n : ℤ) : llround n = n := by
  have habs := abs_llround_sub_le (n : ℚ)
  have hlt : |llround n - n| < 1 := by
    have : ((|llround n - n| : ℤ) : ℚ) < (1 : ℤ) := by push_cast; linarith
    exact Int.cast_lt.1 this
  have hzero := Int.abs_lt_one_iff.1 hlt
  omega

/-- The booked price is within half a tick of the submitted one. -/
theorem abs_adjustPrice_sub_le {tickSize : ℚ} (ht : 0 < tickSize) (price : ℚ) :
    |adjustPrice tickSize price - price| ≤ tickSize / 2 := by
  unfold adjustPrice roundToTickSize
  rw [if_neg (not_le.2 ht)]
  split_ifs with hv
  · rw [sub_self, abs_zero]
    linarith
  · have hprice : price = price / tickSize * tickSize := (div_mul_cancel₀ price ht.ne').symm
    have hround := abs_llround_sub_le (price / tickSize)
    calc |(llround (price / tickSize) : ℚ) * tickSize - price|
        = |(llround (price / tickSize) - price / tickSize) * tickSize| := by rw [sub_mul, ← hprice]
      _ = |(llround (price / tickSize) : ℚ) - price / tickSize| * tickSize := by rw [abs_mul, abs_of_pos ht]
      _ ≤ 1 / 2 * tickSize := mul_le_mul_of_nonneg_right hround ht.le
      _ = tickSize / 2 := by ring

/-- A price on the tick is booked as it is. -/
theorem adjustPrice_mul {tickSize : ℚ} (ht : 0 < tickSize) (n : ℤ) : adjustPrice tickSize (n * tickSize) = n * tickSize := by
  unfold adjustPrice roundToTickSize
  rw [if_neg (not_le.2 ht), mul_div_cancel_right₀ _ ht.ne', llround_intCast]
  split_ifs <;> rfl

/-- `llround` is the nearest integer, the one farther from zero on a tie. -/
theorem eq_llround_iff {n : ℤ} {q : ℚ} :
    n = llround q ↔ |(n : ℚ) - q| ≤ 1 / 2 ∧ (|(n : ℚ) - q| = 1 / 2 → |q| < |(n : ℚ)|) := by
  have hnonneg : ∀ {q : ℚ} {n : ℤ}, 0 ≤ q →
      (n = ⌊q + 1 / 2⌋ ↔ |(n : ℚ) - q| ≤ 1 / 2 ∧ (|(n : ℚ) - q| = 1 / 2 → |q| < |(n : ℚ)|)) := by
    intro q n hq
    rw [eq_comm, Int.floor_eq_iff, abs_le, abs_of_nonneg hq]
    constructor
    · rintro ⟨h1, h2⟩
      refine ⟨⟨by linarith, by linarith⟩, fun htie => ?_⟩
      -- below `q` the distance is less than one half
      rcases abs_cases ((n : ℚ) - q) with ⟨he, -⟩ | ⟨he, -⟩
      · exact lt_of_lt_of_le (by linarith) (le_abs_self _)
      · linarith
    · rintro ⟨⟨h1, h2⟩, htie⟩
      refine ⟨by linarith, ?_⟩
      by_contra hle
      have heq : (n : ℚ) = q - 1 / 2 := by linarith
      have hlt := htie (by rw [heq, show q - 1 / 2 - q = -(1 / 2) by ring, abs_neg]; norm_num)
      have hn : (0 : ℚ) ≤ n := by
        have : (-1 : ℤ) < n := by
          have : ((-1 : ℤ) : ℚ) < n := by push_cast; linarith
          exact_mod_cast this
        exact_mod_cast (by omega : 0 ≤ n)
      rw [abs_of_nonneg hn] at hlt
      linarith
  unfold llround
  split_ifs with hq
  · exact hnonneg hq
  · have h := hnonneg (q := -q) (n := -n) (by linarith)
    rw [eq_neg_iff_add_eq_zero, ← neg_eq_iff_add_eq_zero, h]
    push_cast
    rw [show -(n : ℚ) - -q = -((n : ℚ) - q) by ring, abs_neg, abs_neg, abs_neg]

/-- `p` is the multiple of the tick size nearest to `price`, the one farther from zero on a tie. -/
def NearestMultiple (tickSize price p : ℚ) : Prop :=
  ∃ n : ℤ, p = n * tickSize ∧ |p - price| ≤ tickSize / 2 ∧ (|p - price| = tickSize / 2 → |price| < |p|)

theorem nearestMultiple_iff {tickSize : ℚ} (ht : 0 < tickSize) {price p : ℚ} :
    NearestMultiple tickSize price p ↔ p = llround (price / tickSize) * tickSize := by
  have hprice : price = price / tickSize * tickSize := (div_mul_cancel₀ price ht.ne').symm
  have hscale : ∀ n : ℤ, |(n : ℚ) * tickSize - price| = |(n : ℚ) - price / tickSize| * tickSize := fun n => by
    rw [← abs_of_pos ht, ← abs_mul, abs_of_pos ht, sub_mul, ← hprice]
  have habs : |price| = |price / tickSize| * tickSize := by
    rw [← abs_of_pos ht, ← abs_mul, abs_of_pos ht, ← hprice]
  have hiff : ∀ n : ℤ, (|(n : ℚ) * tickSize - price| ≤ tickSize / 2 ∧
      (|(n : ℚ) * tickSize - price| = tickSize / 2 → |price| < |(n : ℚ) * tickSize|)) ↔ n = llround (price / tickSize) := by
    intro n
    have hhalf : tickSize / 2 = 1 / 2 * tickSize := by ring
    rw [eq_llround_iff, hscale, habs, abs_mul, abs_of_pos ht, hhalf, mul_le_mul_iff_left₀ ht, mul_left_inj' ht.ne',
      mul_lt_mul_iff_left₀ ht]
  constructor
  · rintro ⟨n, rfl, h⟩
    rw [(hiff n).1 h]
  · rintro rfl
    exact ⟨_, rfl, (hiff _).2 rfl⟩

/-- A submitted price that is booked as the nearest multiple: it is one, or is found to be none. -/
def Canonical (tickSize price : ℚ) : Prop := (∃ n : ℤ, price = n * tickSize) ∨ isValidPrice tickSize price = false

theorem adjustPrice_nearest_iff {tickSize : ℚ} (ht : 0 < tickSize) (price : ℚ) :
    NearestMultiple tickSize price (adjustPrice tickSize price) ↔ Canonical tickSize price := by
  unfold adjustPrice roundToTickSize Canonical
  rw [if_neg (not_le.2 ht)]
  cases hv : isValidPrice tickSize price with
  | true =>
    rw [if_pos rfl, or_iff_left (by simp)]
    constructor
    · rintro ⟨n, hn, -⟩
      exact ⟨n, hn⟩
    · rintro ⟨n, hn⟩
      refine ⟨n, hn, ?_, fun htie => ?_⟩
      · rw [sub_self, abs_zero]; linarith
      · rw [sub_self, abs_zero] at htie
        linarith
  | false =>
    rw [if_neg Bool.false_ne_true]
    exact iff_of_true ((nearestMultiple_iff ht).2 rfl) (.inr rfl)

/-- Two different multiples are a tick apart. -/
theorem le_abs_sub_of_multiples {tickSize : ℚ} (ht : 0 < tickSize) {m n : ℤ}
    (hne : (m : ℚ) * tickSize ≠ n * tickSize) : tickSize ≤ |(m : ℚ) * tickSize - n * tickSize| := by
  have hmn : m - n ≠ 0 := fun h => hne (by rw [sub_eq_zero.1 h])
  have hone : (1 : ℚ) ≤ |((m - n : ℤ) : ℚ)| := by exact_mod_cast Int.one_le_abs hmn
  calc tickSize = 1 * tickSize := (one_mul _).symm
    _ ≤ |((m - n : ℤ) : ℚ)| * tickSize := mul_le_mul_of_nonneg_right hone ht.le
    _ = |(m : ℚ) * tickSize - n * tickSize| := by
      rw [← abs_of_pos ht, ← abs_mul, abs_of_pos ht, Int.cast_sub, sub_mul]

namespace OrderBook

/-- The constructor `OrderBook::OrderBook`: an invalid tick size becomes 0.01. -/
def new (symbol : String) (tickSize : ℚ) : OrderBook ℚ := .empty symbol (if 0 < tickSize then tickSize else 1 / 100)

def setTickSize (b : OrderBook ℚ) (tickSize : ℚ) : OrderBook ℚ := if 0 < tickSize then { b with tickSize } else b

theorem new_tickSize_pos (symbol : String) (tickSize : ℚ) : 0 < (new symbol tickSize).tickSize := by
  unfold new OrderBook.empty
  dsimp only
  split_ifs with h
  · exact h
  · norm_num

theorem setTickSize_pos {b : OrderBook ℚ} (h : 0 < b.tickSize) (tickSize : ℚ) : 0 < (b.setTickSize tickSize).tickSize := by
  unfold setTickSize
  split_ifs with ht
  · exact ht
  · exact h

/-! ## Levels -/

/-- One level of `calculatePriceLevels`; the sum is a `uint32_t`. -/
def priceLevel (b : OrderBook ℚ) (level : ℚ × List OrderPtr) : PriceLevel :=
  { price := level.1, quantity := (level.2.map fun p => (b.heap p).remainingQuantity).sum
    orderCount := level.2.length }

def getBidLevels (b : OrderBook ℚ) (depth : Nat) : List PriceLevel :=
  (b.bids.entries.reverse.take depth).map b.priceLevel

def getAskLevels (b : OrderBook ℚ) (depth : Nat) : List PriceLevel := (b.asks.entries.take depth).map b.priceLevel

end OrderBook

end OrderbookGC
