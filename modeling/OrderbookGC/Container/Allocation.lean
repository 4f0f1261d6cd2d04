/-
Quantities taken from lots that have a price and a size. Taking from the cheapest lots first fixes what is taken up to a
price: the lots below it whole, nothing of the lots above it. No other way to take the same total costs less.
-/
import Mathlib.Algebra.BigOperators.Ring.Finset
import Mathlib.Algebra.Order.BigOperators.Group.Finset
import Mathlib.Algebra.Order.Ring.Cast
import Mathlib.Data.Finset.Max
import Mathlib.Tactic.Ring

namespace Allocation

variable {α K : Type*} [CommRing K] [LinearOrder K] [IsStrictOrderedRing K]

/-- What is taken of the lots costs altogether. -/
def cost {K : Type*} [CommRing K] (lots : Finset α) (price : α → K) (taken : α → ℕ) : K := ∑ a ∈ lots, (taken a : K) * price a

/-- What is taken altogether. -/
def total (lots : Finset α) (taken : α → ℕ) : ℕ := ∑ a ∈ lots, taken a

/-- The lots cheaper than `cut` are taken whole, nothing is taken of the dearer ones. -/
structure CheapestFirst {K : Type*} [LT K] (lots : Finset α) (price : α → K) (size taken : α → ℕ) (cut : K) : Prop where
  below : ∀ a ∈ lots, price a < cut → taken a = size a
  above : ∀ a ∈ lots, cut < price a → taken a = 0

variable {lots : Finset α} {price : α → K} {size taken other : α → ℕ} {cut : K}

/-- Taking from the cheapest lots first costs least. -/
theorem CheapestFirst.cost_le (h : CheapestFirst lots price size taken cut) (hsize : ∀ a ∈ lots, other a ≤ size a)
    (htotal : total lots other = total lots taken) : cost lots price taken ≤ cost lots price other := by
  -- against the price of the cut, what is taken more of a lot never makes up for what is taken less
  have hterm : ∀ a ∈ lots, 0 ≤ ((other a : K) - taken a) * (price a - cut) := fun a ha => by
    rcases lt_trichotomy (price a) cut with hlt | heq | hgt
    · have hle : (other a : K) ≤ taken a := by
        rw [h.below a ha hlt]
        exact_mod_cast hsize a ha
      exact mul_nonneg_of_nonpos_of_nonpos (sub_nonpos.2 hle) (sub_nonpos.2 hlt.le)
    · rw [heq, sub_self, mul_zero]
    · rw [h.above a ha hgt, Nat.cast_zero, sub_zero]
      exact mul_nonneg (Nat.cast_nonneg _) (sub_nonneg.2 hgt.le)
  have htot : ∑ a ∈ lots, (other a : K) = ∑ a ∈ lots, (taken a : K) := by
    unfold total at htotal
    exact_mod_cast htotal
  have hsum : ∑ a ∈ lots, ((other a : K) - taken a) * (price a - cut) = cost lots price other - cost lots price taken := by
    calc ∑ a ∈ lots, ((other a : K) - taken a) * (price a - cut)
        = ∑ a ∈ lots, ((other a : K) * price a - taken a * price a - ((other a : K) - taken a) * cut) :=
          Finset.sum_congr rfl fun a _ => by ring
      _ = cost lots price other - cost lots price taken := by
          rw [Finset.sum_sub_distrib, Finset.sum_sub_distrib, ← Finset.sum_mul, Finset.sum_sub_distrib, htot, sub_self,
            zero_mul, sub_zero]
          rfl
  have := Finset.sum_nonneg hterm
  rw [hsum] at this
  exact sub_nonneg.1 this

/-- Taking from the dearest lots first brings most. -/
theorem CheapestFirst.le_cost (h : CheapestFirst lots (fun a => -price a) size taken cut)
    (hsize : ∀ a ∈ lots, other a ≤ size a) (htotal : total lots other = total lots taken) :
    cost lots price other ≤ cost lots price taken := by
  have hneg : ∀ f : α → ℕ, cost lots (fun a => -price a) f = -cost lots price f := fun f => by
    unfold cost
    rw [← Finset.sum_neg_distrib]
    exact Finset.sum_congr rfl fun a _ => mul_neg _ _
  have := h.cost_le hsize htotal
  rw [hneg, hneg] at this
  exact neg_le_neg_iff.1 this

omit [CommRing K] [IsStrictOrderedRing K] in
/-- When nothing is taken, any price up to all lots is a cut. -/
theorem CheapestFirst.of_none [Nonempty K] (h : ∀ a ∈ lots, taken a = 0) : ∃ cut, CheapestFirst lots price size taken cut := by
  rcases lots.eq_empty_or_nonempty with rfl | hne
  · exact ⟨Classical.arbitrary K, by simp, by simp⟩
  · obtain ⟨m, -, hmin⟩ := lots.exists_min_image price hne
    exact ⟨price m, fun a ha hlt => absurd hlt (not_lt.2 (hmin a ha)), fun a ha _ => h a ha⟩

/-! ## Taking more of one lot -/

theorem total_add [DecidableEq α] (a : α) (q : ℕ) (ha : a ∈ lots)
    (h : ∀ b ∈ lots, other b = taken b + if b = a then q else 0) : total lots other = total lots taken + q := by
  unfold total
  rw [Finset.sum_congr rfl h, Finset.sum_add_distrib, Finset.sum_ite_eq', if_pos ha]

omit [LinearOrder K] [IsStrictOrderedRing K] in
theorem cost_add [DecidableEq α] (a : α) (q : ℕ) (ha : a ∈ lots)
    (h : ∀ b ∈ lots, other b = taken b + if b = a then q else 0) :
    cost lots price other = cost lots price taken + q * price a := by
  have hone : (q : K) * price a = ∑ b ∈ lots, if b = a then (q : K) * price b else 0 := by
    rw [Finset.sum_ite_eq', if_pos ha]
  unfold cost
  rw [hone, ← Finset.sum_add_distrib]
  refine Finset.sum_congr rfl fun b hb => ?_
  rw [h b hb]
  by_cases hb : b = a
  · rw [if_pos hb, if_pos hb, Nat.cast_add, add_mul]
  · rw [if_neg hb, if_neg hb, Nat.add_zero, add_zero]

/-- The total of lots that are taken whole, those of a part, and nothing of the others. -/
theorem total_eq_of_whole (p : α → Prop) [DecidablePred p] (hwhole : ∀ a ∈ lots, p a → taken a = size a)
    (hnone : ∀ a ∈ lots, ¬ p a → taken a = 0) : total lots taken = total (lots.filter p) size := by
  unfold total
  rw [Finset.sum_filter]
  refine Finset.sum_congr rfl fun a ha => ?_
  by_cases hp : p a
  · rw [if_pos hp, hwhole a ha hp]
  · rw [if_neg hp, hnone a ha hp]

theorem total_le_of_part (p : α → Prop) [DecidablePred p] (hsize : ∀ a ∈ lots, taken a ≤ size a)
    (hnone : ∀ a ∈ lots, ¬ p a → taken a = 0) : total lots taken ≤ total (lots.filter p) size := by
  unfold total
  rw [Finset.sum_filter]
  refine Finset.sum_le_sum fun a ha => ?_
  by_cases hp : p a
  · rw [if_pos hp]
    exact hsize a ha
  · rw [if_neg hp, hnone a ha hp]

end Allocation
