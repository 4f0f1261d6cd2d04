/-
Sums over lists by key, and the highest of a list of amounts. Both forget the order of the list: what
is counted once for every key, and what is the highest amount, depends on the members only.
-/
import Mathlib.Algebra.BigOperators.Group.Finset.Piecewise
import Mathlib.Algebra.Order.Ring.Int

namespace Container

section Sums

variable {α κ M : Type} [DecidableEq κ] [AddCommMonoid M]

/-- A sum is the sum over the keys of what is under each key. -/
theorem sum_map_eq_sum_keys (key : α → κ) (f : α → M) (keys : Finset κ) : ∀ l : List α, (∀ a ∈ l, key a ∈ keys) →
    (l.map f).sum = ∑ k ∈ keys, ((l.filter (key · = k)).map f).sum
  | [], _ => by simp
  | a :: l, h => by
    have ih := sum_map_eq_sum_keys key f keys l fun b hb => h b (List.mem_cons_of_mem _ hb)
    have hsplit : ∀ k, (((a :: l).filter (key · = k)).map f).sum =
        (if key a = k then f a else 0) + ((l.filter (key · = k)).map f).sum := by
      intro k
      by_cases hk : key a = k
      · rw [List.filter_cons_of_pos (by simpa using hk), List.map_cons, List.sum_cons, if_pos hk]
      · rw [List.filter_cons_of_neg (by simpa using hk), if_neg hk, zero_add]
    rw [Finset.sum_congr rfl fun k _ => hsplit k, Finset.sum_add_distrib, Finset.sum_ite_eq,
      if_pos (h a List.mem_cons_self), List.map_cons, List.sum_cons, ih]

omit [DecidableEq κ] in
/-- Sums over a list of sums over keys can be taken in the other order. -/
theorem sum_map_sum_comm (f : α → κ → M) (keys : Finset κ) (l : List α) :
    (l.map fun a => ∑ k ∈ keys, f a k).sum = ∑ k ∈ keys, (l.map fun a => f a k).sum := by
  induction l with
  | nil => simp
  | cons a l ih => simp only [List.map_cons, List.sum_cons, ih, Finset.sum_add_distrib]

end Sums

/-! ## The highest amount -/

/-- The highest of the amounts, and 0 if there is none above it. -/
def highest (l : List Int) : Int := l.foldr max 0

@[simp] theorem highest_nil : highest [] = 0 := rfl

@[simp] theorem highest_cons (x : Int) (l : List Int) : highest (x :: l) = max x (highest l) := rfl

theorem highest_nonneg (l : List Int) : 0 ≤ highest l := by
  induction l with
  | nil => exact le_refl _
  | cons x l ih => exact le_max_of_le_right ih

theorem highest_le_iff {l : List Int} {n : Int} (hn : 0 ≤ n) : highest l ≤ n ↔ ∀ x ∈ l, x ≤ n := by
  induction l with
  | nil => simpa using hn
  | cons x l ih => rw [highest_cons, max_le_iff, ih, List.forall_mem_cons]

theorem le_highest {l : List Int} {x : Int} (h : x ∈ l) : x ≤ highest l :=
  (highest_le_iff (highest_nonneg l)).1 (le_refl _) x h

theorem highest_append (l l' : List Int) : highest (l ++ l') = max (highest l) (highest l') := by
  induction l with
  | nil => exact (max_eq_right (highest_nonneg l')).symm
  | cons x l ih => rw [List.cons_append, highest_cons, highest_cons, ih, max_assoc]

/-- The highest amount depends on the members only. -/
theorem highest_congr {l l' : List Int} (h : ∀ x, x ∈ l ↔ x ∈ l') : highest l = highest l' := by
  refine le_antisymm ((highest_le_iff (highest_nonneg _)).2 fun x hx => le_highest ((h x).1 hx)) ?_
  exact (highest_le_iff (highest_nonneg _)).2 fun x hx => le_highest ((h x).2 hx)

end Container
