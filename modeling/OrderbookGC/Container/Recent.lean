/-
What loops keep of the members they have seen. Of a list to which members are added and which is cut each time, the latest
members stand: they come first and the end is cut off (`take`), or they come last and the begin is cut off (`rtake`). The
extremes that a loop computes are bounds. A component of a state that only some of the inputs change is the result of a
loop over these (`foldl_component`).
-/
import Mathlib.Data.List.DropRight
import Mathlib.Data.List.Induction
import Mathlib.Data.List.Sort
import Mathlib.Order.Bounds.Basic
import Mathlib.Order.MinMax
import Mathlib.Tactic.Common

namespace Container

variable {α : Type}

theorem take_cons_take (n : Nat) (a : α) (l : List α) : (a :: l.take n).take n = (a :: l).take n := by
  cases n with
  | zero => rfl
  | succ n => rw [List.take_succ_cons, List.take_succ_cons, List.take_take, min_eq_left (Nat.le_succ n)]

theorem rtake_append_rtake (n : Nat) (l : List α) (a : α) : (l.rtake n ++ [a]).rtake n = (l ++ [a]).rtake n := by
  rw [List.rtake_eq_reverse_take_reverse, List.rtake_eq_reverse_take_reverse, List.rtake_eq_reverse_take_reverse,
    List.reverse_append, List.reverse_append, List.reverse_reverse, List.reverse_singleton, List.singleton_append,
    List.singleton_append, take_cons_take]

/-- Adding in front and cutting, member by member. -/
theorem foldl_take (n : Nat) (l : List α) : l.foldl (fun r a => (a :: r).take n) [] = l.reverse.take n := by
  induction l using List.reverseRecOn with
  | nil => exact (List.take_nil).symm
  | append_singleton l a ih =>
    rw [List.foldl_append, List.foldl_cons, List.foldl_nil, ih, take_cons_take, List.reverse_append, List.reverse_singleton,
      List.singleton_append]

/-- Adding behind and cutting, member by member. -/
theorem foldl_rtake (n : Nat) (l : List α) : l.foldl (fun r a => (r ++ [a]).rtake n) [] = l.rtake n := by
  induction l using List.reverseRecOn with
  | nil => exact (List.rtake_nil n).symm
  | append_singleton l a ih => rw [List.foldl_append, List.foldl_cons, List.foldl_nil, ih, rtake_append_rtake]

theorem foldl_last (b : α) (l : List α) : l.foldl (fun _ a => a) b = l.getLastD b := by
  induction l generalizing b with
  | nil => rfl
  | cons a l ih => rw [List.foldl_cons, ih, List.getLastD_cons]

/-- A component of the state that the inputs change through what they select. -/
theorem foldl_component {σ γ δ : Type} {step : σ → α → σ} {g : σ → γ} {sel : α → Option δ} {u : γ → δ → γ}
    (h : ∀ s a, g (step s a) = (sel a).elim (g s) (u (g s))) (l : List α) (s : σ) :
    g (l.foldl step s) = (l.filterMap sel).foldl u (g s) := by
  induction l generalizing s with
  | nil => rfl
  | cons a l ih =>
    rw [List.foldl_cons, ih, h]
    cases hsel : sel a with
    | none => rw [List.filterMap_cons_none hsel]; rfl
    | some d => rw [List.filterMap_cons_some hsel, List.foldl_cons]; rfl

/-- The last members of a list that ascends are those with few members above them. -/
theorem mem_rtake_iff {κ : Type} [LinearOrder κ] {key : α → κ} {l : List α} (hs : l.Pairwise fun a b => key a < key b)
    {n : Nat} {a : α} : a ∈ l.rtake n ↔ a ∈ l ∧ (l.filter fun b => key a < key b).length < n := by
  by_cases ha : a ∈ l
  · obtain ⟨before, after, rfl⟩ := List.append_of_mem ha
    obtain ⟨-, hcons, hbefore⟩ := List.pairwise_append.1 hs
    have habove : (before ++ a :: after).filter (fun b => key a < key b) = after := by
      rw [List.filter_append, List.filter_eq_nil_iff.2, List.filter_cons_of_neg (by simp), List.filter_eq_self.2]
      · rfl
      · intro b hb
        simpa using (List.pairwise_cons.1 hcons).1 b hb
      · intro b hb
        simpa using (hbefore b hb a List.mem_cons_self).le
    rw [habove, and_iff_right ha, List.rtake, List.length_append, List.length_cons]
    constructor
    · intro h
      by_contra hlt
      rw [List.drop_append, List.drop_of_length_le (by omega), List.nil_append] at h
      have hafter : a ∈ after := by
        obtain ⟨i, hi⟩ : ∃ i, before.length + (after.length + 1) - n - before.length = i + 1 := ⟨after.length - n, by omega⟩
        rw [hi, List.drop_succ_cons] at h
        exact List.mem_of_mem_drop h
      exact lt_irrefl _ ((List.pairwise_cons.1 hcons).1 a hafter)
    · intro h
      rw [List.drop_append_of_le_length (by omega)]
      exact List.mem_append_right _ List.mem_cons_self
  · exact iff_of_false (fun h => ha (List.mem_of_mem_drop h)) fun h => ha h.1

/-! ## Extremes -/

theorem isGreatest_foldl_max [LinearOrder α] (l : List α) (a : α) :
    IsGreatest {x | x ∈ a :: l} (l.foldl max a) := by
  induction l generalizing a with
  | nil => simp
  | cons b l ih =>
    obtain ⟨hmem, hub⟩ := ih (max a b)
    rw [List.foldl_cons]
    constructor
    · rcases List.mem_cons.1 hmem with h | h
      · rw [h]
        rcases max_choice a b with hc | hc <;> simp [hc]
      · exact List.mem_cons_of_mem _ (List.mem_cons_of_mem _ h)
    · have hmax : max a b ≤ l.foldl max (max a b) := hub List.mem_cons_self
      intro x hx
      rcases List.mem_cons.1 hx with rfl | hx
      · exact (le_max_left _ _).trans hmax
      rcases List.mem_cons.1 hx with rfl | hx
      · exact (le_max_right _ _).trans hmax
      · exact hub (List.mem_cons_of_mem _ hx)

theorem isLeast_foldl_min [LinearOrder α] (l : List α) (a : α) : IsLeast {x | x ∈ a :: l} (l.foldl min a) :=
  isGreatest_foldl_max (α := αᵒᵈ) l a

end Container
