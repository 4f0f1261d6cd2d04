/-
`cancelOrder`: for a live id it cancels the order, takes it out of its one queue (with the level
when that empties it) and out of the index, and touches nothing else; for any other id it does
nothing. The order is first taken out of its queue into flight, then dropped.
-/
import OrderbookGC.Book.Place

namespace OrderbookGC

open Container OrderBook

variable {P : Type} [LinearOrder P]

namespace OrderBook

theorem removeFrom_find? {m : SortedMap P (List OrderPtr)} (hf : ∀ k, m.find? k ≠ some []) (key : P) (p : OrderPtr)
    (k : P) :
    ((removeFrom m key p).find? k).getD [] =
        (if k = key then ((m.find? k).getD []).erase p else (m.find? k).getD []) ∧
      (removeFrom m key p).find? k ≠ some [] := by
  unfold removeFrom
  cases hq : m.find? key with
  | none =>
    refine ⟨?_, hf k⟩
    split_ifs with hk
    · subst hk; simp [hq]
    · rfl
  | some q =>
    simp only
    by_cases hp : p ∈ q
    · rw [if_pos hp]
      by_cases he : (q.erase p).isEmpty = true
      · rw [if_pos he, SortedMap.find?_erase]
        split_ifs with hk
        · subst hk; rw [hq]; simp [List.isEmpty_iff.1 he]
        · exact ⟨rfl, hf k⟩
      · rw [if_neg he, SortedMap.find?_insert]
        split_ifs with hk
        · subst hk; rw [hq]; simpa using he
        · exact ⟨rfl, hf k⟩
    · rw [if_neg hp]
      refine ⟨?_, hf k⟩
      split_ifs with hk
      · subst hk; rw [hq]; simp [List.erase_of_not_mem hp]
      · rfl

/-- Everything a successful cancel changes. -/
structure CancelEffect (orderId : String) (p : OrderPtr) (b b' : OrderBook P) : Prop where
  id : (b.heap p).id = orderId
  held : b.Held p
  heap : b'.heap = Function.update b.heap p { b.heap p with status := .canceled }
  queue : ∀ d k, b'.queue d k = (b.queue d k).erase p
  stopQueue : ∀ d k, b'.stopQueue d k = (b.stopQueue d k).erase p
  full : ∀ d k, (b'.levels d).find? k ≠ some []
  fullStop : ∀ d k, (b'.stops d).find? k ≠ some []
  index : b'.ordersById = b.ordersById.erase orderId
  nextPtr : b'.nextPtr = b.nextPtr
  symbol : b'.symbol = b.symbol
  tickSize : b'.tickSize = b.tickSize

section Remove

variable (p : OrderPtr) (o : Order P) (b : OrderBook P)

theorem removeOrder_frame : (removeOrder p o b).heap = b.heap ∧ (removeOrder p o b).ordersById = b.ordersById ∧
    (removeOrder p o b).nextPtr = b.nextPtr ∧ (removeOrder p o b).symbol = b.symbol ∧
    (removeOrder p o b).tickSize = b.tickSize := by
  unfold removeOrder
  split <;> exact ⟨rfl, rfl, rfl, rfl, rfl⟩

theorem removeOrder_levels (d : OrderSide) : (removeOrder p o b).levels d =
    if o.isStopOrder = false ∧ d = o.side then removeFrom (b.levels d) o.price p else b.levels d := by
  unfold removeOrder
  cases o.isStopOrder <;> cases o.side <;> cases d <;> rfl

theorem removeOrder_stops (d : OrderSide) : (removeOrder p o b).stops d =
    if o.isStopOrder = true ∧ d = o.side then removeFrom (b.stops d) o.stopPrice p else b.stops d := by
  unfold removeOrder
  cases o.isStopOrder <;> cases o.side <;> cases d <;> rfl

end Remove

theorem cancelOrder_effect {b : OrderBook P} (hI : BookInv [] b) {orderId : String} {p : OrderPtr}
    (hp : b.ordersById.find? orderId = some p) :
    ∃ b', b.cancelOrder orderId = (true, b', [.order p]) ∧ CancelEffect orderId p b b' := by
  obtain ⟨hid, hheld | hF⟩ := hI.index.1 hp
  · have hl := hI.live hheld
    unfold cancelOrder
    rw [hp]
    simp only [Order.cancel_of_live hl, Bool.not_true, Bool.false_eq_true, if_false]
    generalize hb₁ : ({ b with heap := Function.update b.heap p { b.heap p with status := .canceled }
                               ordersById := b.ordersById.erase orderId } : OrderBook P) = b₁
    generalize ho : ({ b.heap p with status := OrderStatus.canceled } : Order P) = o
    have hside : o.side = (b.heap p).side := by rw [← ho]
    have hprice : o.price = (b.heap p).price := by rw [← ho]
    have hstop : o.stopPrice = (b.heap p).stopPrice := by rw [← ho]
    have htype : o.isStopOrder = (b.heap p).isStopOrder := by rw [← ho]; rfl
    have hlev : ∀ d, b₁.levels d = b.levels d := fun d => by rw [← hb₁]; cases d <;> rfl
    have hsto : ∀ d, b₁.stops d = b.stops d := fun d => by rw [← hb₁]; cases d <;> rfl
    obtain ⟨f1, f2, f3, f4, f5⟩ := removeOrder_frame p o b₁
    have hrf := fun d k => removeFrom_find? (m := b.levels d) (hI.full d) o.price p k
    have hsf := fun d k => removeFrom_find? (m := b.stops d) (hI.fullStop d) o.stopPrice p k
    refine ⟨_, rfl, hid, hheld, by rw [f1, ← hb₁, ho], fun d k => ?_, fun d k => ?_, fun d k => ?_, fun d k => ?_,
      by rw [f2, ← hb₁], by rw [f3, ← hb₁], by rw [f4, ← hb₁], by rw [f5, ← hb₁]⟩
    · -- only the queue the order's own fields name can hold it
      have hnot : ¬ (o.isStopOrder = false ∧ d = o.side ∧ k = o.price) → (b.queue d k).erase p = b.queue d k :=
        fun hc => List.erase_of_not_mem fun hm => by
          obtain ⟨h1, h2, h3⟩ := hI.rest hm
          exact hc ⟨by rw [htype]; simp [Order.isStopOrder, h3], by rw [hside, h1], by rw [hprice, h2]⟩
      unfold OrderBook.queue at hnot ⊢
      rw [removeOrder_levels, hlev]
      split_ifs with hc
      · rw [(hrf d k).1]
        split_ifs with hk
        · rfl
        · exact (hnot fun h => hk h.2.2).symm
      · exact (hnot fun h => hc ⟨h.1, h.2.1⟩).symm
    · have hnot : ¬ (o.isStopOrder = true ∧ d = o.side ∧ k = o.stopPrice) → (b.stopQueue d k).erase p = b.stopQueue d k :=
        fun hc => List.erase_of_not_mem fun hm => by
          obtain ⟨h1, h2, h3⟩ := hI.stop hm
          exact hc ⟨htype.trans h3, by rw [hside, h1], by rw [hstop, h2]⟩
      unfold OrderBook.stopQueue at hnot ⊢
      rw [removeOrder_stops, hsto]
      split_ifs with hc
      · rw [(hsf d k).1]
        split_ifs with hk
        · rfl
        · exact (hnot fun h => hk h.2.2).symm
      · exact (hnot fun h => hc ⟨h.1, h.2.1⟩).symm
    · rw [removeOrder_levels, hlev]
      split_ifs
      · exact (hrf d k).2
      · exact hI.full d k
    · rw [removeOrder_stops, hsto]
      split_ifs
      · exact (hsf d k).2
      · exact hI.fullStop d k
  · cases hF

theorem cancelOrder_none {b : OrderBook P} {orderId : String} (h : b.ordersById.find? orderId = none) :
    b.cancelOrder orderId = (false, b, []) := by
  unfold cancelOrder; rw [h]

namespace CancelEffect

variable {orderId : String} {p : OrderPtr} {b b' : OrderBook P}

theorem mem_queue (h : CancelEffect orderId p b b') (hI : BookInv [] b) {d : OrderSide} {k : P} {x : OrderPtr} :
    x ∈ b'.queue d k ↔ x ∈ b.queue d k ∧ x ≠ p := by
  rw [h.queue, (hI.nodup d k).mem_erase_iff]; tauto

theorem mem_stopQueue (h : CancelEffect orderId p b b') (hI : BookInv [] b) {d : OrderSide} {k : P} {x : OrderPtr} :
    x ∈ b'.stopQueue d k ↔ x ∈ b.stopQueue d k ∧ x ≠ p := by
  rw [h.stopQueue, (hI.nodupStop d k).mem_erase_iff]; tauto

theorem held_iff (h : CancelEffect orderId p b b') (hI : BookInv [] b) {x : OrderPtr} :
    b'.Held x ↔ b.Held x ∧ x ≠ p := by
  unfold Held
  simp only [h.mem_queue hI, h.mem_stopQueue hI]
  constructor
  · rintro (⟨d, k, hx, hne⟩ | ⟨d, k, hx, hne⟩)
    · exact ⟨.inl ⟨d, k, hx⟩, hne⟩
    · exact ⟨.inr ⟨d, k, hx⟩, hne⟩
  · rintro ⟨⟨d, k, hx⟩ | ⟨d, k, hx⟩, hne⟩
    · exact .inl ⟨d, k, hx, hne⟩
    · exact .inr ⟨d, k, hx, hne⟩

theorem heapOther (h : CancelEffect orderId p b b') {x : OrderPtr} (hx : x ≠ p) : b'.heap x = b.heap x := by
  rw [h.heap, Function.update_of_ne hx]

theorem static (h : CancelEffect orderId p b b') (x : OrderPtr) : (b.heap x).SameStatic (b'.heap x) := by
  by_cases hx : x = p
  · rw [h.heap, hx, Function.update_self]; exact ⟨rfl, rfl, rfl, rfl, rfl, rfl, rfl, rfl⟩
  · rw [h.heapOther hx]; exact .refl _

theorem inv (h : CancelEffect orderId p b b') (hI : Inv [] b) : Inv [] b' := by
  have hB := hI.toBookInv
  have hh : ∀ {x}, b'.Held x → b'.heap x = b.heap x := fun hx => h.heapOther ((h.held_iff hB).1 hx).2
  refine ⟨?_, fun _ hp => by cases hp⟩
  constructor
  · intro d k x hx
    rw [hh (.inl ⟨d, k, hx⟩)]; exact hB.rest ((h.mem_queue hB).1 hx).1
  · intro d k x hx
    rw [hh (.inr ⟨d, k, hx⟩)]; exact hB.stop ((h.mem_stopQueue hB).1 hx).1
  · intro x hx
    rw [hh hx]; exact hB.live ((h.held_iff hB).1 hx).1
  · intro d k; rw [h.queue]; exact (hB.nodup d k).erase p
  · intro d k; rw [h.stopQueue]; exact (hB.nodupStop d k).erase p
  · exact h.full
  · exact h.fullStop
  · intro id x
    rw [h.index, SortedMap.find?_erase, (h.static x).id, h.held_iff hB]
    split_ifs with hc
    · constructor
      · intro hn; cases hn
      · rintro ⟨h1, ⟨h2, h3⟩ | h2⟩
        · exact absurd (hB.eq_of_id (.inl h2) (.inl h.held) (h1.trans (hc.trans h.id.symm))) h3
        · cases h2
    · rw [hB.index]
      refine and_congr_right fun h1 => or_congr_left ⟨fun h2 => ⟨h2, ?_⟩, fun h2 => h2.1⟩
      rintro rfl; exact hc (h1.symm.trans h.id)
  · intro x hx; cases hx
  · exact .nil
  · intro x hx; cases hx
  · intro x hx; cases hx
  · rintro x (hx | hx)
    · rw [h.nextPtr]; exact hB.alloc (.inl ((h.held_iff hB).1 hx).1)
    · cases hx

end CancelEffect

end OrderBook

end OrderbookGC
